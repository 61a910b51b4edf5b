import HttpGarden.Hpack.String

/-!
# HttpGarden.Hpack.Field

`hpack.py`: **header field representations**, and blocks of them.

Every representation is an integer behind a few marker bits, followed by no, one or
two strings. `parseHpackField_eq_ok` says of a whole input what it is parsed to in
these terms, and `toBytes_eq` what is written.
-/

namespace HttpGarden.Hpack

open Lib Lib.Reader

/-! ### Representations -/

/-- `HPACKHeaderFieldProperty`. The class is an `int`, of which the tools build the
three values below. -/
inductive HPACKHeaderFieldProperty
  | cached
  | uncached
  | verbatim
  deriving Repr, DecidableEq

namespace HPACKHeaderFieldProperty

/-- The class of index that `__post_init__` asserts: `HPACKInt6` or `HPACKInt4`. -/
def indexLen : HPACKHeaderFieldProperty → Nat
  | cached => 6
  | uncached | verbatim => 4

/-- The `preprefix` of the index in `HPACKPartialIndexedHeaderField.to_bytes`. -/
def preprefixBits : HPACKHeaderFieldProperty → Nat
  | cached => 0b01
  | uncached => 0b0000
  | verbatim => 0b0001

/-- The first byte in `HPACKLiteralHeaderField.to_bytes`. -/
def literalByte : HPACKHeaderFieldProperty → UInt8
  | cached => 0x40
  | uncached => 0x00
  | verbatim => 0x10

end HPACKHeaderFieldProperty

/-- `HPACKField`, the union of the four classes. The type of the index of a partially
indexed field is the one its `__post_init__` asserts. -/
inductive HPACKField
  | indexed (index : HPACKInt7)
  | partialIndexed (prop : HPACKHeaderFieldProperty) (index : HPACKInt prop.indexLen)
      (val : HPACKString)
  | literal (key val : HPACKString) (prop : HPACKHeaderFieldProperty := .uncached)
  | dynamicTableSizeUpdate (size : HPACKInt5)
  deriving Repr, DecidableEq

/-- The branch of `parse_hpack_field` for fields with one of the properties. -/
def parseWithProperty (prop : HPACKHeaderFieldProperty) : Reader UInt8 PyError HPACKField := do
  let index ← HPACKInt.parse prop.indexLen
  if index.val = 0 then
    return .literal (← HPACKString.parse) (← HPACKString.parse) prop
  return .partialIndexed prop index (← HPACKString.parse)

/-- `parse_hpack_field` -/
def parseHpackField : Reader UInt8 PyError HPACKField := do
  let prefixByte ← peek .stopIteration
  if prefixByte.toNat &&& 0b10000000 = 0b10000000 then
    return .indexed (← HPACKInt.parse 7)
  if prefixByte.toNat &&& 0b11000000 = 0b01000000 then parseWithProperty .cached
  else if prefixByte.toNat &&& 0b11110000 = 0b00000000 then parseWithProperty .uncached
  else if prefixByte.toNat &&& 0b11110000 = 0b00010000 then parseWithProperty .verbatim
  else if prefixByte.toNat &&& 0b11100000 = 0b00100000 then
    return .dynamicTableSizeUpdate (← HPACKInt.parse 5)
  else throw .assertionError

namespace HPACKField

/-- The four methods `to_bytes`. -/
def toBytes : HPACKField → Except PyError Bytes
  | indexed index => index.toBytes 1
  | partialIndexed prop index val => do
    return (← index.toBytes prop.preprefixBits) ++ (← val.toBytes)
  | literal key val prop => do return prop.literalByte :: (← key.toBytes) ++ (← val.toBytes)
  | dynamicTableSizeUpdate size => size.toBytes 1

/-! ### The common shape -/

/-- The number of bits that the integer of a field has in the first byte. -/
def indexLen : HPACKField → Nat
  | indexed _ => 7
  | partialIndexed prop _ _ | literal _ _ prop => prop.indexLen
  | dynamicTableSizeUpdate _ => 5

/-- The marker bits in front of them. -/
def preprefixBits : HPACKField → Nat
  | indexed _ | dynamicTableSizeUpdate _ => 1
  | partialIndexed prop _ _ | literal _ _ prop => prop.preprefixBits

/-- The integer, which is zero for a literal. -/
def number : HPACKField → Int
  | indexed index => index.val
  | partialIndexed _ index _ => index.val
  | literal _ _ _ => 0
  | dynamicTableSizeUpdate size => size.val

/-- How many bytes of zero padding the integer has. -/
def paddingAmount : HPACKField → Int
  | indexed index => index.paddingAmount
  | partialIndexed _ index _ => index.paddingAmount
  | literal _ _ _ => 0
  | dynamicTableSizeUpdate size => size.paddingAmount

def strings : HPACKField → List HPACKString
  | indexed _ | dynamicTableSizeUpdate _ => []
  | partialIndexed _ _ val => [val]
  | literal key val _ => [key, val]

/-- Only a literal has the index zero in front of its strings. -/
def indexFits : HPACKField → Prop
  | partialIndexed _ index _ => index.val ≠ 0
  | _ => True

instance : ∀ f : HPACKField, Decidable f.indexFits
  | indexed _ | literal _ _ _ | dynamicTableSizeUpdate _ => .isTrue trivial
  | partialIndexed _ index _ => inferInstanceAs (Decidable (index.val ≠ 0))

/-- The same field with other strings. -/
def mapStrings (f : HPACKString → HPACKString) : HPACKField → HPACKField
  | indexed index => indexed index
  | partialIndexed prop index val => partialIndexed prop index (f val)
  | literal key val prop => literal (f key) (f val) prop
  | dynamicTableSizeUpdate size => dynamicTableSizeUpdate size

theorem indexLen_bounds (f : HPACKField) :
    1 ≤ f.indexLen ∧ f.indexLen ≤ 8 ∧ f.preprefixBits < 2 ^ (8 - f.indexLen) := by
  cases f with
  | indexed _ | dynamicTableSizeUpdate _ => simp [indexLen, preprefixBits]
  | partialIndexed prop _ _ | literal _ _ prop =>
      cases prop <;> simp [indexLen, preprefixBits, HPACKHeaderFieldProperty.indexLen,
        HPACKHeaderFieldProperty.preprefixBits]

/-- The strings `xs` are read off `s`, one after the other, down to `t`. -/
def ReadsStrings (s : Bytes) : List HPACKString → Bytes → Prop
  | [], t => s = t
  | x :: xs, t => ∃ s', HPACKString.parse s = .ok (x, s') ∧ ReadsStrings s' xs t

theorem length_le_of_readsStrings {xs : List HPACKString} {s t : Bytes}
    (h : ReadsStrings s xs t) : t.length ≤ s.length := by
  induction xs generalizing s with
  | nil => exact (congrArg List.length h).symm.le
  | cons x xs ih =>
      obtain ⟨s', hx, hxs⟩ := h
      have := HPACKString.consumes_parse s x s' hx
      have := ih hxs
      omega

end HPACKField

/-! ### Reading -/

/-- The five masks compare the marker bits. -/
theorem masks (b : UInt8) :
    (b.toNat &&& 0b10000000 = 0b10000000 ↔ b.toNat / 2 ^ 7 = 1) ∧
    (b.toNat &&& 0b11000000 = 0b01000000 ↔ b.toNat / 2 ^ 6 = 1) ∧
    (b.toNat &&& 0b11110000 = 0b00000000 ↔ b.toNat / 2 ^ 4 = 0) ∧
    (b.toNat &&& 0b11110000 = 0b00010000 ↔ b.toNat / 2 ^ 4 = 1) ∧
    (b.toNat &&& 0b11100000 = 0b00100000 ↔ b.toNat / 2 ^ 5 = 1) := by
  have h : ∀ n : Fin 256,
      (n.val &&& 0b10000000 = 0b10000000 ↔ n.val / 2 ^ 7 = 1) ∧
      (n.val &&& 0b11000000 = 0b01000000 ↔ n.val / 2 ^ 6 = 1) ∧
      (n.val &&& 0b11110000 = 0b00000000 ↔ n.val / 2 ^ 4 = 0) ∧
      (n.val &&& 0b11110000 = 0b00010000 ↔ n.val / 2 ^ 4 = 1) ∧
      (n.val &&& 0b11100000 = 0b00100000 ↔ n.val / 2 ^ 5 = 1) := by
    decide +kernel
  exact h ⟨b.toNat, b.toNat_lt⟩

/-- The five branches leave no first byte over. -/
theorem parseHpackField_cons (b : UInt8) (s : Bytes) :
    parseHpackField (b :: s) =
      if b.toNat / 2 ^ 7 = 1 then (do return .indexed (← HPACKInt.parse 7) : Reader _ _ _) (b :: s)
      else if b.toNat / 2 ^ 6 = 1 then parseWithProperty .cached (b :: s)
      else if b.toNat / 2 ^ 4 = 0 then parseWithProperty .uncached (b :: s)
      else if b.toNat / 2 ^ 4 = 1 then parseWithProperty .verbatim (b :: s)
      else (do return .dynamicTableSizeUpdate (← HPACKInt.parse 5) : Reader _ _ _) (b :: s) := by
  obtain ⟨h₁, h₂, h₃, h₄, h₅⟩ := masks b
  have hb := b.toNat_lt
  unfold parseHpackField
  rw [bind_apply, peek_cons, ok_bind]
  simp only [h₁, h₂, h₃, h₄, h₅]
  by_cases c₁ : b.toNat / 2 ^ 7 = 1
  · rw [if_pos c₁, if_pos c₁]
  rw [if_neg c₁, if_neg c₁]
  by_cases c₂ : b.toNat / 2 ^ 6 = 1
  · rw [if_pos c₂, if_pos c₂]
  rw [if_neg c₂, if_neg c₂]
  by_cases c₃ : b.toNat / 2 ^ 4 = 0
  · rw [if_pos c₃, if_pos c₃]
  rw [if_neg c₃, if_neg c₃]
  by_cases c₄ : b.toNat / 2 ^ 4 = 1
  · rw [if_pos c₄, if_pos c₄]
  rw [if_neg c₄, if_neg c₄, if_pos (by omega)]

theorem parseHpackField_nil : parseHpackField [] = .error .stopIteration := rfl

namespace HPACKField

def prop? : HPACKField → Option HPACKHeaderFieldProperty
  | partialIndexed prop _ _ | literal _ _ prop => some prop
  | _ => none

/-- The branch that returns fields of this kind. -/
def branch : HPACKField → Reader UInt8 PyError HPACKField
  | indexed _ => do return indexed (← HPACKInt.parse 7)
  | partialIndexed prop _ _ | literal _ _ prop => parseWithProperty prop
  | dynamicTableSizeUpdate _ => do return dynamicTableSizeUpdate (← HPACKInt.parse 5)

/-- The first byte of `s` has the marker bits of the field. -/
def Marks (f : HPACKField) (s : Bytes) : Prop :=
  ∃ b s', s = b :: s' ∧ b.toNat / 2 ^ f.indexLen = f.preprefixBits

/-- An integer and strings that fit the field are read off `s` down to `t`. -/
def ReadFrom (f : HPACKField) (s t : Bytes) : Prop :=
  ∃ n s', parseHpackInt f.indexLen s = .ok (n, s') ∧ f.number = n ∧ f.paddingAmount = 0 ∧
    f.indexFits ∧ ReadsStrings s' f.strings t

theorem parse_of_marks {f : HPACKField} {s : Bytes} (h : f.Marks s) :
    parseHpackField s = f.branch s := by
  obtain ⟨b, s', rfl, hb⟩ := h
  have hlt := b.toNat_lt
  rw [parseHpackField_cons]
  cases f with
  | indexed index =>
      have hb : b.toNat / 2 ^ 7 = 1 := hb
      rw [if_pos hb]
      rfl
  | dynamicTableSizeUpdate size =>
      have hb : b.toNat / 2 ^ 5 = 1 := hb
      rw [if_neg (by omega), if_neg (by omega), if_neg (by omega), if_neg (by omega)]
      rfl
  | partialIndexed prop _ _ | literal _ _ prop =>
      cases prop with
      | cached =>
          have hb : b.toNat / 2 ^ 6 = 1 := hb
          rw [if_neg (by omega), if_pos hb]
          rfl
      | uncached =>
          have hb : b.toNat / 2 ^ 4 = 0 := hb
          rw [if_neg (by omega), if_neg (by omega), if_pos hb]
          rfl
      | verbatim =>
          have hb : b.toNat / 2 ^ 4 = 1 := hb
          rw [if_neg (by omega), if_neg (by omega), if_neg (by omega), if_pos hb]
          rfl

/-- The integer is parsed without padding. -/
theorem parse_int_eq_ok {n : Nat} {i : HPACKInt n} {s t : Bytes} :
    HPACKInt.parse n s = .ok (i, t) ↔
      ∃ v, parseHpackInt n s = .ok (v, t) ∧ i.val = v ∧ i.paddingAmount = 0 := by
  unfold HPACKInt.parse
  rw [return_ok]
  constructor
  · intro ⟨v, hv, hi⟩
    exact ⟨v, hv, hi ▸ rfl, hi ▸ rfl⟩
  · intro ⟨v, hv, hval, hpad⟩
    exact ⟨v, hv, by rw [← hval, ← hpad]⟩

theorem parseWithProperty_eq_ok {prop : HPACKHeaderFieldProperty} {f : HPACKField} {s t : Bytes} :
    parseWithProperty prop s = .ok (f, t) ↔ f.prop? = some prop ∧ f.ReadFrom s t := by
  unfold parseWithProperty
  constructor
  · intro h
    obtain ⟨index, s₁, hindex, h⟩ := bind_ok.mp h
    obtain ⟨n, hn, hval, hpad⟩ := parse_int_eq_ok.mp hindex
    by_cases h0 : index.val = 0
    · rw [if_pos h0] at h
      obtain ⟨key, s₂, hkey, h⟩ := bind_ok.mp h
      obtain ⟨val, s₃, hv, h⟩ := bind_ok.mp h
      simp only [pure_apply, Except.ok.injEq, Prod.mk.injEq] at h
      obtain ⟨rfl, rfl⟩ := h
      exact ⟨rfl, n, s₁, hn, h0.symm.trans hval, rfl, trivial, s₂, hkey, s₃, hv, rfl⟩
    · rw [if_neg h0] at h
      obtain ⟨val, s₃, hv, h⟩ := bind_ok.mp h
      simp only [pure_apply, Except.ok.injEq, Prod.mk.injEq] at h
      obtain ⟨rfl, rfl⟩ := h
      exact ⟨rfl, n, s₁, hn, hval, hpad, h0, s₃, hv, rfl⟩
  · intro ⟨hprop, n, s₁, hn, hnum, hpad, hfits, hstr⟩
    cases f with
    | indexed _ | dynamicTableSizeUpdate _ => cases hprop
    | partialIndexed prop' index val =>
        cases hprop
        obtain ⟨s₂, hval, rfl⟩ := hstr
        refine bind_ok.mpr ⟨index, s₁, parse_int_eq_ok.mpr ⟨n, hn, hnum, hpad⟩, ?_⟩
        rw [if_neg hfits]
        exact bind_ok.mpr ⟨val, s₂, hval, rfl⟩
    | literal key val prop' =>
        cases hprop
        obtain ⟨s₂, hkey, s₃, hval, rfl⟩ := hstr
        refine bind_ok.mpr ⟨⟨n, 0⟩, s₁, parse_int_eq_ok.mpr ⟨n, hn, rfl, rfl⟩, ?_⟩
        have h0 : (n : Int) = 0 := hnum.symm
        rw [if_pos h0]
        exact bind_ok.mpr ⟨key, s₂, hkey, bind_ok.mpr ⟨val, s₃, hval, rfl⟩⟩

theorem branch_eq_ok {f : HPACKField} {s t : Bytes} : f.branch s = .ok (f, t) ↔ f.ReadFrom s t := by
  cases f with
  | indexed i | dynamicTableSizeUpdate i =>
      simp only [branch, return_ok, parse_int_eq_ok]
      constructor
      · intro ⟨j, ⟨n, hn, hval, hpad⟩, hj⟩
        cases hj
        exact ⟨n, t, hn, hval, hpad, trivial, rfl⟩
      · intro ⟨n, s', hn, hval, hpad, _, hs'⟩
        cases hs'
        exact ⟨i, ⟨n, hn, hval, hpad⟩, rfl⟩
  | partialIndexed prop _ _ | literal _ _ prop =>
      rw [branch, parseWithProperty_eq_ok]
      exact and_iff_right rfl

/-- A field with a property that is parsed has the marker bits of the property. -/
theorem marks_of_property {prop : HPACKHeaderFieldProperty} {f : HPACKField} {b : UInt8}
    {s t : Bytes} (h : parseWithProperty prop (b :: s) = .ok (f, t))
    (hb : b.toNat / 2 ^ prop.indexLen = prop.preprefixBits) : f.Marks (b :: s) := by
  have hprop := (parseWithProperty_eq_ok.mp h).1
  cases f with
  | indexed _ | dynamicTableSizeUpdate _ => cases hprop
  | partialIndexed _ _ _ | literal _ _ _ =>
      cases hprop
      exact ⟨b, s, rfl, hb⟩

theorem marks_of_parse {f : HPACKField} {s t : Bytes} (h : parseHpackField s = .ok (f, t)) :
    f.Marks s := by
  cases s with
  | nil => cases h
  | cons b s =>
      have hlt := b.toNat_lt
      rw [parseHpackField_cons] at h
      by_cases c₁ : b.toNat / 2 ^ 7 = 1
      · rw [if_pos c₁] at h
        obtain ⟨i, -, rfl⟩ := return_ok.mp h
        exact ⟨b, s, rfl, c₁⟩
      rw [if_neg c₁] at h
      by_cases c₂ : b.toNat / 2 ^ 6 = 1
      · rw [if_pos c₂] at h
        exact marks_of_property h c₂
      rw [if_neg c₂] at h
      by_cases c₃ : b.toNat / 2 ^ 4 = 0
      · rw [if_pos c₃] at h
        exact marks_of_property h c₃
      rw [if_neg c₃] at h
      by_cases c₄ : b.toNat / 2 ^ 4 = 1
      · rw [if_pos c₄] at h
        exact marks_of_property h c₄
      rw [if_neg c₄] at h
      obtain ⟨i, -, rfl⟩ := return_ok.mp h
      have c₅ : b.toNat / 2 ^ 5 = 1 := by omega
      exact ⟨b, s, rfl, c₅⟩

/-- **What a field is parsed from**: the marker bits of its kind, an integer and its
strings. -/
theorem parseHpackField_eq_ok {f : HPACKField} {s t : Bytes} :
    parseHpackField s = .ok (f, t) ↔ f.Marks s ∧ f.ReadFrom s t := by
  constructor
  · intro h
    have hm := marks_of_parse h
    rw [parse_of_marks hm, branch_eq_ok] at h
    exact ⟨hm, h⟩
  · intro ⟨hm, h⟩
    rw [parse_of_marks hm, branch_eq_ok]
    exact h

/-- Every field takes at least one byte. -/
theorem consumes_parseHpackField : Consumes 1 parseHpackField := by
  intro s f t h
  obtain ⟨-, n, s', hn, -, -, -, hstr⟩ := parseHpackField_eq_ok.mp h
  have hint := HPACKInt.consumes_parseHpackInt f.indexLen_bounds.1 f.indexLen_bounds.2.1 s n s' hn
  have := length_le_of_readsStrings hstr
  omega

end HPACKField

/-! ### Blocks -/

/-- `parse_field_block` -/
def parseFieldBlock (data : Bytes) : Except PyError (List HPACKField) :=
  readAll .stopIteration parseHpackField HPACKField.consumes_parseHpackField data

/-- The concatenation of what `to_bytes` returns for each field. -/
def joinFields (fields : List HPACKField) : Except PyError Bytes := do
  return (← fields.mapM HPACKField.toBytes).flatten

end HttpGarden.Hpack
