import HttpGarden.Hpack.Field
import HttpGarden.Hpack.HuffmanPadding

/-!
# HttpGarden.Hpack.Failures

**Which exceptions leave `parse_field_block`.** The end of a block and an input that is cut off
both show as an iterator that has run out. The first is the `StopIteration` that ends the loop; the
second should be an `HPACKError`, wherever in a field it happens.

So it is, and the loop takes nothing but the end of the input for the end of the block
(`parseHpackField_stops_iff`). What can leave besides is the `ValueError` of `itertools.islice`,
which takes the length of a string as it stands in the input: `blockOutcome_iff`.
-/

namespace HttpGarden.Hpack

open Lib Lib.Reader

/-- An exception that leaves is an `HPACKError`. -/
def RaisesHPACKError {α : Type} (x : Except PyError α) : Prop := OnlyRaises IsHPACKError x

theorem raisesHPACKError_error (text : String) {α : Type} :
    RaisesHPACKError (.error (.hpackError text) : Except PyError α) :=
  onlyRaises_error.mpr ⟨text, rfl⟩

/-! ### Integers -/

theorem parseContinuation_raises (result shift : Nat) (s : Bytes) :
    RaisesHPACKError (parseContinuation result shift s) := by
  induction s generalizing result shift with
  | nil => exact raisesHPACKError_error _
  | cons b s ih =>
      rw [parseContinuation]
      split
      · exact onlyRaises_ok _
      · exact ih _ _

theorem parseHpackInt_raises {n : Nat} (h1 : 1 ≤ n) (h8 : n ≤ 8) (s : Bytes) :
    RaisesHPACKError (parseHpackInt n s) := by
  cases s with
  | nil =>
      rw [HPACKInt.parseHpackInt_nil h1 h8]
      exact raisesHPACKError_error _
  | cons b s =>
      rw [HPACKInt.parseHpackInt_cons h1 h8]
      split
      · exact parseContinuation_raises _ _ s
      · exact onlyRaises_ok _

/-- The classes of integers add nothing. -/
theorem parse_int_raises {n : Nat} (h1 : 1 ≤ n) (h8 : n ≤ 8) (s : Bytes) :
    RaisesHPACKError (HPACKInt.parse n s) :=
  (parseHpackInt_raises h1 h8 s).bind fun _ => onlyRaises_ok _

/-! ### Strings -/

/-- The length at the front is larger than `itertools.islice` takes. -/
def LargeString (s : Bytes) : Prop := ∃ n t, parseHpackInt 7 s = .ok (n, t) ∧ sysMaxsize < n

theorem not_largeString_nil : ¬ LargeString [] := by
  intro h
  obtain ⟨n, t, hn, -⟩ := h
  rw [HPACKInt.parseHpackInt_nil (by decide) (by decide)] at hn
  cases hn

/-- Once the length is accepted, what can go wrong with a string is an `HPACKError`. -/
theorem parse_rest_raises (n : Nat) (compressed : Bool) (raw t : Bytes) :
    RaisesHPACKError ((do
      if raw.length ≠ n then
        throw (.hpackError "Unexpected end of HPACKString data")
      if !compressed then return ⟨raw, false, none, none⟩
      let st ← check (decodeBits (raw.flatMap toBits) .init)
      if !(st.codeword.all id) && st.codeword.length ≤ 7 then
        throw (.hpackError "Invalid EOS padding")
      return ⟨st.result, compressed, some ⟨st.result.length, 0⟩, none⟩ :
        Reader UInt8 PyError HPACKString) t) := by
  by_cases hlen : raw.length = n
  · rw [if_neg (not_not.mpr hlen)]
    cases compressed with
    | false => exact onlyRaises_ok _
    | true =>
        simp only [Bool.not_true, Bool.false_eq_true, if_false, bind_apply]
        cases hst : decodeBits (raw.flatMap toBits) .init with
        | error e =>
            rw [check_error, error_bind]
            exact onlyRaises_error.mpr (decodeBits_raises decodes_init _ e hst)
        | ok st =>
            rw [check_ok, ok_bind]
            split
            · exact raisesHPACKError_error _
            · exact onlyRaises_ok _
  · rw [if_pos hlen]
    exact raisesHPACKError_error _

theorem parse_string_of_large {s : Bytes} (h : LargeString s) :
    ∃ text, HPACKString.parse s = .error (.valueError text) := by
  cases s with
  | nil => exact absurd h not_largeString_nil
  | cons b s =>
      obtain ⟨n, t, hn, hmax⟩ := h
      rw [HPACKString.parse_cons, bind_apply, hn, ok_bind, bind_apply, islice, if_pos hmax]
      exact ⟨_, rfl⟩

theorem parse_string_raises_iff (s : Bytes) :
    RaisesHPACKError (HPACKString.parse s) ↔ ¬ LargeString s := by
  refine ⟨fun h hlarge => ?_, fun h => ?_⟩
  · obtain ⟨text, hparse⟩ := parse_string_of_large hlarge
    rw [hparse] at h
    obtain ⟨text', htext⟩ := onlyRaises_error.mp h
    cases htext
  · cases s with
    | nil => exact raisesHPACKError_error _
    | cons b s =>
        rw [HPACKString.parse_cons, bind_apply]
        refine onlyRaises_bind.mpr ⟨parseHpackInt_raises (by decide) (by decide) _, fun m hm => ?_⟩
        have hmax : m.1 ≤ sysMaxsize := Nat.not_lt.mp fun hmax => h ⟨m.1, m.2, hm, hmax⟩
        rw [bind_apply, islice_apply hmax, ok_bind]
        exact parse_rest_raises _ _ _ _

/-! ### Fields -/

/-- Behind the index of a field with the property stands a string that is too large: the first one,
or the value of a literal. -/
def LargeStringAfter (prop : HPACKHeaderFieldProperty) (s : Bytes) : Prop :=
  ∃ index t, HPACKInt.parse prop.indexLen s = .ok (index, t) ∧
    (LargeString t ∨
      index.val = 0 ∧ ∃ key t', HPACKString.parse t = .ok (key, t') ∧ LargeString t')

/-- The first byte has the marker bits of the property. -/
def MarksProperty (prop : HPACKHeaderFieldProperty) (b : UInt8) : Prop :=
  b.toNat / 2 ^ prop.indexLen = prop.preprefixBits

theorem MarksProperty.unique {prop prop' : HPACKHeaderFieldProperty} {b : UInt8}
    (h : MarksProperty prop b) (h' : MarksProperty prop' b) : prop = prop' := by
  cases prop <;> cases prop' <;>
    simp only [MarksProperty, HPACKHeaderFieldProperty.indexLen,
      HPACKHeaderFieldProperty.preprefixBits, reduceCtorEq] at h h' ⊢ <;> omega

/-- The field at the front has such a string. -/
def LargeStringField (s : Bytes) : Prop :=
  ∃ prop b s', s = b :: s' ∧ MarksProperty prop b ∧ LargeStringAfter prop s

/-- A value is all that is left of a field. -/
theorem parse_value_raises_iff (f : HPACKString → HPACKField) (s : Bytes) :
    RaisesHPACKError ((do return f (← HPACKString.parse) : Reader _ _ _) s) ↔ ¬ LargeString s := by
  rw [← parse_string_raises_iff, bind_apply]
  exact onlyRaises_bind.trans (and_iff_left fun _ _ => onlyRaises_ok _)

/-- A name and a value are. -/
theorem parse_literal_raises_iff (prop : HPACKHeaderFieldProperty) (s : Bytes) :
    RaisesHPACKError ((do
      return HPACKField.literal (← HPACKString.parse) (← HPACKString.parse) prop :
        Reader _ _ _) s) ↔
      ¬ (LargeString s ∨ ∃ key t, HPACKString.parse s = .ok (key, t) ∧ LargeString t) := by
  rw [not_or, ← parse_string_raises_iff, bind_apply]
  refine onlyRaises_bind.trans (and_congr_right fun _ => ⟨fun h hlarge => ?_, fun h m hm => ?_⟩)
  · obtain ⟨key, t, hkey, hlarge⟩ := hlarge
    exact (parse_value_raises_iff _ t).mp (h (key, t) hkey) hlarge
  · exact (parse_value_raises_iff _ m.2).mpr fun hlarge => h ⟨m.1, m.2, hm, hlarge⟩

theorem indexLen_bounds (prop : HPACKHeaderFieldProperty) :
    1 ≤ prop.indexLen ∧ prop.indexLen ≤ 8 := by
  cases prop <;> decide

theorem parseWithProperty_raises_iff (prop : HPACKHeaderFieldProperty) (s : Bytes) :
    RaisesHPACKError (parseWithProperty prop s) ↔ ¬ LargeStringAfter prop s := by
  obtain ⟨h1, h8⟩ := indexLen_bounds prop
  unfold parseWithProperty
  rw [bind_apply]
  refine onlyRaises_bind.trans
    ((and_iff_right (parse_int_raises h1 h8 s)).trans ⟨fun h hlarge => ?_, fun h m hm => ?_⟩)
  · obtain ⟨index, t, hindex, hlarge⟩ := hlarge
    have hafter := h (index, t) hindex
    by_cases h0 : index.val = 0
    · simp only [h0, if_true, true_and] at hafter hlarge
      exact (parse_literal_raises_iff prop t).mp hafter hlarge
    · simp only [h0, if_false, false_and, or_false] at hafter hlarge
      exact (parse_value_raises_iff _ t).mp hafter hlarge
  · obtain ⟨index, t⟩ := m
    have hafter := fun hlarge => h ⟨index, t, hm, hlarge⟩
    by_cases h0 : index.val = 0
    · simp only [h0, if_true, true_and] at hafter ⊢
      exact (parse_literal_raises_iff prop t).mpr hafter
    · simp only [h0, if_false, false_and, or_false] at hafter ⊢
      exact (parse_value_raises_iff _ t).mpr hafter

theorem parseHpackField_of_property {prop : HPACKHeaderFieldProperty} {b : UInt8}
    (h : MarksProperty prop b) (s : Bytes) :
    parseHpackField (b :: s) = parseWithProperty prop (b :: s) :=
  HPACKField.parse_of_marks (f := .literal ⟨[], false, none, none⟩ ⟨[], false, none, none⟩ prop)
    ⟨b, s, rfl, h⟩

/-- The other fields are an integer. -/
theorem parseHpackField_raises_of_int {b : UInt8} (h : ∀ prop, ¬ MarksProperty prop b)
    (s : Bytes) : RaisesHPACKError (parseHpackField (b :: s)) := by
  have hint {n : Nat} (h1 : 1 ≤ n) (h8 : n ≤ 8) (f : HPACKInt n → HPACKField) :
      RaisesHPACKError ((do return f (← HPACKInt.parse n) : Reader _ _ _) (b :: s)) :=
    (parse_int_raises h1 h8 _).bind fun _ => onlyRaises_ok _
  have hcached := h .cached
  have huncached := h .uncached
  have hverbatim := h .verbatim
  simp only [MarksProperty, HPACKHeaderFieldProperty.indexLen,
    HPACKHeaderFieldProperty.preprefixBits] at hcached huncached hverbatim
  rw [parseHpackField_cons, if_neg hcached, if_neg huncached, if_neg hverbatim]
  split <;> exact hint (by decide) (by decide) _

theorem parseHpackField_raises_iff {s : Bytes} (hs : s ≠ []) :
    RaisesHPACKError (parseHpackField s) ↔ ¬ LargeStringField s := by
  obtain ⟨b, t, rfl⟩ := List.exists_cons_of_ne_nil hs
  by_cases hb : ∃ prop, MarksProperty prop b
  · obtain ⟨prop, hprop⟩ := hb
    rw [parseHpackField_of_property hprop, parseWithProperty_raises_iff, not_iff_not]
    refine ⟨fun h => ⟨prop, b, t, rfl, hprop, h⟩, fun h => ?_⟩
    obtain ⟨prop', b', t', heq, hprop', h⟩ := h
    cases heq
    rwa [hprop.unique hprop']
  · refine iff_of_true (parseHpackField_raises_of_int (not_exists.mp hb) t) fun h => ?_
    obtain ⟨prop, b', t', heq, hprop, -⟩ := h
    cases heq
    exact hb ⟨prop, hprop⟩

/-! ### The end of a block -/

/-- Anything but the signal for the end of the input. -/
def NeverStops {α : Type} (x : Except PyError α) : Prop := OnlyRaises (· ≠ .stopIteration) x

theorem RaisesHPACKError.neverStops {α : Type} {x : Except PyError α} (h : RaisesHPACKError x) :
    NeverStops x := by
  refine h.mono fun e he hstop => ?_
  obtain ⟨text, htext⟩ := he
  rw [hstop] at htext
  cases htext

theorem parse_string_neverStops (s : Bytes) : NeverStops (HPACKString.parse s) := by
  by_cases h : LargeString s
  · obtain ⟨text, hparse⟩ := parse_string_of_large h
    rw [hparse]
    exact onlyRaises_error.mpr PyError.noConfusion
  · exact ((parse_string_raises_iff s).mpr h).neverStops

theorem parseWithProperty_neverStops (prop : HPACKHeaderFieldProperty) (s : Bytes) :
    NeverStops (parseWithProperty prop s) := by
  obtain ⟨h1, h8⟩ := indexLen_bounds prop
  unfold parseWithProperty
  refine OnlyRaises.bind (parse_int_raises h1 h8 s).neverStops fun m => ?_
  by_cases h0 : m.1.val = 0
  · simp only [h0, if_true]
    exact (parse_string_neverStops _).bind fun key =>
      (parse_string_neverStops _).bind fun _ => onlyRaises_ok _
  · simp only [h0, if_false]
    exact (parse_string_neverStops _).bind fun _ => onlyRaises_ok _

/-- **Only the end of the input** is taken for the end of a block. -/
theorem parseHpackField_stops_iff (s : Bytes) :
    parseHpackField s = .error .stopIteration ↔ s = [] := by
  refine ⟨fun h => ?_, fun h => h ▸ parseHpackField_nil⟩
  by_contra hs
  obtain ⟨b, t, rfl⟩ := List.exists_cons_of_ne_nil hs
  suffices hnever : NeverStops (parseHpackField (b :: t)) from hnever _ h rfl
  by_cases hb : ∃ prop, MarksProperty prop b
  · obtain ⟨prop, hprop⟩ := hb
    rw [parseHpackField_of_property hprop]
    exact parseWithProperty_neverStops prop _
  · exact (parseHpackField_raises_of_int (not_exists.mp hb) t).neverStops

/-! ### Blocks -/

/-- The fields are parsed off `s`, one after the other, down to `t`. -/
inductive ParsedDown : Bytes → List HPACKField → Bytes → Prop
  | nil {s : Bytes} : ParsedDown s [] s
  | cons {s s' t : Bytes} {f : HPACKField} {fields : List HPACKField}
      (h : parseHpackField s = .ok (f, s')) (hs : ParsedDown s' fields t) :
      ParsedDown s (f :: fields) t

/-- Fields are returned for the whole input, or an `HPACKError` is raised. -/
def BlockOutcome (data : Bytes) : Prop :=
  match parseFieldBlock data with
  | .ok fields => ParsedDown data fields []
  | .error e => IsHPACKError e

/-- Behind some fields that are parsed stands one with a string that is too large. -/
inductive ReachesLargeString : Bytes → Prop
  | here {s : Bytes} (h : LargeStringField s) : ReachesLargeString s
  | later {s s' : Bytes} {f : HPACKField} (h : parseHpackField s = .ok (f, s'))
      (hlater : ReachesLargeString s') : ReachesLargeString s

theorem reachesLargeString_of_error {s : Bytes} {e : PyError} (h : parseHpackField s = .error e) :
    ReachesLargeString s ↔ LargeStringField s := by
  refine ⟨fun hreach => ?_, .here⟩
  cases hreach with
  | here hlarge => exact hlarge
  | later h' => rw [h] at h'; cases h'

theorem reachesLargeString_of_ok {s s' : Bytes} {f : HPACKField}
    (h : parseHpackField s = .ok (f, s')) : ReachesLargeString s ↔ ReachesLargeString s' := by
  refine ⟨fun hreach => ?_, .later h⟩
  cases hreach with
  | here hlarge =>
      have hs : s ≠ [] := fun hs => by rw [hs] at h; cases h
      refine absurd hlarge ((parseHpackField_raises_iff hs).mp ?_)
      rw [h]
      exact onlyRaises_ok _
  | later h' hlater =>
      rw [h] at h'
      cases h'
      exact hlater

theorem blockOutcome_of_error {s : Bytes} {e : PyError} (h : parseHpackField s = .error e) :
    BlockOutcome s ↔ s = [] ∨ IsHPACKError e := by
  by_cases hs : s = []
  · have hblock : parseFieldBlock s = .ok [] := by
      rw [hs]
      exact readAll_of_error parseHpackField_nil
    rw [BlockOutcome, hblock, hs]
    exact iff_of_true ParsedDown.nil (.inl rfl)
  · have hstop : e ≠ .stopIteration := fun hstop => hs ((parseHpackField_stops_iff s).mp (hstop ▸ h))
    rw [BlockOutcome, parseFieldBlock, readAll_of_error h, if_neg hstop]
    exact (or_iff_right hs).symm

theorem blockOutcome_of_ok {s s' : Bytes} {f : HPACKField} (h : parseHpackField s = .ok (f, s')) :
    BlockOutcome s ↔ BlockOutcome s' := by
  have hblock : parseFieldBlock s = (parseFieldBlock s').map (f :: ·) := readAll_of_ok h
  unfold BlockOutcome
  rw [hblock]
  cases parseFieldBlock s' with
  | error e => exact Iff.rfl
  | ok fields =>
      refine ⟨fun hdown => ?_, .cons h⟩
      cases hdown with
      | cons h' hs =>
          rw [h] at h'
          cases h'
          exact hs

/-- **A block** is parsed to its end or refused with an `HPACKError`, unless a string in it is too
large for `itertools.islice`. -/
theorem blockOutcome_iff (data : Bytes) : BlockOutcome data ↔ ¬ ReachesLargeString data := by
  induction hn : data.length using Nat.strong_induction_on generalizing data with
  | _ n ih =>
      cases hparse : parseHpackField data with
      | ok m =>
          obtain ⟨f, rest⟩ := m
          have hlt := HPACKField.consumes_parseHpackField.lt hparse
          rw [blockOutcome_of_ok hparse, reachesLargeString_of_ok hparse]
          exact ih rest.length (hn ▸ hlt) rest rfl
      | error e =>
          rw [blockOutcome_of_error hparse, reachesLargeString_of_error hparse]
          by_cases hs : data = []
          · refine iff_of_true (.inl hs) fun h => ?_
            obtain ⟨prop, b, t, hcons, -⟩ := h
            rw [hs] at hcons
            cases hcons
          · rw [← parseHpackField_raises_iff hs, hparse, or_iff_right hs]
            exact onlyRaises_error.symm

/-- A literal field whose name has the length `2 ^ 63 + 127`. -/
def hugeName : Bytes := [0x00, 0x7F, 0x80, 0x80, 0x80, 0x80, 0x80, 0x80, 0x80, 0x80, 0x80, 0x01]

theorem not_blockOutcome : ¬ ∀ data : Bytes, BlockOutcome data := by
  intro h
  have hparse : parseHpackField hugeName = .error (.valueError
      "Stop argument for islice() must be None or an integer: 0 <= x <= sys.maxsize.") := by
    decide
  rcases (blockOutcome_of_error hparse).mp (h hugeName) with hnil | ⟨text, htext⟩
  · cases hnil
  · cases htext

end HttpGarden.Hpack
