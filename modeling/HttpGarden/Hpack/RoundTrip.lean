import HttpGarden.Hpack.Field

/-!
# HttpGarden.Hpack.RoundTrip

**Field blocks round-trip** (`parseFieldBlock_joinFields`): whatever list of fields
is written, a list of the same fields is read back.

`wire` is what is written for a field. A string is written with the length it
records, if it records one; `reads_wire` asks that this is the length of what
follows.
-/

namespace HttpGarden.Hpack

open Lib Lib.Reader

/-! ### What is written -/

namespace HPACKString

/-- A string with default padding, and no padding in its length either. -/
def Plain (x : HPACKString) : Prop :=
  x.padding = none ∧ ∀ i, x.length = some i → 0 ≤ i.val ∧ i.paddingAmount = 0

/-- How many bytes the data has when it is written. -/
def encodedLength (x : HPACKString) : Nat := (encodeData x.data x.compressed).length

/-- The number that is written in front of them. -/
def writtenLength (x : HPACKString) : Nat :=
  match x.length with
  | none => x.encodedLength
  | some length => length.val.toNat

def wire (x : HPACKString) : Bytes := encode x.data x.compressed x.writtenLength

/-- What is parsed where a string of the same data was written. -/
def reparsed (x : HPACKString) : HPACKString := parsed x.data x.compressed

theorem Plain.toBytes_eq {x : HPACKString} (h : x.Plain) : x.toBytes = .ok x.wire := by
  obtain ⟨hpad, hlen⟩ := h
  refine HPACKString.toBytes_eq hpad ?_
  unfold writtenLength encodedLength
  cases hl : x.length with
  | none => rfl
  | some i =>
      obtain ⟨h0, hi⟩ := hlen i hl
      have hval : (i.val.toNat : Int) = i.val := Int.toNat_of_nonneg h0
      simp only [Option.getD_some, hval, ← hi]

theorem reads_wire {x : HPACKString} (hlen : x.writtenLength = x.encodedLength)
    (hmax : x.encodedLength ≤ sysMaxsize) : Reads parse x.wire x.reparsed := by
  rw [wire, hlen]
  exact reads_encode hmax

end HPACKString

namespace HPACKField

/-- A field whose integers are non-negative numbers without zero padding. -/
def Plain (f : HPACKField) : Prop :=
  0 ≤ f.number ∧ f.paddingAmount = 0 ∧ f.indexFits ∧ ∀ x ∈ f.strings, x.Plain

def wire (f : HPACKField) : Bytes :=
  HPACKInt.encode f.indexLen f.preprefixBits f.number.toNat ++ f.strings.flatMap HPACKString.wire

/-- What is parsed where the same field was written. -/
def reparsed (f : HPACKField) : HPACKField := f.mapStrings HPACKString.reparsed

theorem literalByte_eq (prop : HPACKHeaderFieldProperty) :
    [prop.literalByte] = HPACKInt.encode prop.indexLen prop.preprefixBits 0 := by
  cases prop <;> rfl

theorem Plain.toBytes_eq {f : HPACKField} (h : f.Plain) : f.toBytes = .ok f.wire := by
  obtain ⟨h0, hpad, -, hstr⟩ := h
  obtain ⟨-, h8, hp⟩ := f.indexLen_bounds
  cases f with
  | indexed i | dynamicTableSizeUpdate i =>
      rw [wire, strings, List.flatMap_nil, List.append_nil]
      exact HPACKInt.toBytes_eq h8 hp h0 hpad
  | partialIndexed prop index val =>
      have hindex : index.toBytes prop.preprefixBits = .ok _ :=
        HPACKInt.toBytes_eq h8 hp h0 hpad
      have hval := (hstr val (List.mem_singleton_self val)).toBytes_eq
      rw [wire, strings, List.flatMap_singleton, toBytes, hindex, hval]
      rfl
  | literal key val prop =>
      have hkey := (hstr key (by simp [strings])).toBytes_eq
      have hval := (hstr val (by simp [strings])).toBytes_eq
      have hint : HPACKInt.encode prop.indexLen prop.preprefixBits 0 = [prop.literalByte] :=
        (literalByte_eq prop).symm
      show toBytes _ = .ok (HPACKInt.encode prop.indexLen prop.preprefixBits 0 ++ _)
      rw [hint, strings, List.flatMap_cons, List.flatMap_singleton, toBytes, hkey, hval]
      rfl

theorem reparsed_strings (f : HPACKField) :
    f.reparsed.strings = f.strings.map HPACKString.reparsed := by
  cases f <;> rfl

/-- Only the strings are replaced. -/
theorem reparsed_frame (f : HPACKField) :
    f.reparsed.indexLen = f.indexLen ∧ f.reparsed.preprefixBits = f.preprefixBits ∧
      f.reparsed.number = f.number ∧ f.reparsed.paddingAmount = f.paddingAmount ∧
      (f.reparsed.indexFits ↔ f.indexFits) := by
  cases f <;> exact ⟨rfl, rfl, rfl, rfl, Iff.rfl⟩

theorem readsStrings_wire {xs : List HPACKString} (h : ∀ x ∈ xs,
    x.writtenLength = x.encodedLength ∧ x.encodedLength ≤ sysMaxsize) (s : Bytes) :
    ReadsStrings (xs.flatMap HPACKString.wire ++ s) (xs.map HPACKString.reparsed) s := by
  induction xs with
  | nil => rfl
  | cons x xs ih =>
      obtain ⟨hlen, hmax⟩ := h x List.mem_cons_self
      rw [List.flatMap_cons, List.append_assoc]
      exact ⟨_, HPACKString.reads_wire hlen hmax _, ih fun y hy => h y (List.mem_cons_of_mem x hy)⟩

/-- **A field is read back** if its strings record the lengths that they have. -/
theorem reads_wire {f : HPACKField} (hf : f.Plain) (h : ∀ x ∈ f.strings,
    x.writtenLength = x.encodedLength ∧ x.encodedLength ≤ sysMaxsize) :
    Reads parseHpackField f.wire f.reparsed := by
  intro s
  obtain ⟨h0, hpad, hfits, -⟩ := hf
  obtain ⟨h1, h8, hp⟩ := f.indexLen_bounds
  obtain ⟨e₁, e₂, e₃, e₄, e₅⟩ := f.reparsed_frame
  obtain ⟨b, e, he, hb⟩ := HPACKInt.encode_eq_cons h8 hp f.number.toNat
  rw [parseHpackField_eq_ok, wire, List.append_assoc]
  constructor
  · exact ⟨b, _, by rw [he, List.cons_append], by rw [e₁, e₂, hb]⟩
  · refine ⟨f.number.toNat, f.strings.flatMap HPACKString.wire ++ s, ?_, ?_, e₄.trans hpad, e₅.mpr hfits, ?_⟩
    · rw [e₁]
      exact HPACKInt.reads_encode h1 h8 hp _ _
    · rw [e₃, Int.toNat_of_nonneg h0]
    · rw [reparsed_strings]
      exact readsStrings_wire h s

end HPACKField

/-! ### Blocks -/

theorem joinFields_eq {fs : List HPACKField} (h : ∀ f ∈ fs, f.Plain) :
    joinFields fs = .ok (fs.flatMap HPACKField.wire) := by
  have hmap : fs.mapM HPACKField.toBytes = .ok (fs.map HPACKField.wire) := by
    rw [mapM_eq_ok, List.forall₂_map_right_iff, List.forall₂_same]
    exact fun f hf => (h f hf).toBytes_eq
  rw [joinFields, hmap]
  rfl

theorem parseFieldBlock_wire {fs : List HPACKField} (hf : ∀ f ∈ fs, f.Plain)
    (h : ∀ f ∈ fs, ∀ x ∈ f.strings,
      x.writtenLength = x.encodedLength ∧ x.encodedLength ≤ sysMaxsize) :
    parseFieldBlock (fs.flatMap HPACKField.wire) = .ok (fs.map HPACKField.reparsed) :=
  readAll_flatMap (fun f hmem => HPACKField.reads_wire (hf f hmem) (h f hmem)) parseHpackField_nil

/-- A string is part of what is written. -/
theorem encodedLength_le_length {fs : List HPACKField} {f : HPACKField} {x : HPACKString}
    (hf : f ∈ fs) (hx : x ∈ f.strings) :
    x.encodedLength ≤ (fs.flatMap HPACKField.wire).length := by
  have hw : x.encodedLength ≤ x.wire.length := by
    rw [HPACKString.wire, HPACKString.encode, List.length_append]
    exact Nat.le_add_left _ _
  have hstr := (List.sublist_flatten_of_mem (List.mem_map_of_mem (f := HPACKString.wire) hx)).length_le
  have hfield := (List.sublist_flatten_of_mem (List.mem_map_of_mem (f := HPACKField.wire) hf)).length_le
  rw [← List.flatMap_def] at hstr hfield
  rw [HPACKField.wire, List.length_append] at hfield
  omega

/-! ### The round trip -/

/-- Non-negative integers without zero padding, an index of at least one in front of a
value, and strings with the default length and padding. -/
def HPACKField.Standard (f : HPACKField) : Prop :=
  0 ≤ f.number ∧ f.paddingAmount = 0 ∧ f.indexFits ∧
    ∀ x ∈ f.strings, x.length = none ∧ x.padding = none

instance (f : HPACKField) : Decidable f.Standard :=
  inferInstanceAs (Decidable (_ ∧ _ ∧ _ ∧ _))

/-- The same data and the same flag. -/
def SameString (x y : HPACKString) : Prop := x.data = y.data ∧ x.compressed = y.compressed

/-- The same constructor, number and property, and the same strings. -/
def SameField : HPACKField → HPACKField → Prop
  | .indexed i, .indexed j => i.val = j.val
  | .partialIndexed p i x, .partialIndexed q j y => p = q ∧ i.val = j.val ∧ SameString x y
  | .literal k v p, .literal k' v' q => p = q ∧ SameString k k' ∧ SameString v v'
  | .dynamicTableSizeUpdate m, .dynamicTableSizeUpdate n => m.val = n.val
  | _, _ => False

theorem sameField_reparsed (f : HPACKField) : SameField f f.reparsed := by
  have hs (x : HPACKString) : SameString x x.reparsed := by
    rw [SameString, HPACKString.reparsed, HPACKString.parsed_data, HPACKString.parsed_compressed]
    exact ⟨rfl, rfl⟩
  cases f with
  | indexed i | dynamicTableSizeUpdate i => exact rfl
  | partialIndexed prop index val => exact ⟨rfl, rfl, hs val⟩
  | literal key val prop => exact ⟨rfl, hs key, hs val⟩

/-- **Field blocks round-trip.** Every list of fields is written, and the same fields
are read back from the bytes; no `bytes` object is longer than `sys.maxsize`. -/
theorem parseFieldBlock_joinFields (fs : List HPACKField) (h : ∀ f ∈ fs, f.Standard) :
    ∃ data, joinFields fs = .ok data ∧ (data.length ≤ sysMaxsize →
      ∃ gs, parseFieldBlock data = .ok gs ∧ List.Forall₂ SameField fs gs) := by
  have hplain : ∀ f ∈ fs, f.Plain := by
    intro f hf
    obtain ⟨h0, hpad, hfits, hstr⟩ := h f hf
    refine ⟨h0, hpad, hfits, fun x hx => ⟨(hstr x hx).2, fun i hi => ?_⟩⟩
    rw [(hstr x hx).1] at hi
    cases hi
  refine ⟨_, joinFields_eq hplain, fun hmax => ⟨_, parseFieldBlock_wire hplain ?_, ?_⟩⟩
  · intro f hf x hx
    refine ⟨?_, (encodedLength_le_length hf hx).trans hmax⟩
    rw [HPACKString.writtenLength, ((h f hf).2.2.2 x hx).1]
  · rw [List.forall₂_map_right_iff, List.forall₂_same]
    exact fun f _ => sameField_reparsed f

/-- A cached literal of which the value is compressed, and an index of two bytes. -/
theorem parseFieldBlock_joinFields_compressed :
    ∃ data, joinFields [.literal ⟨bytes "host", false, none, none⟩ ⟨bytes "www", true, none, none⟩
        .cached, .indexed ⟨200, 0⟩] = .ok data ∧ (data.length ≤ sysMaxsize →
      ∃ gs, parseFieldBlock data = .ok gs ∧ List.Forall₂ SameField
        [.literal ⟨bytes "host", false, none, none⟩ ⟨bytes "www", true, none, none⟩ .cached,
          .indexed ⟨200, 0⟩] gs) :=
  parseFieldBlock_joinFields _ (by decide)

end HttpGarden.Hpack
