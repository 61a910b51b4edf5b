import HttpGarden.Hpack.RoundTrip

/-!
# HttpGarden.Hpack.Reserialise

**Writing parsed fields again.** For a compressed string the parser records the
length of the decoded data, and the serialiser writes it where the length of the
encoded data belongs. The fields of a block can be written and parsed again exactly if
the two lengths agree for every such string (`reserialises_iff`).

The hard direction is that no later byte makes up for a wrong length. Where the
recorded length is not the encoded one, it is larger, and the parser runs ahead of what
was written; the rest of a run that is to return the same fields keeps it ahead
(`Ahead`), up to the end of the input.
-/

namespace HttpGarden.Hpack

open Lib Lib.Reader

/-! ### Strings that were parsed -/

namespace HPACKString

/-- The length of the data is the length of its encoding. -/
def Honest (x : HPACKString) : Prop := x.compressed = true → x.data.length = x.encodedLength

instance (x : HPACKString) : Decidable x.Honest := inferInstanceAs (Decidable (_ → _))

theorem plain_of_reparsed {x : HPACKString} (h : x.reparsed = x) : x.Plain := by
  rw [← h, reparsed, parsed]
  cases x.compressed with
  | false => exact ⟨rfl, fun i hi => by cases hi⟩
  | true =>
      refine ⟨rfl, fun i hi => ?_⟩
      cases hi
      exact ⟨Int.natCast_nonneg _, rfl⟩

/-- The parser records the length of the decoded data. -/
theorem writtenLength_of_reparsed {x : HPACKString} (h : x.reparsed = x) :
    x.writtenLength = x.data.length := by
  rw [← h, reparsed, parsed]
  cases x.compressed with
  | false => rfl
  | true => exact Int.toNat_natCast _

theorem reparsed_of_parse {x : HPACKString} {s t : Bytes} (h : parse s = .ok (x, t)) :
    x.reparsed = x ∧ x.encodedLength ≤ sysMaxsize := by
  obtain ⟨c, raw, data, compressed, -, hmax, hpar, henc, -⟩ := parse_split h
  rw [hpar, reparsed, encodedLength, parsed_data, parsed_compressed]
  exact ⟨rfl, henc.length_le.trans hmax⟩

theorem encodedLength_of_uncompressed {x : HPACKString} (h : x.compressed = false) :
    x.encodedLength = x.data.length := by
  rw [encodedLength, encodeData, h]
  rfl

theorem honest_iff {x : HPACKString} : x.Honest ↔ x.data.length = x.encodedLength := by
  constructor
  · intro h
    cases hc : x.compressed with
    | false => exact (encodedLength_of_uncompressed hc).symm
    | true => exact h hc
  · exact fun h _ => h

end HPACKString

/-! ### Running ahead -/

/-- The input `s` is what is left of `R` after at least one byte. -/
def Ahead (s R : Bytes) : Prop := s <:+ R ∧ s.length < R.length

/-- What is left of an input that is ahead is ahead if it is short enough. -/
theorem Ahead.of_append {c t R W : Bytes} (h : c ++ t <:+ W ++ R) (hlen : t.length < R.length) :
    Ahead t R := by
  have ht : t <:+ W ++ R := (List.suffix_append c t).trans h
  exact ⟨List.suffix_of_suffix_length_le ht (List.suffix_append W R) hlen.le, hlen⟩

theorem Ahead.irrefl_nil {s : Bytes} (h : Ahead s []) : False := Nat.not_lt_zero _ h.2

theorem HPACKInt.length_encode_small {p v : Nat} (h : v < 127) :
    (HPACKInt.encode 7 p v).length = 1 := by
  rw [HPACKInt.encode, if_pos (by omega), List.length_singleton]

theorem HPACKInt.encode_large {p v : Nat} (h : 127 ≤ v) :
    HPACKInt.encode 7 p v = UInt8.ofNat (p * 128 + 127) :: HPACKInt.continuation (v - 127) := by
  rw [HPACKInt.encode, if_neg (by omega)]
  rfl

/-- The length of a string gets at most one byte shorter where it is the length of the
encoding. -/
theorem HPACKInt.length_encode_le_succ {p L M : Nat} (h : 5 * L ≤ 8 * M) :
    (HPACKInt.encode 7 p L).length ≤ (HPACKInt.encode 7 p M).length + 1 := by
  by_cases hL : L < 127
  · rw [length_encode_small hL]
    omega
  rw [encode_large (by omega), List.length_cons]
  by_cases hM : M < 127
  · have := length_continuation_le (k := 1) (u := L - 127) le_rfl (by omega)
    rw [length_encode_small hM]
    omega
  · have hlt := lt_pow_length_continuation (M - 127)
    have hone : 1 ≤ 128 ^ (continuation (M - 127)).length := Nat.one_le_two_pow.trans
      (Nat.pow_le_pow_left (by decide) _)
    rw [encode_large (by omega), List.length_cons]
    refine Nat.succ_le_succ (length_continuation_le (by omega) ?_)
    rw [Nat.pow_succ]
    omega

namespace HPACKString

/-- Five bits a symbol bound the data. -/
theorem five_mul_le_of_huffmanDecodes {raw data : Bytes} (h : HuffmanDecodes raw data) :
    5 * data.length ≤ 8 * raw.length := by
  obtain ⟨w, hw, -⟩ := h
  have hlen := congrArg List.length hw
  rw [length_flatMap_toBits, List.length_append] at hlen
  have := five_mul_length_le data
  omega

/-- One byte ahead, the rest of a long length spells no length that could belong to
the same string. -/
theorem not_parse_continuation {u : Nat} {s t : Bytes} {x : HPACKString}
    (hu : u + 127 = x.data.length) (hx : x.compressed = true) :
    parse (HPACKInt.continuation u ++ s) ≠ .ok (x, t) := by
  intro h
  by_cases hlt : u < 128
  · -- the byte has no top bit, so the string is not compressed
    have hval : (UInt8.ofNat u).toNat = u := by
      rw [UInt8.toNat_ofNat']
      omega
    rw [HPACKInt.continuation_of_lt hlt, List.singleton_append, parse_cons_eq_ok] at h
    obtain ⟨raw, data, -, -, hpar, -⟩ := h
    rw [hpar, parsed_compressed, hval, decide_eq_true_eq] at hx
    omega
  · -- the length is at most `127 + u / 128`, which is too small for the data
    have hval : (UInt8.ofNat (128 + u % 128)).toNat = 128 + u % 128 := by
      rw [UInt8.toNat_ofNat']
      omega
    rw [HPACKInt.continuation_of_ge (by omega), List.cons_append, parse_cons_eq_ok, hval] at h
    obtain ⟨raw, data, hint, -, hpar, henc⟩ := h
    have hraw : raw.length ≤ 127 + u / 128 := by
      rw [HPACKInt.parseHpackInt_cons (by decide) (by decide), hval] at hint
      by_cases hmod : (128 + u % 128) % 2 ^ 7 = 2 ^ 7 - 1
      · rw [if_pos hmod, HPACKInt.reads_continuation, Except.ok.injEq, Prod.mk.injEq] at hint
        omega
      · rw [if_neg hmod, Except.ok.injEq, Prod.mk.injEq] at hint
        omega
    rw [decide_eq_true (by omega : 128 ≤ 128 + u % 128)] at hpar henc
    have hdata : x.data = data := by rw [hpar, parsed_data]
    have := five_mul_le_of_huffmanDecodes henc
    rw [hdata] at hu
    omega

/-- **In step**, a string is read back exactly, or the rest is ahead. -/
theorem parse_wire {x : HPACKString} {R t : Bytes} (hx : x.reparsed = x)
    (h : parse (x.wire ++ R) = .ok (x, t)) : x.Honest ∧ t = R ∨ Ahead t R := by
  rw [wire, writtenLength_of_reparsed hx, encode, List.append_assoc, parse_encode_eq_ok] at h
  obtain ⟨raw, data, hsplit, hraw, -, hpar, henc⟩ := h
  have hdata : x.data = data := by rw [hpar, parsed_data]
  have hle : x.encodedLength ≤ raw.length := by
    rw [encodedLength, hdata]
    exact henc.length_le
  have hlen := congrArg List.length hsplit
  rw [List.length_append, List.length_append, ← encodedLength] at hlen
  by_cases heq : x.data.length = x.encodedLength
  · left
    refine ⟨honest_iff.mpr heq, ?_⟩
    exact ((List.append_inj hsplit (by rw [← encodedLength, hraw, heq])).2).symm
  · right
    refine Ahead.of_append (c := raw) (W := encodeData x.data x.compressed) ?_ (by omega)
    rw [hsplit]

/-- Exactly one byte ahead of a string whose length takes several bytes, that string is
not read. -/
theorem not_parse_one_ahead {x : HPACKString} {s R t : Bytes} (hx : x.reparsed = x)
    (hc : x.compressed = true) (hL : 127 ≤ x.data.length) (hs : s <:+ x.wire ++ R)
    (hone : s.length + 1 = (x.wire ++ R).length) : parse s ≠ .ok (x, t) := by
  rw [wire, writtenLength_of_reparsed hx, encode, HPACKInt.encode_large hL, List.append_assoc,
    List.cons_append] at hs hone
  rcases List.suffix_cons_iff.mp hs with heq | hs
  · rw [heq] at hone
    exact absurd hone (Nat.succ_ne_self _)
  · rw [hs.eq_of_length (Nat.succ.inj hone)]
    exact not_parse_continuation (by omega) hc

/-- **Once ahead**, reading the same string stays ahead. -/
theorem ahead_of_parse {x : HPACKString} {s R t : Bytes} (hx : x.reparsed = x)
    (hs : Ahead s (x.wire ++ R)) (h : parse s = .ok (x, t)) : Ahead t R := by
  obtain ⟨c, raw, data, compressed, hsplit, -, hpar, henc, hlen⟩ := parse_split h
  have hdata : x.data = data := by rw [hpar, parsed_data]
  have hcomp : x.compressed = compressed := by rw [hpar, parsed_compressed]
  have hle : x.encodedLength ≤ raw.length := by
    rw [encodedLength, hdata, hcomp]
    exact henc.length_le
  have hwire : x.wire.length =
      (HPACKInt.encode 7 compressed.toNat x.data.length).length + x.encodedLength := by
    rw [wire, writtenLength_of_reparsed hx, encode, List.length_append, hcomp, encodedLength, hcomp]
  have hs₁ := congrArg List.length hsplit
  have hs₂ := hs.2
  simp only [List.length_append] at hs₁ hs₂
  refine Ahead.of_append (c := c ++ raw) (W := x.wire) ?_ ?_
  · rw [List.append_assoc, ← hsplit]
    exact hs.1
  · cases compressed with
    | false =>
        have hraw : raw = data := henc
        rw [hraw, ← hdata] at hlen hs₁ hle
        omega
    | true =>
        have hsucc := HPACKInt.length_encode_le_succ (p := true.toNat)
          (five_mul_le_of_huffmanDecodes henc)
        rw [← hdata] at hsucc
        by_cases hL : x.data.length < 127
        · rw [HPACKInt.length_encode_small hL] at hwire
          have := HPACKInt.length_encode_pos 7 true.toNat raw.length
          omega
        · by_cases hone : s.length + 1 = (x.wire ++ R).length
          · exact absurd h (not_parse_one_ahead hx hcomp (by omega) hs.1 hone)
          · rw [List.length_append] at hone
            omega

end HPACKString

/-! ### Fields -/

namespace HPACKField

/-- Once ahead, reading the strings of a field stays ahead. -/
theorem ahead_of_readsStrings {xs : List HPACKString} {s R t : Bytes}
    (hxs : ∀ x ∈ xs, x.reparsed = x) (hs : Ahead s (xs.flatMap HPACKString.wire ++ R))
    (h : ReadsStrings s xs t) : Ahead t R := by
  induction xs generalizing s with
  | nil => exact h ▸ hs
  | cons x xs ih =>
      obtain ⟨s', hx, h⟩ := h
      rw [List.flatMap_cons, List.append_assoc] at hs
      have hs' := HPACKString.ahead_of_parse (hxs x List.mem_cons_self) hs hx
      exact ih (fun y hy => hxs y (List.mem_cons_of_mem x hy)) hs' h

/-- In step, the strings of a field are read back exactly, or the rest is ahead. -/
theorem readsStrings_in_step {xs : List HPACKString} {R t : Bytes}
    (hxs : ∀ x ∈ xs, x.reparsed = x)
    (h : ReadsStrings (xs.flatMap HPACKString.wire ++ R) xs t) :
    (∀ x ∈ xs, x.Honest) ∧ t = R ∨ Ahead t R := by
  induction xs with
  | nil => exact .inl ⟨fun x hx => absurd hx List.not_mem_nil, h.symm⟩
  | cons x xs ih =>
      obtain ⟨s', hx, h⟩ := h
      have hxs' : ∀ y ∈ xs, y.reparsed = y := fun y hy => hxs y (List.mem_cons_of_mem x hy)
      rw [List.flatMap_cons, List.append_assoc] at hx
      rcases HPACKString.parse_wire (hxs x List.mem_cons_self) hx with ⟨hhonest, rfl⟩ | hs'
      · rcases ih hxs' h with ⟨hall, ht⟩ | ht
        · exact .inl ⟨List.forall_mem_cons.mpr ⟨hhonest, hall⟩, ht⟩
        · exact .inr ht
      · exact .inr (ahead_of_readsStrings hxs' hs' h)

/-- The strings of a field are as the parser returns them. -/
def Parsed (f : HPACKField) : Prop := f.Plain ∧ ∀ x ∈ f.strings, x.reparsed = x

theorem parse_wire {f : HPACKField} {R t : Bytes} (hf : f.Parsed)
    (h : parseHpackField (f.wire ++ R) = .ok (f, t)) :
    (∀ x ∈ f.strings, x.Honest) ∧ t = R ∨ Ahead t R := by
  obtain ⟨-, n, s', hint, -, -, -, hstr⟩ := parseHpackField_eq_ok.mp h
  obtain ⟨h1, h8, hp⟩ := f.indexLen_bounds
  rw [wire, List.append_assoc, HPACKInt.reads_encode h1 h8 hp, Except.ok.injEq,
    Prod.mk.injEq] at hint
  rw [← hint.2] at hstr
  exact readsStrings_in_step hf.2 hstr

theorem ahead_of_parse {f : HPACKField} {s R t : Bytes} (hf : f.Parsed)
    (hs : Ahead s (f.wire ++ R)) (h : parseHpackField s = .ok (f, t)) : Ahead t R := by
  obtain ⟨-, n, s', hint, hnum, -, -, hstr⟩ := parseHpackField_eq_ok.mp h
  obtain ⟨h1, h8, -⟩ := f.indexLen_bounds
  obtain ⟨c, rfl, hlen⟩ := HPACKInt.length_encode_le h1 h8 hint f.preprefixBits
  have hn : f.number.toNat = n := by rw [hnum, Int.toNat_natCast]
  rw [wire, hn, List.append_assoc] at hs
  refine ahead_of_readsStrings hf.2 (Ahead.of_append hs.1 ?_) hstr
  have := hs.2
  rw [List.length_append, List.length_append] at this
  omega

theorem parsed_of_readsStrings {xs : List HPACKString} {s t : Bytes} (h : ReadsStrings s xs t) :
    ∀ x ∈ xs, x.reparsed = x ∧ x.encodedLength ≤ sysMaxsize := by
  induction xs generalizing s with
  | nil => exact fun x hx => absurd hx List.not_mem_nil
  | cons x xs ih =>
      obtain ⟨s', hx, hxs⟩ := h
      exact List.forall_mem_cons.mpr ⟨HPACKString.reparsed_of_parse hx, ih hxs⟩

theorem Parsed.reparsed_eq {f : HPACKField} (hf : f.Parsed) : f.reparsed = f := by
  have hstr := hf.2
  cases f with
  | indexed _ | dynamicTableSizeUpdate _ => rfl
  | partialIndexed prop index val =>
      rw [reparsed, mapStrings, hstr val (by simp [strings])]
  | literal key val prop =>
      rw [reparsed, mapStrings, hstr key (by simp [strings]), hstr val (by simp [strings])]

/-- What is parsed has the shape that the parser gives it. -/
theorem parsed_of_parse {f : HPACKField} {s t : Bytes} (h : parseHpackField s = .ok (f, t)) :
    f.Parsed ∧ ∀ x ∈ f.strings, x.encodedLength ≤ sysMaxsize := by
  obtain ⟨-, n, s', -, hnum, hpad, hfits, hstr⟩ := parseHpackField_eq_ok.mp h
  have hxs := parsed_of_readsStrings hstr
  refine ⟨⟨⟨?_, hpad, hfits, fun x hx => ?_⟩, fun x hx => (hxs x hx).1⟩, fun x hx => (hxs x hx).2⟩
  · rw [hnum]
    exact Int.natCast_nonneg n
  · exact HPACKString.plain_of_reparsed (hxs x hx).1

end HPACKField

/-! ### Blocks -/

/-- Once ahead, the parser does not come to the end of the fields. -/
theorem not_readsAll_of_ahead {fs : List HPACKField} {s : Bytes} (hfs : ∀ f ∈ fs, f.Parsed)
    (hs : Ahead s (fs.flatMap HPACKField.wire)) :
    ¬ ReadsAll .stopIteration parseHpackField s fs := by
  intro h
  induction h with
  | done _ => exact hs.irrefl_nil
  | more h _ ih =>
      rw [List.flatMap_cons] at hs
      exact ih (fun g hg => hfs g (List.mem_cons_of_mem _ hg))
        (HPACKField.ahead_of_parse (hfs _ List.mem_cons_self) hs h)

theorem honest_of_readsAll {fs : List HPACKField} (hfs : ∀ f ∈ fs, f.Parsed)
    (h : ReadsAll .stopIteration parseHpackField (fs.flatMap HPACKField.wire) fs) :
    ∀ f ∈ fs, ∀ x ∈ f.strings, x.Honest := by
  induction fs with
  | nil => exact fun f hf => absurd hf List.not_mem_nil
  | cons f fs ih =>
      have hrest : ∀ g ∈ fs, g.Parsed := fun g hg => hfs g (List.mem_cons_of_mem f hg)
      rw [List.flatMap_cons] at h
      cases h with
      | more h hs =>
          rcases HPACKField.parse_wire (hfs f List.mem_cons_self) h with ⟨hhonest, rfl⟩ | hahead
          · exact List.forall_mem_cons.mpr ⟨hhonest, ih hrest hs⟩
          · exact absurd hs (not_readsAll_of_ahead hrest hahead)

/-- What a block is parsed to has the shape that the parser gives it. -/
theorem parsed_of_parseFieldBlock {b : Bytes} {fs : List HPACKField}
    (h : parseFieldBlock b = .ok fs) :
    ∀ f ∈ fs, f.Parsed ∧ ∀ x ∈ f.strings, x.encodedLength ≤ sysMaxsize := by
  have hreads := readAll_eq_ok.mp h
  clear h
  induction hreads with
  | done _ => exact fun f hf => absurd hf List.not_mem_nil
  | more h _ ih => exact List.forall_mem_cons.mpr ⟨HPACKField.parsed_of_parse h, ih⟩

/-- The fields are written and parsed again without change. -/
def Reserialises (fs : List HPACKField) : Prop :=
  ∃ data, joinFields fs = .ok data ∧ parseFieldBlock data = .ok fs

/-- **Parsed fields can be written again** exactly if every compressed string among them
has as many bytes of data as its encoding has. -/
theorem reserialises_iff {b : Bytes} {fs : List HPACKField} (h : parseFieldBlock b = .ok fs) :
    Reserialises fs ↔ ∀ f ∈ fs, ∀ x ∈ f.strings,
      x.compressed = true → x.data.length = x.encodedLength := by
  have hfs := parsed_of_parseFieldBlock h
  have hplain : ∀ f ∈ fs, f.Plain := fun f hf => (hfs f hf).1.1
  constructor
  · intro ⟨data, hjoin, hparse⟩
    rw [joinFields_eq hplain, Except.ok.injEq] at hjoin
    rw [← hjoin] at hparse
    exact honest_of_readsAll (fun f hf => (hfs f hf).1) (readAll_eq_ok.mp hparse)
  · intro hhonest
    refine ⟨_, joinFields_eq hplain, ?_⟩
    have hmap : fs.map HPACKField.reparsed = fs :=
      (List.map_congr_left fun f hf => (hfs f hf).1.reparsed_eq).trans (List.map_id fs)
    rw [parseFieldBlock_wire hplain, hmap]
    intro f hf x hx
    have hx' := (hfs f hf).1.2 x hx
    refine ⟨?_, (hfs f hf).2 x hx⟩
    rw [HPACKString.writtenLength_of_reparsed hx', HPACKString.honest_iff.mp (hhonest f hf x hx)]

/-- The name at index one with the compressed value `aaa`, which is two bytes long. -/
theorem parseFieldBlock_aaa : parseFieldBlock [0x01, 0x82, 0x18, 0xC7] =
    .ok [.partialIndexed .uncached ⟨1, 0⟩ ⟨bytes "aaa", true, some ⟨3, 0⟩, none⟩] := by
  have hfield : parseHpackField [0x01, 0x82, 0x18, 0xC7] =
      .ok (.partialIndexed .uncached ⟨1, 0⟩ ⟨bytes "aaa", true, some ⟨3, 0⟩, none⟩, []) := by
    decide +kernel
  exact readAll_eq_ok.mpr (.more hfield (.done rfl))

/-- The condition is not always met: the three bytes that are announced are not there. -/
theorem not_reserialises_aaa : ¬ ∀ b fs, parseFieldBlock b = .ok fs → Reserialises fs := by
  intro h
  obtain ⟨data, hjoin, hparse⟩ := h _ _ parseFieldBlock_aaa
  have hdata : joinFields [.partialIndexed .uncached ⟨1, 0⟩
      ⟨bytes "aaa", true, some ⟨3, 0⟩, none⟩] = .ok [0x01, 0x83, 0x18, 0xC7] := by
    decide +kernel
  rw [hdata, Except.ok.injEq] at hjoin
  have hfield : parseHpackField [0x01, 0x83, 0x18, 0xC7] =
      .error (.hpackError "Unexpected end of HPACKString data") := by
    decide
  rw [← hjoin, parseFieldBlock, readAll_of_error hfield] at hparse
  cases hparse

theorem reserialises_iff_aaa : Reserialises [.partialIndexed .uncached ⟨1, 0⟩
      ⟨bytes "aaa", true, some ⟨3, 0⟩, none⟩] ↔
    ∀ f ∈ [HPACKField.partialIndexed .uncached ⟨1, 0⟩ ⟨bytes "aaa", true, some ⟨3, 0⟩, none⟩],
      ∀ x ∈ f.strings, x.compressed = true → x.data.length = x.encodedLength :=
  reserialises_iff parseFieldBlock_aaa

end HttpGarden.Hpack
