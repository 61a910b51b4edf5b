import HttpGarden.Hpack.String

/-!
# HttpGarden.Hpack.HuffmanPadding

**The end of Huffman-encoded data.** What is left after the last codeword should be padding:
at most seven one-bits.

The check that `HPACKString.parse` makes of it is `not all(...) and len(codeword) <= 7`, where
`not` only takes in `all`: seven bits or fewer have to be ones, and more of them pass
unchecked. `parse_decodesExactly_iff` says that this is all that goes wrong.
-/

namespace HttpGarden.Hpack

open Lib Lib.Reader CodeTree

/-! ### Well-formed data and its defect -/

/-- The bits are the codewords of `data` and at most seven one-bits. -/
def PaddedHuffman (raw data : Bytes) : Prop :=
  ∃ k ≤ 7, raw.flatMap toBits = huffmanBits data ++ List.replicate k true

/-- The bits are codewords and more than seven bits of a codeword that is cut off. -/
def LongRemainder (raw : Bytes) : Prop :=
  ∃ data w i, raw.flatMap toBits = huffmanBits data ++ w ∧ 7 < w.length ∧
    i ≤ eos ∧ w <+: codeword i ∧ w ≠ codeword i

theorem eq_replicate_of_all {w : List Bool} (h : w.all id = true) :
    w = List.replicate w.length true := by
  rw [List.eq_replicate_iff]
  exact ⟨rfl, fun b hb => List.all_eq_true.mp h b hb⟩

theorem huffmanDecodes_of_padded {raw data : Bytes} (h : PaddedHuffman raw data) :
    HuffmanDecodes raw data := by
  obtain ⟨k, hk, hbits⟩ := h
  exact ⟨_, hbits, follow_ones k (by omega), .inl (by simp)⟩

/-- **What the parser decodes** is padded, unless the remainder is long. -/
theorem padded_or_long {raw data : Bytes} (h : HuffmanDecodes raw data) :
    PaddedHuffman raw data ∨ LongRemainder raw := by
  obtain ⟨w, hbits, hnode, hcheck⟩ := h
  by_cases hlong : 7 < w.length
  · obtain ⟨i, hi, hprefix, hne⟩ := huffmanTree_isTreeOf.follow_isNode_iff.mp hnode
    exact .inr ⟨data, w, i, hbits, hlong, by rw [eos]; omega, hprefix, hne⟩
  · have hall := eq_replicate_of_all (hcheck.resolve_right hlong)
    exact .inl ⟨w.length, by omega, hall ▸ hbits⟩

/-- A long remainder is decoded to what stands in front of it, and is no padding. -/
theorem decodes_not_padded_of_long {raw : Bytes} (h : LongRemainder raw) :
    ∃ data, HuffmanDecodes raw data ∧ ¬ PaddedHuffman raw data := by
  obtain ⟨data, w, i, hbits, hlong, hi, hprefix, hne⟩ := h
  have hnode : ∃ t, huffmanTree.follow w = some t ∧ t.isNode = true :=
    huffmanTree_isTreeOf.follow_isNode_iff.mpr ⟨i, by rw [eos] at hi; omega, hprefix, hne⟩
  refine ⟨data, ⟨w, hbits, hnode, .inr hlong⟩, fun hpadded => ?_⟩
  obtain ⟨k, hk, hones⟩ := hpadded
  rw [hbits] at hones
  have hlen := congrArg List.length (List.append_cancel_left hones)
  rw [List.length_replicate] at hlen
  omega

/-! ### Exceptions -/

/-- An `HPACKError`, with any message. -/
def IsHPACKError (e : PyError) : Prop := ∃ text, e = .hpackError text

/-- The only exception of an iteration is that the end of the string is encoded. -/
theorem decodeBit_raises {bits : List Bool} {st : DecodeState} (hst : Decodes bits st) (b : Bool) :
    OnlyRaises IsHPACKError (decodeBit st b) := by
  obtain ⟨-, -, hnode⟩ := hst
  unfold decodeBit
  cases hpath : st.path with
  | empty =>
      rw [hpath] at hnode
      cases hnode
  | leaf i =>
      rw [hpath] at hnode
      cases hnode
  | node zero one =>
      simp only [child]
      cases (if b then one else zero) with
      | empty => exact onlyRaises_ok _
      | node zero one => exact onlyRaises_ok _
      | leaf i =>
          by_cases hi : i = eos
          · simp only [hi, if_true]
            exact onlyRaises_error.mpr ⟨_, rfl⟩
          · simp only [hi, if_false]
            exact onlyRaises_ok _

theorem decodeBits_raises {bits : List Bool} {st : DecodeState} (hst : Decodes bits st)
    (w : List Bool) : OnlyRaises IsHPACKError (decodeBits w st) := by
  induction w generalizing bits st with
  | nil => exact onlyRaises_ok _
  | cons b w ih =>
      rw [decodeBits, List.foldlM_cons]
      exact onlyRaises_bind.mpr ⟨decodeBit_raises hst b, fun st' h => ih (decodeBit_step hst h)⟩

/-! ### Strings -/

namespace HPACKString

variable {b : UInt8} {t t' raw : Bytes}

/-- Behind the length of a compressed string the bits are decoded, and what is left of them is
checked. -/
theorem parse_compressed (hb : 128 ≤ b.toNat)
    (hlength : parseHpackInt 7 (b :: t) = .ok (raw.length, raw ++ t'))
    (hmax : raw.length ≤ sysMaxsize) :
    parse (b :: t) = (do
      let st ← decodeBits (raw.flatMap toBits) .init
      if !(st.codeword.all id) && st.codeword.length ≤ 7 then
        .error (.hpackError "Invalid EOS padding")
      else .ok (parsed st.result true, t')) := by
  rw [parse_cons, bind_apply, hlength, ok_bind, bind_apply, islice_apply hmax, ok_bind]
  simp only [List.take_left', List.drop_left', hb]
  rw [if_neg (not_not.mpr rfl), if_neg (by decide), bind_apply]
  cases decodeBits (raw.flatMap toBits) .init with
  | error e => rfl
  | ok st =>
      rw [check_ok, ok_bind, ok_bind]
      split <;> rfl

/-- An exception of the parser is an `HPACKError`. -/
theorem parse_raises (hb : 128 ≤ b.toNat)
    (hlength : parseHpackInt 7 (b :: t) = .ok (raw.length, raw ++ t'))
    (hmax : raw.length ≤ sysMaxsize) : OnlyRaises IsHPACKError (parse (b :: t)) := by
  rw [parse_compressed hb hlength hmax]
  refine (decodeBits_raises decodes_init _).bind fun st => ?_
  split
  · exact onlyRaises_error.mpr ⟨_, rfl⟩
  · exact onlyRaises_ok _

theorem parse_compressed_eq_ok (hb : 128 ≤ b.toNat)
    (hlength : parseHpackInt 7 (b :: t) = .ok (raw.length, raw ++ t'))
    (hmax : raw.length ≤ sysMaxsize) {x : HPACKString} {s : Bytes} :
    parse (b :: t) = .ok (x, s) ↔
      s = t' ∧ ∃ data, x = parsed data true ∧ HuffmanDecodes raw data := by
  rw [parse_compressed hb hlength hmax, bind_eq_ok]
  simp only [ite_error_eq_ok, Except.ok.injEq, Prod.mk.injEq, huffmanDecodes_iff]
  refine ⟨fun h => ?_, fun h => ?_⟩
  · obtain ⟨st, hst, hpad, hx, hs⟩ := h
    exact ⟨hs.symm, st.result, hx.symm, st, hst, hpad, rfl⟩
  · obtain ⟨hs, data, hx, st, hst, hpad, hdata⟩ := h
    exact ⟨st, hst, hpad, hdata ▸ hx.symm, hs.symm⟩

theorem parse_data_iff (hb : 128 ≤ b.toNat)
    (hlength : parseHpackInt 7 (b :: t) = .ok (raw.length, raw ++ t'))
    (hmax : raw.length ≤ sysMaxsize) (data : Bytes) :
    (∃ x, parse (b :: t) = .ok (x, t') ∧ x.data = data) ↔ HuffmanDecodes raw data := by
  simp only [parse_compressed_eq_ok hb hlength hmax, true_and]
  constructor
  · intro h
    obtain ⟨x, ⟨data', rfl, hraw⟩, hdata⟩ := h
    rwa [← hdata, parsed_data]
  · exact fun h => ⟨parsed data true, ⟨data, rfl, h⟩, parsed_data data true⟩

/-- Strings are parsed to the data of which their bytes are a padded encoding, and refused if
there is none. -/
def DecodesExactly (s t raw : Bytes) : Prop :=
  (∀ data, (∃ x, parse s = .ok (x, t) ∧ x.data = data) ↔ PaddedHuffman raw data) ∧
    ((∀ data, ¬ PaddedHuffman raw data) → ∃ e, parse s = .error e ∧ IsHPACKError e)

/-- **Huffman decoding** is exact unless more than seven bits are left. -/
theorem parse_decodesExactly_iff (hb : 128 ≤ b.toNat)
    (hlength : parseHpackInt 7 (b :: t) = .ok (raw.length, raw ++ t'))
    (hmax : raw.length ≤ sysMaxsize) :
    DecodesExactly (b :: t) t' raw ↔ ¬ LongRemainder raw := by
  refine ⟨fun h hlong => ?_, fun hshort => ?_⟩
  · obtain ⟨data, hdecodes, hnot⟩ := decodes_not_padded_of_long hlong
    exact hnot ((h.1 data).mp ((parse_data_iff hb hlength hmax data).mpr hdecodes))
  · have hiff (data : Bytes) : HuffmanDecodes raw data ↔ PaddedHuffman raw data :=
      ⟨fun h => (padded_or_long h).resolve_right hshort, huffmanDecodes_of_padded⟩
    refine ⟨fun data => (parse_data_iff hb hlength hmax data).trans (hiff data), fun hnone => ?_⟩
    cases hparse : parse (b :: t) with
    | error e => exact ⟨e, rfl, parse_raises hb hlength hmax e hparse⟩
    | ok m =>
        obtain ⟨-, data, -, hraw⟩ := (parse_compressed_eq_ok hb hlength hmax).mp hparse
        exact absurd ((hiff data).mp hraw) (hnone data)

/-- Eight one-bits are no padding. -/
theorem parse_eightOnes : parse [0x81, 0xFF] = .ok (parsed [] true, []) := by
  decide +kernel

theorem parse_decodesExactly_iff_aa :
    DecodesExactly [0x82, 0x18, 0xFF] [] [0x18, 0xFF] ↔ ¬ LongRemainder [0x18, 0xFF] :=
  parse_decodesExactly_iff (by decide) (by decide) (by decide)

theorem not_parse_decodesExactly : ¬ ∀ (b : UInt8) (t t' raw : Bytes), 128 ≤ b.toNat →
    parseHpackInt 7 (b :: t) = .ok (raw.length, raw ++ t') → raw.length ≤ sysMaxsize →
    DecodesExactly (b :: t) t' raw := by
  intro h
  obtain ⟨hdata, -⟩ := h 0x81 [0xFF] [] [0xFF] (by decide) (by decide) (by decide)
  obtain ⟨k, hk, hbits⟩ := (hdata []).mp ⟨_, parse_eightOnes, rfl⟩
  have hlen := congrArg List.length hbits
  rw [length_flatMap_toBits, List.length_append, List.length_replicate] at hlen
  have hnone : (huffmanBits []).length = 0 := rfl
  rw [hnone, List.length_singleton] at hlen
  omega

end HPACKString

end HttpGarden.Hpack
