import HttpGarden.Hpack.Huffman
import HttpGarden.Hpack.Int

/-!
# HttpGarden.Hpack.String

`hpack.py`: **string literals**, with and without Huffman compression.

`decodeBits_eq_ok` is the specification of the bit loop in both directions: it
stops in a state exactly when the bits are the codewords of the bytes decoded so
far, followed by the path from the root that is still open.
-/

namespace HttpGarden.Hpack

open Lib Lib.Reader

/-! ### The bit loop -/

/-- The variables of the loop in `HPACKString.parse`. -/
structure DecodeState where
  result : Bytes
  path : CodeTree Nat
  codeword : List Bool
  deriving Repr, DecidableEq

def DecodeState.init : DecodeState := ⟨[], huffmanTree, []⟩

/-- The body of the loop. -/
def decodeBit (st : DecodeState) (bit : Bool) : Except PyError DecodeState :=
  let codeword := st.codeword ++ [bit]
  match st.path.child bit with
  | none => .error .assertionError
  | some (.leaf i) =>
    if i = eos then .error (.hpackError "Encountered EOS during Huffman decoding")
    else .ok ⟨st.result ++ [UInt8.ofNat i], huffmanTree, []⟩
  | some path => .ok ⟨st.result, path, codeword⟩

def decodeBits (bits : List Bool) (st : DecodeState) : Except PyError DecodeState :=
  bits.foldlM decodeBit st

/-! #### Its specification -/

/-- The codewords of the bytes of `data`. -/
def huffmanBits (data : Bytes) : List Bool := data.flatMap fun c => codeword c.toNat

theorem huffmanBits_append (s t : Bytes) : huffmanBits (s ++ t) = huffmanBits s ++ huffmanBits t :=
  List.flatMap_append

theorem huffmanBits_singleton (c : UInt8) : huffmanBits [c] = codeword c.toNat := by
  rw [huffmanBits, List.flatMap_singleton]

/-- The bits are the codewords of the result and an open path that ends in `st.path`. -/
def Decodes (bits : List Bool) (st : DecodeState) : Prop :=
  bits = huffmanBits st.result ++ st.codeword ∧
    huffmanTree.follow st.codeword = some st.path ∧ st.path.isNode = true

theorem decodes_init : Decodes [] .init :=
  ⟨rfl, CodeTree.follow_nil _, huffmanTree_isTreeOf.root_isNode⟩

/-- One iteration extends the bits by one. -/
theorem decodeBit_step {bits : List Bool} {st st' : DecodeState} {b : Bool}
    (hst : Decodes bits st) (h : decodeBit st b = .ok st') : Decodes (bits ++ [b]) st' := by
  obtain ⟨rfl, hfollow, -⟩ := hst
  have hnext : huffmanTree.follow (st.codeword ++ [b]) = st.path.child b := by
    rw [CodeTree.follow_append, hfollow, Option.bind_some, CodeTree.follow_cons]
    cases st.path.child b <;> rfl
  unfold decodeBit at h
  cases hc : st.path.child b with
  | none =>
      rw [hc] at h
      cases h
  | some t =>
      rw [hc] at h hnext
      cases t with
      | empty => exact absurd hnext (huffmanTree_isTreeOf.ne_empty _)
      | node zero one =>
          rw [Except.ok.injEq] at h
          rw [← h]
          exact ⟨List.append_assoc _ _ _, hnext, rfl⟩
      | leaf i =>
          obtain ⟨hi, hw⟩ := (huffmanTree_isTreeOf.leaf_iff _ _).mp hnext
          obtain ⟨heos, h⟩ := ite_error_eq_ok.mp h
          rw [Except.ok.injEq] at h
          have hval : (UInt8.ofNat i).toNat = i := by
            rw [eos] at heos
            rw [UInt8.toNat_ofNat']
            omega
          rw [← h]
          refine ⟨?_, CodeTree.follow_nil _, huffmanTree_isTreeOf.root_isNode⟩
          rw [List.append_assoc, hw, huffmanBits_append, huffmanBits_singleton, hval,
            List.append_nil]

theorem decodes_of_decodeBits {bits w : List Bool} {st st' : DecodeState} (hst : Decodes bits st)
    (h : decodeBits w st = .ok st') : Decodes (bits ++ w) st' := by
  induction w generalizing bits st with
  | nil =>
      rw [decodeBits, List.foldlM_nil, pure_eq_ok, Except.ok.injEq] at h
      rwa [List.append_nil, ← h]
  | cons b w ih =>
      rw [decodeBits, List.foldlM_cons] at h
      obtain ⟨st₁, h₁, h₂⟩ := bind_eq_ok.mp h
      have := ih (decodeBit_step hst h₁) h₂
      rwa [List.append_assoc] at this

/-- Walking on inside the tree only extends the open path. -/
theorem decodeBits_inside {t t' : CodeTree Nat} {w : List Bool} (hw : t.follow w = some t')
    (ht' : t'.isNode = true) (r : Bytes) (v : List Bool) :
    decodeBits w ⟨r, t, v⟩ = .ok ⟨r, t', v ++ w⟩ := by
  induction w generalizing t v with
  | nil =>
      rw [CodeTree.follow_nil, Option.some.injEq] at hw
      rw [decodeBits, List.foldlM_nil, List.append_nil, hw, pure_eq_ok]
  | cons b w ih =>
      obtain ⟨t₁, hc, hw⟩ := Option.bind_eq_some_iff.mp hw
      have hstep : decodeBit ⟨r, t, v⟩ b = .ok ⟨r, t₁, v ++ [b]⟩ := by
        unfold decodeBit
        rw [hc]
        cases t₁ with
        | node zero one => rfl
        | empty | leaf _ =>
            cases w with
            | nil =>
                cases hw
                cases ht'
            | cons b w => cases hw
      have := ih hw (v ++ [b])
      rw [List.append_assoc, List.singleton_append] at this
      rw [decodeBits, List.foldlM_cons, hstep, ok_bind]
      exact this

/-- Walking to a leaf adds its symbol to the result. -/
theorem decodeBits_leaf {t : CodeTree Nat} {w : List Bool} {c : UInt8} (hne : w ≠ [])
    (hw : t.follow w = some (.leaf c.toNat)) (r : Bytes) (v : List Bool) :
    decodeBits w ⟨r, t, v⟩ = .ok ⟨r ++ [c], huffmanTree, []⟩ := by
  induction w generalizing t v with
  | nil => exact absurd rfl hne
  | cons b w ih =>
      obtain ⟨t₁, hc, hw⟩ := Option.bind_eq_some_iff.mp hw
      rw [decodeBits, List.foldlM_cons]
      cases w with
      | nil =>
          have hc256 : c.toNat ≠ eos := by
            have := c.toNat_lt
            simp only [eos]
            omega
          rw [CodeTree.follow_nil, Option.some.injEq] at hw
          have hstep : decodeBit ⟨r, t, v⟩ b = .ok ⟨r ++ [c], huffmanTree, []⟩ := by
            unfold decodeBit
            rw [hc, hw]
            simp only [if_neg hc256, UInt8.ofNat_toNat]
          rw [hstep, ok_bind, List.foldlM_nil, pure_eq_ok]
      | cons b' w =>
          have hstep : decodeBit ⟨r, t, v⟩ b = .ok ⟨r, t₁, v ++ [b]⟩ := by
            unfold decodeBit
            rw [hc]
            cases t₁ with
            | node zero one => rfl
            | empty | leaf _ => cases hw
          rw [hstep, ok_bind]
          exact ih (List.cons_ne_nil _ _) hw (v ++ [b])

theorem decodeBits_append (v w : List Bool) (st : DecodeState) :
    decodeBits (v ++ w) st = decodeBits v st >>= decodeBits w :=
  List.foldlM_append

theorem decodeBits_huffmanBits (data r : Bytes) :
    decodeBits (huffmanBits data) ⟨r, huffmanTree, []⟩ = .ok ⟨r ++ data, huffmanTree, []⟩ := by
  induction data generalizing r with
  | nil => rw [List.append_nil]; rfl
  | cons c data ih =>
      have hc : c.toNat < 257 := by
        have := c.toNat_lt
        omega
      rw [← List.singleton_append, huffmanBits_append, huffmanBits_singleton, decodeBits_append,
        decodeBits_leaf (huffmanTree_isTreeOf.code_ne_nil hc)
          (huffmanTree_isTreeOf.follow_code hc), ok_bind, ih, List.append_assoc]

/-- **The bit loop** stops in a state exactly if the bits decode to it. -/
theorem decodeBits_eq_ok {bits : List Bool} {st : DecodeState} :
    decodeBits bits .init = .ok st ↔ Decodes bits st := by
  constructor
  · intro h
    exact decodes_of_decodeBits decodes_init h
  · rintro ⟨rfl, hfollow, hnode⟩
    rw [decodeBits_append, DecodeState.init, decodeBits_huffmanBits, ok_bind,
      decodeBits_inside hfollow hnode]
    rfl

/-! ### Strings -/

structure HPACKString where
  data : Bytes
  compressed : Bool := false
  length : Option HPACKInt7 := none
  padding : Option (List Bool) := none
  deriving Repr, DecidableEq

namespace HPACKString

/-- The classmethod `parse`. -/
def parse : Reader UInt8 PyError HPACKString := do
  let prefixByte ← peek (.hpackError "Unexpected end of data in HPACKString")
  let compressed := prefixByte.toNat &&& 0x80 != 0
  let length ← parseHpackInt 7
  let rawResult ← islice length
  if rawResult.length ≠ length then
    throw (.hpackError "Unexpected end of HPACKString data")
  if !compressed then return ⟨rawResult, false, none, none⟩
  let st ← check (decodeBits (rawResult.flatMap toBits) .init)
  -- `not` binds tighter than `and`
  if !(st.codeword.all id) && st.codeword.length ≤ 7 then
    throw (.hpackError "Invalid EOS padding")
  return ⟨st.result, compressed, some ⟨st.result.length, 0⟩, none⟩

/-- The bits of the data, before padding. -/
def bitstring (self : HPACKString) : List Bool :=
  if self.compressed then self.data.flatMap fun c => codeword c.toNat
  else self.data.flatMap toBits

/-- Up to the next multiple of eight bits: one-bits, or the given padding cut off. -/
def padBits (padding : Option (List Bool)) (bits : List Bool) : List Bool :=
  match padding with
  | none => bits ++ List.replicate ((8 - bits.length % 8) % 8) true
  | some padding =>
    let bits := bits ++ padding
    bits.take (bits.length - bits.length % 8)

def toBytes (self : HPACKString) : Except PyError Bytes := do
  let string := packBits (padBits self.padding self.bitstring)
  let length : HPACKInt7 := self.length.getD ⟨string.length, 0⟩
  return (← length.toBytes self.compressed.toNat) ++ string

end HPACKString

/-! #### Bits and bytes -/

theorem toBits_ofBits (b₇ b₆ b₅ b₄ b₃ b₂ b₁ b₀ : Bool) :
    toBits (ofBits [b₇, b₆, b₅, b₄, b₃, b₂, b₁, b₀]) = [b₇, b₆, b₅, b₄, b₃, b₂, b₁, b₀] := by
  have h : ∀ a b c d e f g h : Bool,
      toBits (ofBits [a, b, c, d, e, f, g, h]) = [a, b, c, d, e, f, g, h] := by
    decide
  exact h _ _ _ _ _ _ _ _

theorem ofBits_toBits (c : UInt8) : ofBits (toBits c) = c := by
  have h : ∀ n : Fin 256, ofBits (toBits (UInt8.ofNat n.val)) = UInt8.ofNat n.val := by
    decide +kernel
  simpa using h ⟨c.toNat, c.toNat_lt⟩

@[simp] theorem length_toBits (c : UInt8) : (toBits c).length = 8 := rfl

theorem length_flatMap_toBits (s : Bytes) : (s.flatMap toBits).length = 8 * s.length := by
  induction s with
  | nil => rfl
  | cons c s ih =>
      rw [List.flatMap_cons, List.length_append, ih, length_toBits, List.length_cons]
      omega

theorem packBits_flatMap_toBits (s : Bytes) : packBits (s.flatMap toBits) = s := by
  induction s with
  | nil => rfl
  | cons c s ih =>
      have hpack : packBits (toBits c ++ s.flatMap toBits) =
          ofBits (toBits c) :: packBits (s.flatMap toBits) := rfl
      rw [List.flatMap_cons, hpack, ofBits_toBits, ih]

theorem flatMap_toBits_packBits {bits : List Bool} (h : bits.length % 8 = 0) :
    (packBits bits).flatMap toBits = bits := by
  induction bits using packBits.induct with
  | case1 b₇ b₆ b₅ b₄ b₃ b₂ b₁ b₀ bits ih =>
      have hlen : bits.length % 8 = 0 := by
        simp only [List.length_cons] at h
        omega
      rw [packBits, List.flatMap_cons, toBits_ofBits, ih hlen]
      rfl
  | case2 bits hshort =>
      match bits, h, hshort with
      | [], _, _ => rfl
      | b₇ :: b₆ :: b₅ :: b₄ :: b₃ :: b₂ :: b₁ :: b₀ :: bits, _, hshort =>
          exact absurd rfl (hshort b₇ b₆ b₅ b₄ b₃ b₂ b₁ b₀ bits)

theorem length_padBits (bits : List Bool) :
    (HPACKString.padBits none bits).length = (bits.length + 7) / 8 * 8 := by
  rw [HPACKString.padBits, List.length_append, List.length_replicate]
  omega

/-! #### Encoded data -/

/-- The encoded form of `data`, padded with one-bits. -/
def encodeData (data : Bytes) (compressed : Bool) : Bytes :=
  if compressed then packBits (HPACKString.padBits none (huffmanBits data)) else data

/-- The bytes `raw` are a Huffman encoding of `data` with a tail that the parser
tolerates. -/
def HuffmanDecodes (raw data : Bytes) : Prop :=
  ∃ w, raw.flatMap toBits = huffmanBits data ++ w ∧
    (∃ t, huffmanTree.follow w = some t ∧ t.isNode = true) ∧ (w.all id = true ∨ 7 < w.length)

theorem huffmanDecodes_encodeData (data : Bytes) : HuffmanDecodes (encodeData data true) data := by
  have hlt : (8 - (huffmanBits data).length % 8) % 8 < 8 := Nat.mod_lt _ (by decide)
  refine ⟨List.replicate ((8 - (huffmanBits data).length % 8) % 8) true, ?_,
    follow_ones _ hlt, .inl (by simp)⟩
  rw [encodeData, if_pos rfl, flatMap_toBits_packBits]
  · rfl
  · rw [length_padBits]
    omega

theorem length_encodeData (data : Bytes) :
    (encodeData data true).length = ((huffmanBits data).length + 7) / 8 := by
  have h := length_flatMap_toBits (encodeData data true)
  rw [encodeData, if_pos rfl, flatMap_toBits_packBits] at h
  · rw [length_padBits] at h
    rw [encodeData, if_pos rfl]
    omega
  · rw [length_padBits]
    omega

theorem five_mul_length_le (data : Bytes) : 5 * data.length ≤ (huffmanBits data).length := by
  induction data with
  | nil => exact le_rfl
  | cons c data ih =>
      have hc := length_codeword c.toNat c.toNat_lt
      rw [huffmanBits, List.flatMap_cons, List.length_append, List.length_cons]
      rw [huffmanBits] at ih
      omega

/-- No Huffman encoding is shorter than the one that is written. -/
theorem HuffmanDecodes.length_le {raw data : Bytes} (h : HuffmanDecodes raw data) :
    (encodeData data true).length ≤ raw.length := by
  obtain ⟨w, hw, -⟩ := h
  have hlen := congrArg List.length hw
  rw [length_flatMap_toBits, List.length_append] at hlen
  rw [length_encodeData]
  omega

/-! #### Reading and writing strings -/

namespace HPACKString

theorem and_0x80 (b : UInt8) : (b.toNat &&& 0x80 != 0) = decide (128 ≤ b.toNat) := by
  have h : ∀ n : Fin 256, (n.val &&& 0x80 != 0) = decide (128 ≤ n.val) := by decide +kernel
  exact h ⟨b.toNat, b.toNat_lt⟩

/-- The code after the length. -/
theorem parse_cons (b : UInt8) (t : Bytes) :
    parse (b :: t) = (do
      let length ← parseHpackInt 7
      let rawResult ← islice length
      if rawResult.length ≠ length then
        throw (.hpackError "Unexpected end of HPACKString data")
      if !decide (128 ≤ b.toNat) then return ⟨rawResult, false, none, none⟩
      let st ← check (decodeBits (rawResult.flatMap toBits) .init)
      if !(st.codeword.all id) && st.codeword.length ≤ 7 then
        throw (.hpackError "Invalid EOS padding")
      return ⟨st.result, decide (128 ≤ b.toNat), some ⟨st.result.length, 0⟩, none⟩ :
        Reader UInt8 PyError HPACKString) (b :: t) := by
  rw [← and_0x80]
  rfl

theorem parse_nil : parse [] = .error (.hpackError "Unexpected end of data in HPACKString") := rfl

/-- The string that is returned for decoded data. -/
def parsed (data : Bytes) (compressed : Bool) : HPACKString :=
  if compressed then ⟨data, true, some ⟨data.length, 0⟩, none⟩ else ⟨data, false, none, none⟩

/-- The raw bytes of a string are an encoding of its data. -/
def Encodes (raw data : Bytes) (compressed : Bool) : Prop :=
  if compressed then HuffmanDecodes raw data else raw = data

/-- The bit loop and the check of what is left of it. -/
theorem huffmanDecodes_iff {raw d : Bytes} :
    HuffmanDecodes raw d ↔ ∃ st, decodeBits (raw.flatMap toBits) .init = .ok st ∧
      ¬ (!(st.codeword.all id) && decide (st.codeword.length ≤ 7)) = true ∧ st.result = d := by
  constructor
  · intro ⟨w, hw, ⟨t, ht, hnode⟩, hpad⟩
    refine ⟨⟨d, t, w⟩, decodeBits_eq_ok.mpr ⟨hw, ht, hnode⟩, ?_, rfl⟩
    rcases hpad with h | h
    · simp [h]
    · simp [Nat.not_le.mpr h]
  · intro ⟨st, hst, hpad, hd⟩
    obtain ⟨hw, ht, hnode⟩ := decodeBits_eq_ok.mp hst
    refine ⟨st.codeword, hd ▸ hw, ⟨st.path, ht, hnode⟩, ?_⟩
    by_cases h : st.codeword.all id = true
    · exact .inl h
    · right
      simpa [h] using hpad

/-- From the raw bytes to the string. -/
theorem encodes_iff {raw t t' : Bytes} {compressed : Bool} {x : HPACKString} :
    (do
      if !compressed then return ⟨raw, false, none, none⟩
      let st ← check (decodeBits (raw.flatMap toBits) .init)
      if !(st.codeword.all id) && st.codeword.length ≤ 7 then
        throw (.hpackError "Invalid EOS padding")
      return ⟨st.result, compressed, some ⟨st.result.length, 0⟩, none⟩ :
        Reader UInt8 PyError HPACKString) t = .ok (x, t') ↔
      ∃ data, x = parsed data compressed ∧ Encodes raw data compressed ∧ t' = t := by
  cases compressed with
  | false =>
      simp only [Bool.not_false, if_true, pure_apply, Except.ok.injEq, Prod.mk.injEq, parsed,
        Encodes, Bool.false_eq_true, if_false]
      exact ⟨fun ⟨hx, ht⟩ => ⟨raw, hx.symm, rfl, ht.symm⟩,
        fun ⟨data, hx, hraw, ht⟩ => ⟨hraw ▸ hx.symm, ht.symm⟩⟩
  | true =>
      rw [if_neg (by decide)]
      constructor
      · intro h
        obtain ⟨st, s, hs, hrest⟩ := bind_ok.mp h
        obtain ⟨hst, rfl⟩ := check_eq_ok.mp hs
        obtain ⟨hpad, hx⟩ := ite_throw_ok.mp hrest
        simp only [pure_apply, Except.ok.injEq, Prod.mk.injEq] at hx
        obtain ⟨rfl, rfl⟩ := hx
        exact ⟨st.result, rfl, huffmanDecodes_iff.mpr ⟨st, hst, hpad, rfl⟩, rfl⟩
      · intro ⟨data, hx, hraw, ht⟩
        obtain ⟨st, hst, hpad, rfl⟩ := huffmanDecodes_iff.mp hraw
        refine bind_ok.mpr ⟨st, t, check_eq_ok.mpr ⟨hst, rfl⟩, ite_throw_ok.mpr ⟨hpad, ?_⟩⟩
        rw [hx, ht]
        rfl

/-- **What a string is parsed from**: a length, and that many bytes that encode its
data. -/
theorem parse_cons_eq_ok {b : UInt8} {t t' : Bytes} {x : HPACKString} :
    parse (b :: t) = .ok (x, t') ↔
      ∃ raw data, parseHpackInt 7 (b :: t) = .ok (raw.length, raw ++ t') ∧
        raw.length ≤ sysMaxsize ∧ x = parsed data (128 ≤ b.toNat) ∧
        Encodes raw data (128 ≤ b.toNat) := by
  rw [parse_cons, bind_ok]
  constructor
  · intro ⟨n, s, hn, h⟩
    obtain ⟨raw, s', hslice, hrest⟩ := bind_ok.mp h
    obtain ⟨hmax, hraw, hs'⟩ := islice_eq_ok.mp hslice
    obtain ⟨hlen, hdata⟩ := ite_throw_ok.mp hrest
    rw [not_not] at hlen
    obtain ⟨data, hx, henc, rfl⟩ := encodes_iff.mp hdata
    refine ⟨raw, data, ?_, hlen ▸ hmax, hx, henc⟩
    rw [hn, hlen, hraw, hs', List.take_append_drop]
  · intro ⟨raw, data, hn, hmax, hx, henc⟩
    refine ⟨_, _, hn, bind_ok.mpr ⟨raw, t', islice_eq_ok.mpr ⟨hmax, by simp, by simp⟩, ?_⟩⟩
    exact ite_throw_ok.mpr ⟨not_not.mpr rfl, encodes_iff.mpr ⟨data, hx, henc, rfl⟩⟩

/-- A string takes an encoding of its data and at least as many bytes as the length of
that needs. -/
theorem parse_split {s t : Bytes} {x : HPACKString} (h : parse s = .ok (x, t)) :
    ∃ c raw data compressed, s = c ++ (raw ++ t) ∧ raw.length ≤ sysMaxsize ∧
      x = parsed data compressed ∧ Encodes raw data compressed ∧
      (HPACKInt.encode 7 compressed.toNat raw.length).length ≤ c.length := by
  cases s with
  | nil => cases h
  | cons b s =>
      obtain ⟨raw, data, hint, hmax, hx, henc⟩ := parse_cons_eq_ok.mp h
      obtain ⟨c, hc, hlen⟩ := HPACKInt.length_encode_le (by decide) (by decide) hint
        (decide (128 ≤ b.toNat)).toNat
      exact ⟨c, raw, data, _, hc, hmax, hx, henc, hlen⟩

theorem consumes_parse : Consumes 1 parse := by
  intro s x t h
  obtain ⟨c, raw, data, compressed, rfl, -, -, -, hlen⟩ := parse_split h
  have := HPACKInt.length_encode_pos 7 compressed.toNat raw.length
  rw [List.length_append, List.length_append]
  omega

@[simp] theorem parsed_data (data : Bytes) (compressed : Bool) :
    (parsed data compressed).data = data := by
  cases compressed <;> rfl

@[simp] theorem parsed_compressed (data : Bytes) (compressed : Bool) :
    (parsed data compressed).compressed = compressed := by
  cases compressed <;> rfl

theorem encodes_encodeData (data : Bytes) (compressed : Bool) :
    Encodes (encodeData data compressed) data compressed := by
  cases compressed with
  | false => rfl
  | true => exact huffmanDecodes_encodeData data

/-- No encoding of the data is shorter than the one that is written. -/
theorem Encodes.length_le {raw data : Bytes} {compressed : Bool} (h : Encodes raw data compressed) :
    (encodeData data compressed).length ≤ raw.length := by
  cases compressed with
  | false => exact (congrArg List.length h).symm.le
  | true => exact HuffmanDecodes.length_le h

/-- Behind the flag and a length as they are written. -/
theorem parse_encode_eq_ok {compressed : Bool} {L : Nat} {s t : Bytes} {x : HPACKString} :
    parse (HPACKInt.encode 7 compressed.toNat L ++ s) = .ok (x, t) ↔
      ∃ raw data, s = raw ++ t ∧ raw.length = L ∧ L ≤ sysMaxsize ∧
        x = parsed data compressed ∧ Encodes raw data compressed := by
  have hflag : compressed.toNat < 2 ^ (8 - 7) := compressed.toNat_lt
  obtain ⟨b, e, he, hb⟩ := HPACKInt.encode_eq_cons (by decide) hflag L
  have hread := HPACKInt.reads_encode (n := 7) (by decide) (by decide) hflag L s
  have hcomp : decide (128 ≤ b.toNat) = compressed := by
    have := b.toNat_lt
    cases compressed <;> simp only [Bool.toNat_false, Bool.toNat_true] at hb <;>
      simp only [decide_eq_true_eq, decide_eq_false_iff_not] <;> omega
  rw [he, List.cons_append] at hread ⊢
  rw [parse_cons_eq_ok, hread, hcomp]
  simp only [Except.ok.injEq, Prod.mk.injEq]
  constructor
  · intro ⟨raw, data, ⟨hlen, hs⟩, hmax, hx⟩
    exact ⟨raw, data, hs, hlen.symm, hlen ▸ hmax, hx⟩
  · intro ⟨raw, data, hs, hlen, hmax, hx⟩
    exact ⟨raw, data, ⟨hlen.symm, hs⟩, hlen ▸ hmax, hx⟩

/-- The bytes of a string with a given length field. -/
def encode (data : Bytes) (compressed : Bool) (length : Nat) : Bytes :=
  HPACKInt.encode 7 compressed.toNat length ++ encodeData data compressed

theorem reads_encode {data : Bytes} {compressed : Bool}
    (hmax : (encodeData data compressed).length ≤ sysMaxsize) :
    Reads parse (encode data compressed (encodeData data compressed).length)
      (parsed data compressed) := by
  intro s
  rw [encode, List.append_assoc, parse_encode_eq_ok]
  exact ⟨_, data, rfl, rfl, hmax, rfl, encodes_encodeData data compressed⟩

theorem pack_bitstring (x : HPACKString) :
    packBits (padBits none x.bitstring) = encodeData x.data x.compressed := by
  cases hc : x.compressed with
  | true => rw [bitstring, encodeData, if_pos hc, if_pos rfl]; rfl
  | false =>
      have hmod : (8 - (x.data.flatMap toBits).length % 8) % 8 = 0 := by
        rw [length_flatMap_toBits]
        omega
      rw [bitstring, hc, if_neg (by decide), padBits, hmod, List.replicate_zero, List.append_nil,
        packBits_flatMap_toBits]
      rfl

/-- What is written for a string with default padding. -/
theorem toBytes_eq {x : HPACKString} {L : Nat} (hpad : x.padding = none)
    (hL : x.length.getD ⟨(encodeData x.data x.compressed).length, 0⟩ = ⟨L, 0⟩) :
    x.toBytes = .ok (encode x.data x.compressed L) := by
  have hflag : x.compressed.toNat < 2 ^ (8 - 7) := x.compressed.toNat_lt
  have hint := HPACKInt.toBytes_eq (n := 7) (i := ⟨L, 0⟩) (by decide) hflag (by simp) rfl
  unfold toBytes
  rw [hpad, pack_bitstring]
  simp only [hL, hint, ok_bind, pure_eq_ok]
  rfl

end HPACKString

end HttpGarden.Hpack
