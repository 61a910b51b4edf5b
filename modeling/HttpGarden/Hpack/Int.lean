import HttpGarden.Python
import Mathlib.Data.List.ModifyLast
import Mathlib.Data.Set.Function

/-!
# HttpGarden.Hpack.Int

`hpack.py`: **prefixed integers**. A number that fits the low bits of the first
byte is written there; a larger one continues in bytes of seven bits each, least
significant first.

A longer encoding of the same number is the shortest one with zero padding behind it:

* `reads_padded_encode`: what `to_bytes` writes is read back, whatever follows.
* `exists_padded_encode`: what is read is a padded encoding.
* `toBytes_bijOn`: numbers with an amount of padding and byte strings correspond one to one.
-/

namespace HttpGarden.Hpack

open Lib Lib.Reader

/-! ### Reading -/

/-- The `for` loop over the bytes after the prefix. -/
def parseContinuation (result shift : Nat) : Reader UInt8 PyError Nat
  | [] => .error (.hpackError "Unexpected end of HPACKInt data")
  | b :: data =>
    let result := result + (b.toNat &&& 0x7F) <<< shift
    if (b.toNat >>> 7) &&& 1 = 0 then .ok (result, data)
    else parseContinuation result (shift + 7) data

/-- `_parse_hpack_int` -/
def parseHpackInt (prefixLen : Nat) : Reader UInt8 PyError Nat := do
  if ¬ (1 ≤ prefixLen ∧ prefixLen ≤ 8) then throw .assertionError
  let prefixByte ← next (.hpackError "Unexpected end of HPACKInt data")
  let prefixMask := (1 <<< prefixLen) - 1
  let result := prefixByte.toNat &&& prefixMask
  if result ≠ prefixMask then return result
  parseContinuation result 0

/-- `HPACKInt4`, …, `HPACKInt7`, by the number of bits in the first byte. -/
structure HPACKInt (prefixLen : Nat) where
  val : Int
  paddingAmount : Int := 0
  deriving Repr, DecidableEq

abbrev HPACKInt5 := HPACKInt 5

abbrev HPACKInt7 := HPACKInt 7

namespace HPACKInt

variable {prefixLen : Nat}

/-- The classmethod `parse`, which sets no padding. -/
def parse (prefixLen : Nat) : Reader UInt8 PyError (HPACKInt prefixLen) := do
  return ⟨← parseHpackInt prefixLen, 0⟩

/-! ### Writing -/

/-- The `while` loop that writes what is left of a number, and its last byte. -/
def continuation (val : Nat) : Bytes :=
  if _h : val ≥ 128 then UInt8.ofNat (0x80 ||| (val &&& 0x7F)) :: continuation (val / 128)
  else [UInt8.ofNat val]
termination_by val
decreasing_by omega

/-- `result[-1] |= 0x80; result += [0x80] * (padding_amount - 1) + [0]` -/
def addZeroPadding (paddingAmount : Int) (result : Bytes) : Bytes :=
  result.modifyLast (· ||| 0x80) ++ List.replicate (paddingAmount - 1).toNat 0x80 ++ [0]

def toBytes (self : HPACKInt prefixLen) (preprefixBits : Int := 0) : Except PyError Bytes := do
  if ¬ (0 ≤ preprefixBits ∧ preprefixBits < (1 <<< (8 - prefixLen) : Nat)) then
    throw (.hpackError "Invalid HPACKInt preprefix")
  let shifted : Nat := preprefixBits.toNat <<< prefixLen
  let prefixMask : Nat := (1 <<< prefixLen) - 1
  if self.val < prefixMask then
    if self.paddingAmount ≠ 0 then
      throw (.hpackError "Cannot zero-pad an HPACKInt that fits in the prefix")
    bytesOfByte (Int.lor shifted self.val)
  else
    let first ← bytesOfByte (Int.lor shifted prefixMask)
    let result := first ++ continuation (self.val - prefixMask).toNat
    return if self.paddingAmount ≠ 0 then addZeroPadding self.paddingAmount result else result

/-! ### The bytes after the prefix -/

theorem continuation_of_lt {u : Nat} (h : u < 128) : continuation u = [UInt8.ofNat u] := by
  rw [continuation, dif_neg (by omega)]

theorem continuation_of_ge {u : Nat} (h : 128 ≤ u) :
    continuation u = UInt8.ofNat (128 + u % 128) :: continuation (u / 128) := by
  have hor : 0x80 ||| (u &&& 0x7F) = 128 + u % 128 := by
    rw [show u &&& 0x7F = u % 128 from Nat.and_two_pow_sub_one_eq_mod u 7]
    exact (Nat.two_pow_add_eq_or_of_lt (i := 7) (by omega) 1).symm
  rw [continuation, dif_pos h, hor]

/-- The low seven bits of a byte, and its top bit. -/
theorem and_7F (b : UInt8) : b.toNat &&& 0x7F = b.toNat % 128 :=
  Nat.and_two_pow_sub_one_eq_mod b.toNat 7

theorem topBit_eq_zero (b : UInt8) : (b.toNat >>> 7) &&& 1 = 0 ↔ b.toNat < 128 := by
  have hb := b.toNat_lt
  rw [show (1 : Nat) = 2 ^ 1 - 1 from rfl, Nat.and_two_pow_sub_one_eq_mod,
    Nat.shiftRight_eq_div_pow]
  omega

/-- One step of the loop. -/
theorem parseContinuation_cons (r k : Nat) (b : UInt8) (s : Bytes) :
    parseContinuation r k (b :: s) =
      if b.toNat < 128 then .ok (r + b.toNat % 128 * 2 ^ k, s)
      else parseContinuation (r + b.toNat % 128 * 2 ^ k) (k + 7) s := by
  rw [parseContinuation]
  simp only [and_7F, Nat.shiftLeft_eq, topBit_eq_zero]

/-! #### Zero padding -/

/-- What is written with `k` bytes of padding. -/
def padded (k : Nat) (s : Bytes) : Bytes := if k = 0 then s else addZeroPadding k s

@[simp] theorem padded_zero (s : Bytes) : padded 0 s = s := rfl

theorem padded_succ (k : Nat) (s : Bytes) :
    padded (k + 1) s = s.modifyLast (· ||| 0x80) ++ List.replicate k 0x80 ++ [0] := by
  have hpred : ((k + 1 : Nat) - 1 : Int).toNat = k := by omega
  rw [padded, if_neg (Nat.succ_ne_zero k), addZeroPadding, hpred]

/-- The bytes before the last one stay as they are. -/
theorem padded_append (k : Nat) (s : Bytes) {t : Bytes} (ht : t ≠ []) :
    padded k (s ++ t) = s ++ padded k t := by
  cases k with
  | zero => rfl
  | succ k =>
      rw [padded_succ, padded_succ, List.modifyLast_append_of_right_ne_nil _ _ _ ht,
        List.append_assoc, List.append_assoc, List.append_assoc]

theorem padded_cons (k : Nat) (b : UInt8) {s : Bytes} (hs : s ≠ []) :
    padded k (b :: s) = b :: padded k s :=
  padded_append k [b] hs

/-- Padding behind one byte, one byte at a time. -/
theorem padded_singleton_succ {u : Nat} (hu : u < 128) (k : Nat) :
    padded (k + 1) [UInt8.ofNat u] = UInt8.ofNat (128 + u) :: padded k [0] := by
  have hor : ∀ u < 128, UInt8.ofNat u ||| 0x80 = UInt8.ofNat (128 + u) := by decide
  have hlast : [UInt8.ofNat u].modifyLast (· ||| 0x80) = [UInt8.ofNat (128 + u)] := by
    rw [← hor u hu]
    rfl
  rw [padded_succ, hlast]
  cases k with
  | zero => rfl
  | succ k =>
      rw [padded_succ, List.replicate_succ]
      rfl

theorem length_padded (k : Nat) {s : Bytes} (hs : s ≠ []) :
    (padded k s).length = s.length + k := by
  obtain ⟨s, b, rfl⟩ := (List.eq_nil_or_concat s).resolve_left hs
  cases k with
  | zero => rfl
  | succ k =>
      rw [padded_succ, List.concat_eq_append, List.modifyLast_concat]
      simp
      omega

theorem toNat_ofNat_continued (u : Nat) :
    (UInt8.ofNat (128 + u % 128)).toNat = 128 + u % 128 := by
  rw [UInt8.toNat_ofNat']
  omega

/-- A byte with the top bit, whose other bits are those of `u`, adds these and goes on. -/
theorem parseContinuation_continued (r k u : Nat) (s : Bytes) :
    parseContinuation r k (UInt8.ofNat (128 + u % 128) :: s) =
      parseContinuation (r + u % 128 * 2 ^ k) (k + 7) s := by
  have hmod : (128 + u % 128) % 128 = u % 128 := by omega
  rw [parseContinuation_cons, toNat_ofNat_continued, if_neg (by omega), hmod]

theorem reads_padded_zero (r k j : Nat) : Reads (parseContinuation r k) (padded j [0]) r := by
  intro s
  induction j generalizing k with
  | zero =>
      rw [padded_zero, List.singleton_append, parseContinuation_cons, if_pos (by decide)]
      simp
  | succ j ih =>
      have hcons : padded (j + 1) [0] = UInt8.ofNat (128 + 0 % 128) :: padded j [0] :=
        padded_singleton_succ (by decide) j
      rw [hcons, List.cons_append, parseContinuation_continued, Nat.zero_mod, Nat.zero_mul,
        Nat.add_zero, ih]

theorem continuation_ne_nil (u : Nat) : continuation u ≠ [] := by
  rw [continuation]
  split <;> exact List.cons_ne_nil _ _

/-- **The loop** reads what was written, with any padding. -/
theorem reads_padded_continuation (r k j u : Nat) :
    Reads (parseContinuation r k) (padded j (continuation u)) (r + u * 2 ^ k) := by
  intro s
  induction u using Nat.strong_induction_on generalizing r k with
  | _ u ih =>
      by_cases h : u < 128
      · rw [continuation_of_lt h]
        cases j with
        | zero =>
            have hval : (UInt8.ofNat u).toNat = u := by
              rw [UInt8.toNat_ofNat']
              omega
            rw [padded_zero, List.singleton_append, parseContinuation_cons, hval, if_pos h,
              Nat.mod_eq_of_lt h]
        | succ j =>
            have hmod : UInt8.ofNat (128 + u) = UInt8.ofNat (128 + u % 128) := by
              rw [Nat.mod_eq_of_lt h]
            rw [padded_singleton_succ h, hmod, List.cons_append, parseContinuation_continued,
              reads_padded_zero, Nat.mod_eq_of_lt h]
      · have hsum : r + u % 128 * 2 ^ k + u / 128 * 2 ^ (k + 7) = r + u * 2 ^ k := by
          calc r + u % 128 * 2 ^ k + u / 128 * 2 ^ (k + 7)
              = r + (u % 128 + 128 * (u / 128)) * 2 ^ k := by ring
            _ = r + u * 2 ^ k := by rw [Nat.mod_add_div]
        rw [continuation_of_ge (by omega), padded_cons j _ (continuation_ne_nil _),
          List.cons_append, parseContinuation_continued, ih (u / 128) (by omega), hsum]

theorem reads_continuation (r k u : Nat) :
    Reads (parseContinuation r k) (continuation u) (r + u * 2 ^ k) :=
  reads_padded_continuation r k 0 u

/-- **Nothing else** is read by the loop. -/
theorem exists_padded_continuation {r k v : Nat} {s s' : Bytes}
    (h : parseContinuation r k s = .ok (v, s')) :
    ∃ j u, s = padded j (continuation u) ++ s' ∧ v = r + u * 2 ^ k := by
  induction s generalizing r k with
  | nil => cases h
  | cons b s ih =>
      rw [parseContinuation_cons] at h
      by_cases hb : b.toNat < 128
      · rw [if_pos hb, Except.ok.injEq, Prod.mk.injEq] at h
        obtain ⟨rfl, rfl⟩ := h
        refine ⟨0, b.toNat, ?_, by rw [Nat.mod_eq_of_lt hb]⟩
        rw [continuation_of_lt hb, UInt8.ofNat_toNat]
        rfl
      · rw [if_neg hb] at h
        obtain ⟨j, u, rfl, rfl⟩ := ih h
        have hbyte : UInt8.ofNat (128 + b.toNat % 128) = b := by
          have hlt := b.toNat_lt
          rw [show 128 + b.toNat % 128 = b.toNat by omega, UInt8.ofNat_toNat]
        rcases Nat.eq_zero_or_pos u with rfl | hu
        · -- only zeros follow, so they are padding
          refine ⟨j + 1, b.toNat % 128, ?_, by ring⟩
          have hmod : b.toNat % 128 < 128 := Nat.mod_lt _ (by decide)
          rw [continuation_of_lt hmod, padded_singleton_succ hmod, hbyte,
            continuation_of_lt (by decide)]
          rfl
        · have hlow : (b.toNat % 128 + u * 128) % 128 = b.toNat % 128 := by omega
          have hhigh : (b.toNat % 128 + u * 128) / 128 = u := by omega
          have hge : 128 ≤ b.toNat % 128 + u * 128 := by omega
          refine ⟨j, b.toNat % 128 + u * 128, ?_, by ring⟩
          rw [continuation_of_ge hge, hlow, hhigh, hbyte,
            padded_cons j b (continuation_ne_nil u)]
          rfl

/-! #### Lengths -/

/-- No number below `128 ^ k` needs more than `k` bytes. -/
theorem length_continuation_le {k u : Nat} (hk : 1 ≤ k) (hu : u < 128 ^ k) :
    (continuation u).length ≤ k := by
  induction k, hk using Nat.le_induction generalizing u with
  | base => rw [continuation_of_lt (by simpa using hu), List.length_singleton]
  | succ k hk ih =>
      by_cases h : u < 128
      · rw [continuation_of_lt h, List.length_singleton]
        omega
      · have hlt : u / 128 < 128 ^ k := by
          rw [Nat.pow_succ] at hu
          omega
        rw [continuation_of_ge (by omega), List.length_cons]
        exact Nat.succ_le_succ (ih hlt)

theorem lt_pow_length_continuation (u : Nat) : u < 128 ^ (continuation u).length := by
  induction u using Nat.strong_induction_on with
  | _ u ih =>
      by_cases h : u < 128
      · rw [continuation_of_lt h, List.length_singleton]
        omega
      · have := ih (u / 128) (by omega)
        rw [continuation_of_ge (by omega), List.length_cons, Nat.pow_succ]
        omega

/-! ### Whole integers -/

/-- The shortest encoding of `v` behind the bits `p`. -/
def encode (n p v : Nat) : Bytes :=
  if v < 2 ^ n - 1 then [UInt8.ofNat (p * 2 ^ n + v)]
  else UInt8.ofNat (p * 2 ^ n + (2 ^ n - 1)) :: continuation (v - (2 ^ n - 1))

theorem encode_ne_nil (n p v : Nat) : encode n p v ≠ [] := by
  unfold encode
  split <;> exact List.cons_ne_nil _ _

section

variable {n p v : Nat}

/-- The first byte is `p` followed by `v`. -/
theorem first_byte (h8 : n ≤ 8) (hp : p < 2 ^ (8 - n)) (hv : v < 2 ^ n) :
    (UInt8.ofNat (p * 2 ^ n + v)).toNat = p * 2 ^ n + v ∧
      bytesOfByte (Int.lor ((p <<< n : Nat) : Int) v) = .ok [UInt8.ofNat (p * 2 ^ n + v)] := by
  have hlt : p * 2 ^ n + v < 256 := by
    calc p * 2 ^ n + v < (p + 1) * 2 ^ n := by rw [Nat.succ_mul]; omega
      _ ≤ 2 ^ (8 - n) * 2 ^ n := Nat.mul_le_mul_right _ hp
      _ = 256 := by rw [← Nat.pow_add, Nat.sub_add_cancel h8]
  have hor : (p <<< n) ||| v = p * 2 ^ n + v := by
    rw [← Nat.shiftLeft_add_eq_or_of_lt hv, Nat.shiftLeft_eq]
  constructor
  · rw [UInt8.toNat_ofNat']
    omega
  · show bytesOfByte ((p <<< n ||| v : Nat) : Int) = _
    rw [hor, bytesOfByte, if_pos (by omega), Int.toNat_natCast]

theorem parseHpackInt_cons (h1 : 1 ≤ n) (h8 : n ≤ 8) (b : UInt8) (s : Bytes) :
    parseHpackInt n (b :: s) =
      if b.toNat % 2 ^ n = 2 ^ n - 1 then parseContinuation (2 ^ n - 1) 0 s
      else .ok (b.toNat % 2 ^ n, s) := by
  have hmask : (1 <<< n) - 1 = 2 ^ n - 1 := by rw [Nat.one_shiftLeft]
  unfold parseHpackInt
  simp only [h1, h8, and_self, not_true_eq_false, if_false, bind_apply, next_cons, ok_bind, hmask,
    Nat.and_two_pow_sub_one_eq_mod]
  by_cases h : b.toNat % 2 ^ n = 2 ^ n - 1
  · rw [if_pos h, if_neg (by simpa using h), h]
  · rw [if_neg h, if_pos h]
    rfl

theorem parseHpackInt_nil (h1 : 1 ≤ n) (h8 : n ≤ 8) :
    parseHpackInt n [] = .error (.hpackError "Unexpected end of HPACKInt data") := by
  unfold parseHpackInt
  simp only [h1, h8, and_self, not_true_eq_false, if_false, bind_apply, next_nil, error_bind]

theorem cast_mask (n : Nat) : ((2 ^ n - 1 : Nat) : Int) = 2 ^ n - 1 := by
  rw [Nat.cast_pred (Nat.two_pow_pos n), Nat.cast_pow, Nat.cast_ofNat]

/-- Only a number that fills the first byte can be padded. -/
theorem toBytes_eq_padded {i : HPACKInt n} (h8 : n ≤ 8) (hp : p < 2 ^ (8 - n)) (h0 : 0 ≤ i.val)
    (hpad0 : 0 ≤ i.paddingAmount) (hpad : i.val < 2 ^ n - 1 → i.paddingAmount = 0) :
    i.toBytes p = .ok (padded i.paddingAmount.toNat (encode n p i.val.toNat)) := by
  obtain ⟨v, hv⟩ := Int.eq_ofNat_of_zero_le h0
  obtain ⟨k, hk⟩ := Int.eq_ofNat_of_zero_le hpad0
  have hpos : 0 < 2 ^ n := Nat.two_pow_pos n
  have hp0 : 0 ≤ (p : Int) := by omega
  have hsub : ((v : Int) - (2 ^ n - 1 : Nat)).toNat = v - (2 ^ n - 1) := by omega
  have hfits : v < 2 ^ n - 1 → k = 0 := by
    intro hlt
    have hmask := cast_mask n
    have hzero := hpad (by omega)
    omega
  unfold toBytes
  simp only [Nat.one_shiftLeft, hp0, true_and, Nat.cast_lt, hp, not_true_eq_false, if_false, hk,
    ne_eq, Int.toNat_natCast, hv, hsub, Nat.cast_eq_zero, ite_not]
  rw [encode]
  by_cases hlt : v < 2 ^ n - 1
  · rw [if_pos hlt, if_pos hlt, hfits hlt, if_pos rfl, (first_byte h8 hp (by omega)).2]
    rfl
  · rw [if_neg hlt, if_neg hlt, (first_byte h8 hp (by omega)).2, ok_bind, pure_eq_ok]
    rfl

theorem toBytes_eq {i : HPACKInt n} (h8 : n ≤ 8) (hp : p < 2 ^ (8 - n)) (h0 : 0 ≤ i.val)
    (hpad : i.paddingAmount = 0) : i.toBytes p = .ok (encode n p i.val.toNat) := by
  rw [toBytes_eq_padded h8 hp h0 hpad.ge fun _ => hpad, hpad]
  rfl

/-- **Reading** gives the number back, with any padding it can have. -/
theorem reads_padded_encode (h1 : 1 ≤ n) (h8 : n ≤ 8) (hp : p < 2 ^ (8 - n)) {v k : Nat}
    (hpad : v < 2 ^ n - 1 → k = 0) : Reads (parseHpackInt n) (padded k (encode n p v)) v := by
  intro s
  have hpos : 0 < 2 ^ n := Nat.two_pow_pos n
  rw [encode]
  by_cases hv : v < 2 ^ n - 1
  · have hb := (first_byte (v := v) h8 hp (by omega)).1
    have hmod : (p * 2 ^ n + v) % 2 ^ n = v := by
      rw [Nat.mul_comm, Nat.mul_add_mod, Nat.mod_eq_of_lt (by omega)]
    rw [if_pos hv, hpad hv, padded_zero, List.singleton_append, parseHpackInt_cons h1 h8, hb, hmod,
      if_neg (by omega)]
  · have hb := (first_byte (v := 2 ^ n - 1) h8 hp (by omega)).1
    have hmod : (p * 2 ^ n + (2 ^ n - 1)) % 2 ^ n = 2 ^ n - 1 := by
      rw [Nat.mul_comm, Nat.mul_add_mod, Nat.mod_eq_of_lt (by omega)]
    have hsum : 2 ^ n - 1 + (v - (2 ^ n - 1)) * 2 ^ 0 = v := by omega
    rw [if_neg hv, padded_cons k _ (continuation_ne_nil _), List.cons_append,
      parseHpackInt_cons h1 h8, hb, hmod, if_pos rfl, reads_padded_continuation, hsum]

/-- The shortest encoding is read back. -/
theorem reads_encode (h1 : 1 ≤ n) (h8 : n ≤ 8) (hp : p < 2 ^ (8 - n)) (v : Nat) :
    Reads (parseHpackInt n) (encode n p v) v :=
  reads_padded_encode h1 h8 hp fun _ => rfl

/-- **Nothing else** is read. -/
theorem exists_padded_encode (h1 : 1 ≤ n) (h8 : n ≤ 8) {b : UInt8} {s s' : Bytes}
    (h : parseHpackInt n (b :: s) = .ok (v, s')) :
    ∃ k, (v < 2 ^ n - 1 → k = 0) ∧ b :: s = padded k (encode n (b.toNat / 2 ^ n) v) ++ s' := by
  rw [parseHpackInt_cons h1 h8] at h
  have hpos : 0 < 2 ^ n := Nat.two_pow_pos n
  have hlt : b.toNat % 2 ^ n < 2 ^ n := Nat.mod_lt _ hpos
  have hbyte : UInt8.ofNat (b.toNat / 2 ^ n * 2 ^ n + b.toNat % 2 ^ n) = b := by
    rw [Nat.div_add_mod', UInt8.ofNat_toNat]
  by_cases hb : b.toNat % 2 ^ n = 2 ^ n - 1
  · rw [if_pos hb] at h
    obtain ⟨k, u, rfl, rfl⟩ := exists_padded_continuation h
    have hsub : 2 ^ n - 1 + u * 2 ^ 0 - (2 ^ n - 1) = u := by omega
    rw [hb] at hbyte
    refine ⟨k, fun hv => by omega, ?_⟩
    rw [encode, if_neg (by omega), hsub, hbyte, padded_cons k b (continuation_ne_nil u)]
    rfl
  · rw [if_neg hb, Except.ok.injEq, Prod.mk.injEq] at h
    obtain ⟨rfl, rfl⟩ := h
    refine ⟨0, fun _ => rfl, ?_⟩
    rw [encode, if_pos (by omega), hbyte]
    rfl

/-- The bits in front do not change the length. -/
theorem length_encode_eq (p q v : Nat) : (encode n p v).length = (encode n q v).length := by
  unfold encode
  split <;> rfl

/-- Whatever bytes an integer is read from, they are at least as many as its
shortest encoding has. -/
theorem length_encode_le (h1 : 1 ≤ n) (h8 : n ≤ 8) {s s' : Bytes}
    (h : parseHpackInt n s = .ok (v, s')) (p : Nat) :
    ∃ c, s = c ++ s' ∧ (encode n p v).length ≤ c.length := by
  cases s with
  | nil =>
      rw [parseHpackInt_nil h1 h8] at h
      cases h
  | cons b s =>
      obtain ⟨k, -, hs⟩ := exists_padded_encode h1 h8 h
      refine ⟨_, hs, ?_⟩
      rw [length_padded k (encode_ne_nil n _ v), length_encode_eq p (b.toNat / 2 ^ n)]
      omega

theorem length_encode_pos (n p v : Nat) : 1 ≤ (encode n p v).length :=
  List.length_pos_of_ne_nil (encode_ne_nil n p v)

theorem consumes_parseHpackInt (h1 : 1 ≤ n) (h8 : n ≤ 8) : Consumes 1 (parseHpackInt n) := by
  intro s v s' h
  obtain ⟨c, rfl, hlen⟩ := length_encode_le h1 h8 h 0
  have := length_encode_pos n 0 v
  rw [List.length_append]
  omega

/-- The bits in front of the integer can be told from the first byte. -/
theorem padded_encode_eq_cons (h8 : n ≤ 8) (hp : p < 2 ^ (8 - n)) {v k : Nat}
    (hpad : v < 2 ^ n - 1 → k = 0) :
    ∃ b s, padded k (encode n p v) = b :: s ∧ b.toNat / 2 ^ n = p := by
  have hpos : 0 < 2 ^ n := Nat.two_pow_pos n
  have hdiv : ∀ w < 2 ^ n, (p * 2 ^ n + w) / 2 ^ n = p := by
    intro w hw
    rw [Nat.mul_comm, Nat.mul_add_div hpos, Nat.div_eq_of_lt hw, Nat.add_zero]
  rw [encode]
  by_cases hv : v < 2 ^ n - 1
  · rw [if_pos hv, hpad hv]
    exact ⟨_, _, rfl, by rw [(first_byte h8 hp (by omega)).1, hdiv _ (by omega)]⟩
  · rw [if_neg hv, padded_cons k _ (continuation_ne_nil _)]
    exact ⟨_, _, rfl, by rw [(first_byte h8 hp (by omega)).1, hdiv _ (by omega)]⟩

theorem encode_eq_cons (h8 : n ≤ 8) (hp : p < 2 ^ (8 - n)) (v : Nat) :
    ∃ b s, encode n p v = b :: s ∧ b.toNat / 2 ^ n = p :=
  padded_encode_eq_cons h8 hp fun _ => rfl

/-! ### One to one -/

/-- A number and an amount of padding that it can have. -/
structure Encodable (i : HPACKInt n) : Prop where
  val : 0 ≤ i.val
  paddingAmount : 0 ≤ i.paddingAmount
  fits : i.val < 2 ^ n - 1 → i.paddingAmount = 0

/-- The bytes are read whole, and `p` stands in front of the number. -/
def ReadsWhole (n p : Nat) (s : Bytes) : Prop :=
  (∃ v, parseHpackInt n s = .ok (v, [])) ∧ ∃ b t, s = b :: t ∧ b.toNat / 2 ^ n = p

/-- What is written for the number. -/
theorem Encodable.toBytes_eq {i : HPACKInt n} (hi : i.Encodable) (h8 : n ≤ 8)
    (hp : p < 2 ^ (8 - n)) :
    i.toBytes p = .ok (padded i.paddingAmount.toNat (encode n p i.val.toNat)) :=
  toBytes_eq_padded h8 hp hi.val hi.paddingAmount hi.fits

theorem Encodable.padding_eq_zero {i : HPACKInt n} (hi : i.Encodable)
    (hv : i.val.toNat < 2 ^ n - 1) : i.paddingAmount.toNat = 0 := by
  have hval := hi.val
  have hmask := cast_mask n
  have hzero := hi.fits (by omega)
  omega

theorem Encodable.reads {i : HPACKInt n} (hi : i.Encodable) (h1 : 1 ≤ n) (h8 : n ≤ 8)
    (hp : p < 2 ^ (8 - n)) :
    Reads (parseHpackInt n) (padded i.paddingAmount.toNat (encode n p i.val.toNat)) i.val.toNat :=
  reads_padded_encode h1 h8 hp hi.padding_eq_zero

theorem toBytes_mapsTo (h1 : 1 ≤ n) (h8 : n ≤ 8) (hp : p < 2 ^ (8 - n)) :
    Set.MapsTo (fun i : HPACKInt n => i.toBytes p) {i | i.Encodable}
      (Except.ok '' {s | ReadsWhole n p s}) := by
  intro i hi
  have hwhole := hi.reads h1 h8 hp []
  rw [List.append_nil] at hwhole
  exact ⟨_, ⟨⟨_, hwhole⟩, padded_encode_eq_cons h8 hp hi.padding_eq_zero⟩,
    (hi.toBytes_eq h8 hp).symm⟩

theorem toBytes_injOn (h1 : 1 ≤ n) (h8 : n ≤ 8) (hp : p < 2 ^ (8 - n)) :
    Set.InjOn (fun i : HPACKInt n => i.toBytes p) {i | i.Encodable} := by
  intro i hi j hj h
  have heq : padded i.paddingAmount.toNat (encode n p i.val.toNat) =
      padded j.paddingAmount.toNat (encode n p j.val.toNat) := by
    have hbytes : i.toBytes p = j.toBytes p := h
    rw [hi.toBytes_eq h8 hp, hj.toBytes_eq h8 hp] at hbytes
    exact Except.ok.inj hbytes
  have hval : i.val.toNat = j.val.toNat := by
    have hread := hi.reads h1 h8 hp []
    rw [heq, hj.reads h1 h8 hp [], Except.ok.injEq, Prod.mk.injEq] at hread
    exact hread.1.symm
  have hlen := congrArg List.length heq
  rw [hval, length_padded _ (encode_ne_nil n p _), length_padded _ (encode_ne_nil n p _)] at hlen
  have hi₀ := hi.val
  have hj₀ := hj.val
  have hi₁ := hi.paddingAmount
  have hj₁ := hj.paddingAmount
  obtain ⟨v, k⟩ := i
  obtain ⟨w, l⟩ := j
  simp only [mk.injEq]
  simp only at hval hlen hi₀ hj₀ hi₁ hj₁
  omega

theorem toBytes_surjOn (h1 : 1 ≤ n) (h8 : n ≤ 8) (hp : p < 2 ^ (8 - n)) :
    Set.SurjOn (fun i : HPACKInt n => i.toBytes p) {i | i.Encodable}
      (Except.ok '' {s | ReadsWhole n p s}) := by
  intro x hx
  obtain ⟨s, ⟨⟨v, hread⟩, b, t, rfl, hb⟩, rfl⟩ := hx
  obtain ⟨k, hfits, hs⟩ := exists_padded_encode h1 h8 hread
  rw [hb, List.append_nil] at hs
  have hmask := cast_mask n
  have hi : Encodable (⟨v, k⟩ : HPACKInt n) := by
    refine ⟨Int.natCast_nonneg v, Int.natCast_nonneg k, fun hv => ?_⟩
    have hzero := hfits (by simp only at hv; omega)
    rw [hzero]
    rfl
  refine ⟨⟨v, k⟩, hi, ?_⟩
  rw [hs]
  exact hi.toBytes_eq h8 hp

/-- **Integers are encoded bijectively**: numbers, with an amount of padding where they fill the
first byte, and the byte strings that are read whole behind the same bits. Each is read back from
its bytes, whatever follows. -/
theorem toBytes_bijOn (h1 : 1 ≤ n) (h8 : n ≤ 8) (hp : p < 2 ^ (8 - n)) :
    Set.BijOn (fun i : HPACKInt n => i.toBytes p) {i | i.Encodable}
        (Except.ok '' {s | ReadsWhole n p s}) ∧
      ∀ i : HPACKInt n, i.Encodable → ∀ s, i.toBytes p = .ok s →
        ∀ t, parseHpackInt n (s ++ t) = .ok (i.val.toNat, t) := by
  refine ⟨⟨toBytes_mapsTo h1 h8 hp, toBytes_injOn h1 h8 hp, toBytes_surjOn h1 h8 hp⟩, ?_⟩
  intro i hi s hs t
  rw [hi.toBytes_eq h8 hp, Except.ok.injEq] at hs
  rw [← hs]
  exact hi.reads h1 h8 hp t

end

theorem toBytes_bijOn_five :
    Set.BijOn (fun i : HPACKInt 5 => i.toBytes (1 : Nat)) {i | i.Encodable}
        (Except.ok '' {s | ReadsWhole 5 1 s}) ∧
      ∀ i : HPACKInt 5, i.Encodable → ∀ s, i.toBytes (1 : Nat) = .ok s →
        ∀ t, parseHpackInt 5 (s ++ t) = .ok (i.val.toNat, t) :=
  toBytes_bijOn (by decide) (by decide) (by decide)

end HPACKInt

end HttpGarden.Hpack
