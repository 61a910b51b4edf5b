import HttpGarden.Lib.Base64
import HttpGarden.Python

/-!
# HttpGarden.Images.Libevent

How the **libevent harness** (`http-garden.c`) reports a request body: `dump_request_cb` takes it
out of the input buffer in pieces, and encodes each piece by itself.

A full piece is not a whole number of groups, so its encoding ends in padding.
`dumpBody_eq_encode_iff` says for which bodies this does not show.
-/

namespace HttpGarden.Libevent

open Lib Base64

/-! ### The encoder -/

/-- A `char`, which is signed, as an `int`. -/
def int (c : UInt8) : BitVec 32 := c.toBitVec.signExtend 32

/-- `basis_64`. -/
def basis64 : Bytes := bytes "ABCDEFGHIJKLMNOPQRSTUVWXYZabcdefghijklmnopqrstuvwxyz0123456789+/"

/-- `basis_64[i]`. -/
def basis (i : BitVec 32) : UInt8 := basis64.getD i.toNat 0

/-- `=` -/
def equals : UInt8 := 61

/-- `Base64encode`, without the `'\0'` at the end. The loop goes on as long as there are three bytes
left. -/
def base64encode : Bytes → Bytes
  | a :: b :: c :: string =>
    [basis ((int a).sshiftRight 2 &&& 0x3F),
      basis ((int a &&& 0x3) <<< 4 ||| (int b &&& 0xF0).sshiftRight 4),
      basis ((int b &&& 0xF) <<< 2 ||| (int c &&& 0xC0).sshiftRight 6),
      basis (int c &&& 0x3F)] ++ base64encode string
  | [a, b] =>
    [basis ((int a).sshiftRight 2 &&& 0x3F),
      basis ((int a &&& 0x3) <<< 4 ||| (int b &&& 0xF0).sshiftRight 4),
      basis ((int b &&& 0xF) <<< 2),
      equals]
  | [a] =>
    [basis ((int a).sshiftRight 2 &&& 0x3F),
      basis ((int a &&& 0x3) <<< 4),
      equals,
      equals]
  | [] => []

theorem basis_ofNat {v : Nat} (h : v < 64) : basis (BitVec.ofNat 32 v) = digit v :=
  (by decide +kernel : ∀ v : Fin 64, basis (BitVec.ofNat 32 v) = digit v) ⟨v, h⟩

/-! The bits of one byte that go into an index. -/

theorem int_high_six (a : UInt8) :
    (int a).sshiftRight 2 &&& 0x3F = BitVec.ofNat 32 (a.toNat / 4) :=
  forall_byte (P := fun a => (int a).sshiftRight 2 &&& 0x3F = BitVec.ofNat 32 (a.toNat / 4))
    (by decide +kernel) a

theorem int_low_two (a : UInt8) : (int a &&& 0x3) <<< 4 = BitVec.ofNat 32 (a.toNat % 4 * 16) :=
  forall_byte (P := fun a => (int a &&& 0x3) <<< 4 = BitVec.ofNat 32 (a.toNat % 4 * 16))
    (by decide +kernel) a

theorem int_high_four (a : UInt8) :
    (int a &&& 0xF0).sshiftRight 4 = BitVec.ofNat 32 (a.toNat / 16) :=
  forall_byte (P := fun a => (int a &&& 0xF0).sshiftRight 4 = BitVec.ofNat 32 (a.toNat / 16))
    (by decide +kernel) a

theorem int_low_four (a : UInt8) : (int a &&& 0xF) <<< 2 = BitVec.ofNat 32 (a.toNat % 16 * 4) :=
  forall_byte (P := fun a => (int a &&& 0xF) <<< 2 = BitVec.ofNat 32 (a.toNat % 16 * 4))
    (by decide +kernel) a

theorem int_high_two (a : UInt8) :
    (int a &&& 0xC0).sshiftRight 6 = BitVec.ofNat 32 (a.toNat / 64) :=
  forall_byte (P := fun a => (int a &&& 0xC0).sshiftRight 6 = BitVec.ofNat 32 (a.toNat / 64))
    (by decide +kernel) a

theorem int_low_six (a : UInt8) : int a &&& 0x3F = BitVec.ofNat 32 (a.toNat % 64) :=
  forall_byte (P := fun a => int a &&& 0x3F = BitVec.ofNat 32 (a.toNat % 64)) (by decide +kernel) a

/-- Bits that are shifted, with others below them. -/
theorem or_below (k : Nat) {x y m : Nat} (hm : m = 2 ^ k) (hy : y < m) :
    BitVec.ofNat 32 (x * m) ||| BitVec.ofNat 32 y = BitVec.ofNat 32 (x * m + y) := by
  subst hm
  rw [← BitVec.ofNat_or, ← Nat.shiftLeft_eq, Nat.shiftLeft_add_eq_or_of_lt hy]

/-- The code computes the standard encoding, the sign of `char` notwithstanding. -/
theorem base64encode_eq (string : Bytes) : base64encode string = encode string := by
  induction string using encode.induct with
  | case1 => rfl
  | case2 a =>
      have ha := a.toNat_lt
      rw [base64encode, int_high_six, int_low_two, basis_ofNat (by omega), basis_ofNat (by omega)]
      rfl
  | case3 a b =>
      have ha := a.toNat_lt
      have hb := b.toNat_lt
      rw [base64encode, int_high_six, int_low_two, int_high_four, int_low_four,
        or_below 4 (m := 16) rfl (by omega), basis_ofNat (by omega), basis_ofNat (by omega),
        basis_ofNat (by omega)]
      rfl
  | case4 a b c string ih =>
      have ha := a.toNat_lt
      have hb := b.toNat_lt
      have hc := c.toNat_lt
      rw [base64encode, ih, int_high_six, int_low_two, int_high_four, int_low_four, int_high_two,
        int_low_six, or_below 4 (m := 16) rfl (by omega), or_below 2 (m := 4) rfl (by omega),
        basis_ofNat (by omega), basis_ofNat (by omega), basis_ofNat (by omega),
        basis_ofNat (by omega)]
      rfl

/-! ### The loop -/

/-- `sizeof(cbuf)` -/
def cbufSize : Nat := 128

/-- What the loop of `dump_request_cb` writes between the quotes of the body field.
`evbuffer_remove` takes as much as there is, up to the size of `cbuf`. -/
def dumpBody (buf : Bytes) : Bytes :=
  if buf = [] then []
  else base64encode (buf.take cbufSize) ++ dumpBody (buf.drop cbufSize)
termination_by buf.length
decreasing_by
  rename_i hne
  have hpos := List.length_pos_iff.mpr hne
  rw [List.length_drop, cbufSize]
  omega

theorem dumpBody_of_le {body : Bytes} (h : body.length ≤ cbufSize) : dumpBody body = encode body := by
  rw [dumpBody]
  split
  · next hnil => rw [hnil, encode]
  · rw [List.take_of_length_le h, List.drop_of_length_le h, base64encode_eq, dumpBody, if_pos rfl,
      List.append_nil]

/-- **What is read back** is the first piece. -/
theorem decode_dumpBody (body : Bytes) : decode (dumpBody body) = some (body.take cbufSize) := by
  by_cases h : body.length ≤ cbufSize
  · rw [dumpBody_of_le h, List.take_of_length_le h, decode_encode]
  · have hne : body ≠ [] := by
      rintro rfl
      exact h (Nat.zero_le _)
    have hlength : (body.take cbufSize).length % 3 ≠ 0 := by
      rw [List.length_take_of_le (by omega), cbufSize]
      decide
    rw [dumpBody, if_neg hne, base64encode_eq, decodeFrom_encode_append, if_neg hlength]

/-- **A body is reported as a whole** exactly if it fits into one piece. -/
theorem dumpBody_eq_encode_iff (body : Bytes) :
    (dumpBody body = encode body ∧ decode (dumpBody body) = some body) ↔
      body.length ≤ cbufSize := by
  rw [decode_dumpBody, Option.some.injEq, List.take_eq_self_iff]
  exact ⟨fun h => h.2, fun h => ⟨dumpBody_of_le h, h⟩⟩

/-- One byte more than a piece is too much. -/
theorem not_dumpBody_eq_encode :
    ¬ ∀ body : Bytes, dumpBody body = encode body ∧ decode (dumpBody body) = some body := by
  intro h
  have hread := (h (List.replicate 129 97)).2
  rw [decode_dumpBody, Option.some.injEq, List.take_eq_self_iff, List.length_replicate] at hread
  exact absurd hread (by decide)

end HttpGarden.Libevent
