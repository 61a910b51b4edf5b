import Mathlib.Tactic
import Mathlib.Data.List.Basic

/-!
# HttpGarden.Lib.BigEndian

Unsigned integers as big-endian byte strings of a fixed width, and the two
round trips: a number that fits is read back (`ofBE_toBE`), and a byte string is
the encoding of the number it denotes (`toBE_ofBE`).
-/

namespace HttpGarden.Lib

/-- The number a big-endian byte string denotes. -/
def ofBE (s : List UInt8) : Nat := s.foldl (fun acc c => acc * 256 + c.toNat) 0

/-- The low `8 * k` bits of `n` as `k` bytes, most significant first. -/
def toBE : Nat → Nat → List UInt8
  | 0, _ => []
  | k + 1, n => toBE k (n / 256) ++ [UInt8.ofNat n]

@[simp] theorem length_toBE (k n : Nat) : (toBE k n).length = k := by
  induction k generalizing n with
  | zero => rfl
  | succ k ih => simp [toBE, ih]

theorem ofBE_concat (s : List UInt8) (c : UInt8) : ofBE (s ++ [c]) = ofBE s * 256 + c.toNat := by
  simp [ofBE]

theorem ofBE_lt (s : List UInt8) : ofBE s < 256 ^ s.length := by
  induction s using List.reverseRecOn with
  | nil => simp [ofBE]
  | append_singleton s c ih =>
      have hc := c.toNat_lt
      rw [ofBE_concat, List.length_append, List.length_singleton, Nat.pow_succ]
      omega

theorem ofBE_lt_of_length {s : List UInt8} {k : Nat} (h : s.length = k) : ofBE s < 256 ^ k :=
  h ▸ ofBE_lt s

theorem ofBE_toBE {k n : Nat} (h : n < 256 ^ k) : ofBE (toBE k n) = n := by
  induction k generalizing n with
  | zero => simp at h; simp [h, toBE, ofBE]
  | succ k ih =>
      rw [toBE, ofBE_concat, ih (by rw [Nat.pow_succ] at h; omega)]
      simp only [UInt8.toNat_ofNat']
      omega

theorem toBE_ofBE (s : List UInt8) : toBE s.length (ofBE s) = s := by
  induction s using List.reverseRecOn with
  | nil => rfl
  | append_singleton s c ih =>
      have hc := c.toNat_lt
      have hdiv : (ofBE s * 256 + c.toNat) / 256 = ofBE s := by omega
      have hmod : UInt8.ofNat (ofBE s * 256 + c.toNat) = c := by
        apply UInt8.toNat_inj.mp
        simp only [UInt8.toNat_ofNat']
        omega
      rw [ofBE_concat, List.length_append, List.length_singleton, toBE, hdiv, ih, hmod]

/-- Byte strings of one length are determined by the number they denote. -/
theorem ofBE_inj {s t : List UInt8} (hl : s.length = t.length) (h : ofBE s = ofBE t) : s = t := by
  rw [← toBE_ofBE s, ← toBE_ofBE t, hl, h]

end HttpGarden.Lib
