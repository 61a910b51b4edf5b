import HttpGarden.Python

/-!
# HttpGarden.Digits

**Numbers in digits**: what `str(n)` and `hex(n)` write, and that `int(s)` reads it back
in the same base.
-/

namespace HttpGarden

open Lib

/-- The digits of a number as bytes: `str(n).encode()` in base ten, `hex(n)[2:].encode()`
in base sixteen. -/
def digitBytes (base n : Nat) : Bytes := (Nat.toDigits base n).map fun c => UInt8.ofNat c.toNat

/-- The byte of one digit. -/
def digitByte (d : Nat) : UInt8 := UInt8.ofNat (Nat.digitChar d).toNat

theorem digitVal_digitByte {d : Nat} (h : d < 16) :
    digitVal (digitByte d) = d ∧ isHexDigit (digitByte d) = true := by
  have hall : ∀ d < 16, digitVal (digitByte d) = d ∧ isHexDigit (digitByte d) = true := by
    decide +kernel
  exact hall d h

theorem isDigitByte_digitByte {d : Nat} (h : d < 10) : isDigitByte (digitByte d) = true := by
  have hall : ∀ d < 10, isDigitByte (digitByte d) = true := by decide +kernel
  exact hall d h

theorem digitBytes_of_lt {base n : Nat} (h : n < base) : digitBytes base n = [digitByte n] := by
  rw [digitBytes, Nat.toDigits_of_lt_base h]
  rfl

theorem digitBytes_of_ge {base n : Nat} (hbase : 1 < base) (h : base ≤ n) :
    digitBytes base n = digitBytes base (n / base) ++ [digitByte (n % base)] := by
  rw [digitBytes, Nat.toDigits_of_base_le hbase h, List.map_append]
  rfl

theorem digitBytes_ne_nil (base n : Nat) : digitBytes base n ≠ [] := by
  rw [digitBytes, ne_eq, List.map_eq_nil_iff]
  exact Nat.toDigits_ne_nil

/-- Every byte is a digit of the base. -/
theorem exists_digit_of_mem {base n : Nat} (hbase : 1 < base) {c : UInt8}
    (hc : c ∈ digitBytes base n) : ∃ d < base, c = digitByte d := by
  induction n using Nat.strong_induction_on with
  | _ n ih =>
      by_cases h : n < base
      · rw [digitBytes_of_lt h, List.mem_singleton] at hc
        exact ⟨n, h, hc⟩
      · rw [digitBytes_of_ge hbase (by omega), List.mem_append, List.mem_singleton] at hc
        rcases hc with hc | hc
        · exact ih (n / base) (Nat.div_lt_self (by omega) hbase) hc
        · exact ⟨n % base, Nat.mod_lt _ (by omega), hc⟩

theorem digitsVal_append_singleton (base : Nat) (s : Bytes) (c : UInt8) :
    digitsVal base (s ++ [c]) = digitsVal base s * base + digitVal c := by
  rw [digitsVal, List.foldl_append]
  rfl

/-- **Reading** the digits gives the number. -/
theorem digitsVal_digitBytes {base : Nat} (hbase : 1 < base) (hle : base ≤ 16) (n : Nat) :
    digitsVal base (digitBytes base n) = n := by
  induction n using Nat.strong_induction_on with
  | _ n ih =>
      by_cases h : n < base
      · have hval := digitsVal_append_singleton base [] (digitByte n)
        rw [(digitVal_digitByte (by omega)).1] at hval
        rw [digitBytes_of_lt h, ← List.nil_append [digitByte n], hval]
        exact Nat.zero_mul base ▸ Nat.zero_add n
      · have hmod : n % base < base := Nat.mod_lt _ (by omega)
        rw [digitBytes_of_ge hbase (by omega), digitsVal_append_singleton,
          ih (n / base) (Nat.div_lt_self (by omega) hbase), (digitVal_digitByte (by omega)).1]
        exact Nat.div_add_mod' n base

end HttpGarden
