import HttpGarden.Lib.BigEndian
import HttpGarden.Lib.Except
import HttpGarden.Lib.Pattern
import HttpGarden.Lib.Reader
import Mathlib.Data.Int.Bitwise
import Mathlib.Data.Nat.Bitwise

/-!
# HttpGarden.Python

The part of the **Python runtime** that the tools rely on: the exceptions they
raise or let through, and the methods of `bytes` and `int` they call, as
documented for CPython.

`bytes` values are lists of `UInt8`. Where the runtime has a limit that the code
can run into (`sys.maxsize`, the digit limit of `int()` and `str()`, the largest
repetition count of a regular expression), it is a named constant here.
-/

namespace HttpGarden

open Lib

/-- A Python `bytes` object. -/
abbrev Bytes := List UInt8

/-- The bytes of a literal `b"…"`. -/
def bytes (s : String) : Bytes := s.toList.map fun c => UInt8.ofNat c.toNat

/-- To check all bytes is to check 256 of them. -/
theorem forall_byte {P : UInt8 → Prop} (h : ∀ i : Fin 256, P (UInt8.ofFin i)) (c : UInt8) : P c :=
  h c.toFin

/-! ### Exceptions -/

/-- What `gzip.decompress` raises on input that is not a gzip file. -/
inductive GzipError
  | badGzipFile
  | eofError
  | zlibError
  deriving Repr, DecidableEq

/-- The exceptions that leave the modelled functions. -/
inductive PyError
  | valueError (msg : String)
  | overflowError (msg : String)
  | assertionError
  | indexError (msg : String)
  | stopIteration
  | gzip (e : GzipError)
  | h2Error (msg : String)
  | hpackError (msg : String)
  deriving Repr, DecidableEq

/-- Does an `except ValueError` clause catch this exception? -/
def PyError.isValueError : PyError → Bool
  | .valueError _ => true
  | _ => false

/-- `sys.maxsize` on the 64-bit platforms the tools run on. -/
def sysMaxsize : Nat := 2 ^ 63 - 1

/-- The most digits that `int(s)` reads and `str(n)` writes in base ten. -/
def intMaxStrDigits : Nat := 4300

/-- `re` refuses repetition counts from this one on. -/
def reMaxRepeat : Nat := 2 ^ 32 - 1

/-! ### Character classes -/

def cr : UInt8 := 13
def lf : UInt8 := 10
def colon : UInt8 := 58

/-- `\s` in a `bytes` pattern. -/
def isSpace (c : UInt8) : Bool := c == 32 || (9 ≤ c && c ≤ 13)

/-- `\d` in a `bytes` pattern. -/
def isDigitByte (c : UInt8) : Bool := 48 ≤ c && c ≤ 57

/-- `[0-9a-fA-F]`. -/
def isHexDigit (c : UInt8) : Bool :=
  isDigitByte c || (97 ≤ c && c ≤ 102) || (65 ≤ c && c ≤ 70)

/-- `[ \t]`. -/
def isBlank (c : UInt8) : Bool := c == 32 || c == 9

/-! ### Methods of `bytes` -/

/-- `bytes.lower`, which only touches ASCII letters. -/
def lower (s : Bytes) : Bytes := s.map fun c => if 65 ≤ c ∧ c ≤ 90 then c + 32 else c

/-- `bytes.isdigit`. -/
def isDigit (s : Bytes) : Bool := !s.isEmpty && s.all isDigitByte

/-- `bytes.isascii`. -/
def isAscii (s : Bytes) : Bool := s.all (· < 128)

/-- `s.strip(b",")`, with the stripped bytes as a class. -/
def strip (c : UInt8 → Bool) (s : Bytes) : Bytes :=
  ((s.dropWhile c).reverse.dropWhile c).reverse

/-- `s.lstrip(…)`, with the stripped bytes as a class. -/
def lstrip (c : UInt8 → Bool) (s : Bytes) : Bytes := s.dropWhile c

/-- `s.rstrip(…)`, with the stripped bytes as a class. -/
def rstrip (c : UInt8 → Bool) (s : Bytes) : Bytes := (s.reverse.dropWhile c).reverse

/-- `bytes.find`: where the leftmost occurrence of `w` starts. -/
def find (w : Bytes) : Bytes → Option Nat
  | [] => if w = [] then some 0 else none
  | c :: s => if w <+: c :: s then some 0 else (find w s).map (· + 1)

/-- The scan behind `bytes.replace` for a non-empty `old`; `skip` bytes of the
current occurrence are still to be dropped. -/
def replaceFrom (old new : Bytes) : Nat → Bytes → Bytes
  | _, [] => []
  | skip + 1, _ :: s => replaceFrom old new skip s
  | 0, c :: s =>
    if old <+: c :: s then new ++ replaceFrom old new (old.length - 1) s
    else c :: replaceFrom old new 0 s

/-- `s.replace(old, new)`; an empty `old` occurs around every byte. -/
def replace (old new s : Bytes) : Bytes :=
  if old = [] then new ++ s.flatMap fun c => c :: new else replaceFrom old new 0 s

/-- The repetition `b"\0" * n` that `bytes(n)` builds. -/
def zeros (n : Nat) : Bytes := List.replicate n 0

/-! ### Integers -/

/-- The value of one digit, in either case for the letters. -/
def digitVal (c : UInt8) : Nat :=
  if isDigitByte c then c.toNat - 48 else if 97 ≤ c then c.toNat - 87 else c.toNat - 55

/-- The number a digit string denotes in the given base. -/
def digitsVal (base : Nat) (s : Bytes) : Nat := s.foldl (fun acc c => acc * base + digitVal c) 0

/-- `int(s)` of a string of decimal digits. -/
def intOfDigits (s : Bytes) : Except PyError Nat :=
  if s.length > intMaxStrDigits then
    .error (.valueError "Exceeds the limit (4300 digits) for integer string conversion")
  else .ok (digitsVal 10 s)

/-- `str(n)` fails for the numbers whose decimal form is over the digit limit. -/
def checkStrDigits (n : Nat) : Except PyError Unit :=
  if (Nat.toDigits 10 n).length > intMaxStrDigits then
    .error (.valueError "Exceeds the limit (4300 digits) for integer string conversion")
  else .ok ()

/-- `n.to_bytes(length, "big")`. -/
def intToBytes (n : Int) (length : Nat) : Except PyError Bytes :=
  if n < 0 then .error (.overflowError "can't convert negative int to unsigned")
  else if 256 ^ length ≤ n.toNat then .error (.overflowError "int too big to convert")
  else .ok (toBE length n.toNat)

/-- An integer in range is written in big-endian form. -/
theorem intToBytes_of_lt {n : Int} {length : Nat} (h0 : 0 ≤ n) (h : n < 256 ^ length) :
    intToBytes n length = .ok (toBE length n.toNat) := by
  have hlt : n.toNat < 256 ^ length := by
    have := Int.toNat_of_nonneg h0
    have : ((n.toNat : Nat) : Int) < ((256 ^ length : Nat) : Int) := by push_cast; omega
    exact_mod_cast this
  rw [intToBytes, if_neg (by omega), if_neg (by omega)]

/-- `bytes([n])` -/
def bytesOfByte (n : Int) : Except PyError Bytes :=
  if 0 ≤ n ∧ n < 0x100 then .ok [UInt8.ofNat n.toNat]
  else .error (.valueError "bytes must be in range(0, 256)")

/-- `x & ~(1 << 31)` -/
def clearTopBit (x : Nat) : Nat := Nat.ldiff x (1 <<< 31)

/-- `bool(x >> 31)` -/
def topBit (x : Nat) : Bool := x >>> 31 != 0

/-- `(b << 31) | x` -/
def withTopBit (b : Bool) (x : Int) : Int := Int.lor ((b.toNat <<< 31 : Nat) : Int) x

theorem clearTopBit_eq {x : Nat} (h : x < 2 ^ 32) : clearTopBit x = x % 2 ^ 31 := by
  apply Nat.eq_of_testBit_eq
  intro i
  rw [clearTopBit, Nat.testBit_ldiff, Nat.testBit_mod_two_pow, Nat.one_shiftLeft,
    Nat.testBit_two_pow]
  by_cases hi : i < 31
  · have hne : ¬ 31 = i := by omega
    simp [hi, hne]
  · by_cases heq : 31 = i
    · simp [← heq]
    · have hlt : x.testBit i = false :=
        Nat.testBit_lt_two_pow (lt_of_lt_of_le h (Nat.pow_le_pow_right (by decide) (by omega)))
      simp [hlt]

theorem topBit_eq {x : Nat} (h : x < 2 ^ 32) : (topBit x).toNat = x / 2 ^ 31 := by
  rw [topBit, Nat.shiftRight_eq_div_pow]
  have hlt : x / 2 ^ 31 < 2 := by omega
  interval_cases x / 2 ^ 31 <;> rfl

theorem withTopBit_eq {x : Int} (b : Bool) (h0 : 0 ≤ x) (h : x < 2 ^ 31) :
    withTopBit b x = b.toNat * 2 ^ 31 + x := by
  lift x to Nat using h0
  have hx : x < 2 ^ 31 := by exact_mod_cast h
  show ((b.toNat <<< 31 ||| x : Nat) : Int) = _
  rw [← Nat.shiftLeft_add_eq_or_of_lt hx, Nat.shiftLeft_eq]
  push_cast
  rfl

/-- Taking 32 bits apart and putting them together again. -/
theorem withTopBit_topBit {x : Nat} (h : x < 2 ^ 32) : withTopBit (topBit x) (clearTopBit x) = x := by
  rw [clearTopBit_eq h, withTopBit_eq _ (by omega) (by omega), topBit_eq h]
  omega

theorem withTopBit_range {x : Int} (b : Bool) (h0 : 0 ≤ x) (h : x < 2 ^ 31) :
    0 ≤ withTopBit b x ∧ withTopBit b x < 256 ^ 4 := by
  rw [withTopBit_eq b h0 h]
  cases b <;> simp only [Bool.toNat_true, Bool.toNat_false] <;> omega

/-- Putting 32 bits together and taking them apart again. -/
theorem topBit_withTopBit {x : Int} (b : Bool) (h0 : 0 ≤ x) (h : x < 2 ^ 31) :
    topBit (withTopBit b x).toNat = b ∧ (clearTopBit (withTopBit b x).toNat : Int) = x := by
  have hr := withTopBit_range b h0 h
  have hlt : (withTopBit b x).toNat < 2 ^ 32 := by omega
  have hb : (topBit (withTopBit b x).toNat).toNat = b.toNat := by
    rw [topBit_eq hlt, withTopBit_eq b h0 h]
    cases b <;> simp only [Bool.toNat_true, Bool.toNat_false] <;> omega
  constructor
  · exact (by decide : ∀ a b : Bool, a.toNat = b.toNat → a = b) _ _ hb
  · rw [clearTopBit_eq hlt, withTopBit_eq b h0 h]
    omega

/-! ### `repr` -/

/-- One byte as `repr` shows it inside quotes `q`. -/
def reprByte (q c : UInt8) : String :=
  let hex (n : Nat) : String := String.ofList [Nat.digitChar (n / 16), Nat.digitChar (n % 16)]
  if c == 92 || c == q then String.ofList ['\\', Char.ofNat c.toNat]
  else if c == 9 then "\\t" else if c == 10 then "\\n" else if c == 13 then "\\r"
  else if 32 ≤ c && c < 127 then String.ofList [Char.ofNat c.toNat]
  else "\\x" ++ hex c.toNat

/-- `repr(s)`: single quotes unless only double quotes avoid escaping. -/
def reprBytes (s : Bytes) : String :=
  let q : UInt8 := if s.contains 39 && !s.contains 34 then 34 else 39
  let quote := String.ofList [Char.ofNat q.toNat]
  "b" ++ quote ++ String.join (s.map (reprByte q)) ++ quote

/-! ### Iterators -/

/-- `bytes(itertools.islice(it, stop))`. -/
def islice (stop : Nat) : Reader UInt8 PyError Bytes :=
  if stop > sysMaxsize then
    throw (.valueError "Stop argument for islice() must be None or an integer: 0 <= x <= sys.maxsize.")
  else Reader.upTo stop

theorem islice_apply {n : Nat} (h : n ≤ sysMaxsize) (s : Bytes) :
    islice n s = .ok (s.take n, s.drop n) := by
  rw [islice, if_neg (by omega)]
  rfl

theorem islice_eq_ok {n : Nat} {s t s' : Bytes} :
    islice n s = .ok (t, s') ↔ n ≤ sysMaxsize ∧ t = s.take n ∧ s' = s.drop n := by
  by_cases h : n ≤ sysMaxsize
  · rw [islice_apply h, Except.ok.injEq, Prod.mk.injEq]
    exact ⟨fun ⟨h₁, h₂⟩ => ⟨h, h₁.symm, h₂.symm⟩, fun ⟨_, h₁, h₂⟩ => ⟨h₁.symm, h₂.symm⟩⟩
  · rw [islice, if_pos (by omega)]
    simp [h]

end HttpGarden
