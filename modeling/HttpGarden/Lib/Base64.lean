import Mathlib.Tactic.IntervalCases
import Mathlib.Data.Fintype.Basic

/-!
# HttpGarden.Lib.Base64

**Base64**, with padding. `encode` is the standard encoding. `decode` is lenient: it skips what is
not in the alphabet, and complete padding ends the text.

* `decode_encode`: encoding and decoding.
* `decodeFrom_encode_append`: what follows an encoding is read on if there is no padding, and
  ignored if there is.
* `encode_append`: an encoding can be made in pieces of three bytes each.
-/

namespace HttpGarden.Lib.Base64

/-! ### The alphabet -/

/-- The character of a six-bit value. -/
def digit (v : Nat) : UInt8 :=
  if v < 26 then UInt8.ofNat (65 + v)
  else if v < 52 then UInt8.ofNat (71 + v)
  else if v < 62 then UInt8.ofNat (v - 4)
  else if v = 62 then 43
  else 47

/-- The value of a character of the alphabet. -/
def value? (c : UInt8) : Option Nat :=
  if 65 ≤ c ∧ c ≤ 90 then some (c.toNat - 65)
  else if 97 ≤ c ∧ c ≤ 122 then some (c.toNat - 71)
  else if 48 ≤ c ∧ c ≤ 57 then some (c.toNat + 4)
  else if c = 43 then some 62
  else if c = 47 then some 63
  else none

/-- `=` -/
def pad : UInt8 := 61

theorem value_digit_fin : ∀ v : Fin 64, digit v ≠ pad ∧ value? (digit v) = some v.val := by
  decide +kernel

theorem digit_ne_pad {v : Nat} (h : v < 64) : digit v ≠ pad := (value_digit_fin ⟨v, h⟩).1

theorem value_digit {v : Nat} (h : v < 64) : value? (digit v) = some v := (value_digit_fin ⟨v, h⟩).2

/-! ### Encoding -/

/-- The four characters of three bytes. -/
def quad (a b c : UInt8) : List UInt8 :=
  [digit (a.toNat / 4), digit (a.toNat % 4 * 16 + b.toNat / 16),
    digit (b.toNat % 16 * 4 + c.toNat / 64), digit (c.toNat % 64)]

/-- The encoding: three bytes at a time, and padding behind the last one or two. -/
def encode : List UInt8 → List UInt8
  | [] => []
  | [a] => [digit (a.toNat / 4), digit (a.toNat % 4 * 16), pad, pad]
  | [a, b] =>
    [digit (a.toNat / 4), digit (a.toNat % 4 * 16 + b.toNat / 16), digit (b.toNat % 16 * 4), pad]
  | a :: b :: c :: s => quad a b c ++ encode s

/-- How long the encoding of `n` bytes is. -/
def encodedLength (n : Nat) : Nat := 4 * ((n + 2) / 3)

theorem length_encode (s : List UInt8) : (encode s).length = encodedLength s.length := by
  induction s using encode.induct with
  | case1 => rfl
  | case2 a => simp [encode, encodedLength]
  | case3 a b => simp [encode, encodedLength]
  | case4 a b c s ih =>
      rw [encode, List.length_append, ih, quad, encodedLength, encodedLength]
      simp only [List.length_cons, List.length_nil]
      omega

/-- **In pieces**: all but the last must be of whole groups of bytes. -/
theorem encode_append {s : List UInt8} (t : List UInt8) (h : s.length % 3 = 0) :
    encode (s ++ t) = encode s ++ encode t := by
  induction s using encode.induct with
  | case1 => rfl
  | case2 a => cases h
  | case3 a b => cases h
  | case4 a b c s ih =>
      have hlength : s.length % 3 = 0 := by
        simp only [List.length_cons] at h
        omega
      simp only [List.cons_append, encode, ih hlength, List.append_assoc]

/-- What the characters of an encoding have in common. -/
theorem forall_encode {P : UInt8 → Prop} (hpad : P pad) (hdigit : ∀ v < 64, P (digit v))
    (s : List UInt8) : ∀ c ∈ encode s, P c := by
  have hd (n : Nat) (h : n < 64) := hdigit n h
  induction s using encode.induct with
  | case1 => exact fun _ h => absurd h List.not_mem_nil
  | case2 a =>
      have ha := a.toNat_lt
      simp only [encode, List.forall_mem_cons]
      exact ⟨hd _ (by omega), hd _ (by omega), hpad, hpad, List.forall_mem_nil _⟩
  | case3 a b =>
      have ha := a.toNat_lt
      have hb := b.toNat_lt
      simp only [encode, List.forall_mem_cons]
      exact ⟨hd _ (by omega), hd _ (by omega), hd _ (by omega), hpad, List.forall_mem_nil _⟩
  | case4 a b c s ih =>
      have ha := a.toNat_lt
      have hb := b.toNat_lt
      have hc := c.toNat_lt
      rw [encode, List.forall_mem_append]
      simp only [quad, List.forall_mem_cons]
      exact ⟨⟨hd _ (by omega), hd _ (by omega), hd _ (by omega), hd _ (by omega),
        List.forall_mem_nil _⟩, ih⟩

/-! ### Decoding -/

/-- Where the decoder is: how many characters of the current group it has seen, the bits of the last
one that are still to come out, and how much padding there was since. -/
structure Group where
  seen : Nat
  bits : Nat
  pads : Nat
  deriving Repr, DecidableEq

/-- Between two groups. -/
def Group.start : Group := ⟨0, 0, 0⟩

/-- The next value: the byte that is complete with it, and the state after it. -/
def Group.next (g : Group) (v : Nat) : List UInt8 × Group :=
  match g.seen with
  | 0 => ([], ⟨1, v, 0⟩)
  | 1 => ([UInt8.ofNat (g.bits * 4 + v / 16)], ⟨2, v % 16, 0⟩)
  | 2 => ([UInt8.ofNat (g.bits * 16 + v / 4)], ⟨3, v % 4, 0⟩)
  | _ => ([UInt8.ofNat (g.bits * 64 + v)], .start)

/-- The decoder from the given state on; `none` is an incomplete group at the end. -/
def decodeFrom (g : Group) : List UInt8 → Option (List UInt8)
  | [] => if g.seen = 0 then some [] else none
  | c :: s =>
    if c = pad then
      if 2 ≤ g.seen then
        -- no more input is parsed behind the padding
        if 4 ≤ g.seen + (g.pads + 1) then some [] else decodeFrom { g with pads := g.pads + 1 } s
      else decodeFrom g s
    else
      match value? c with
      | none => decodeFrom g s
      | some v => (decodeFrom (g.next v).2 s).map ((g.next v).1 ++ ·)

/-- The lenient decoder. -/
def decode (s : List UInt8) : Option (List UInt8) := decodeFrom .start s

theorem decodeFrom_digit (g : Group) {v : Nat} (h : v < 64) (s : List UInt8) :
    decodeFrom g (digit v :: s) = (decodeFrom (g.next v).2 s).map ((g.next v).1 ++ ·) := by
  rw [decodeFrom, if_neg (digit_ne_pad h), value_digit h]

theorem ofNat_eq {n : Nat} {c : UInt8} (h : n = c.toNat) : UInt8.ofNat n = c := by
  rw [h, UInt8.ofNat_toNat]

/-- A whole group is three bytes. -/
theorem decodeFrom_quad (a b c : UInt8) (s : List UInt8) :
    decodeFrom .start (quad a b c ++ s) = (decodeFrom .start s).map ([a, b, c] ++ ·) := by
  have ha := a.toNat_lt
  have hb := b.toNat_lt
  have hc := c.toNat_lt
  simp only [quad, List.cons_append, List.nil_append]
  rw [decodeFrom_digit _ (by omega), decodeFrom_digit _ (by omega), decodeFrom_digit _ (by omega),
    decodeFrom_digit _ (by omega)]
  simp only [Group.next, Group.start, Option.map_map, Function.comp_def, List.nil_append,
    List.cons_append]
  rw [ofNat_eq (c := a) (by omega), ofNat_eq (c := b) (by omega), ofNat_eq (c := c) (by omega)]

theorem decodeFrom_pad {g : Group} (h2 : 2 ≤ g.seen) (h4 : 4 ≤ g.seen + (g.pads + 1))
    (s : List UInt8) : decodeFrom g (pad :: s) = some [] := by
  rw [decodeFrom, if_pos rfl, if_pos h2, if_pos h4]

theorem decodeFrom_pad_pad (bits : Nat) (s : List UInt8) :
    decodeFrom ⟨2, bits, 0⟩ (pad :: pad :: s) = some [] := by
  rw [decodeFrom, if_pos rfl, if_pos (le_refl 2), if_neg (show ¬ 4 ≤ 2 + (0 + 1) by decide)]
  exact decodeFrom_pad (le_refl 2) (le_refl 4) s

/-- **What follows an encoding**: it is read on behind whole groups, and behind padding it is
ignored. -/
theorem decodeFrom_encode_append (s t : List UInt8) :
    decode (encode s ++ t) = if s.length % 3 = 0 then (decode t).map (s ++ ·) else some s := by
  unfold decode
  induction s using encode.induct with
  | case1 => simp [encode]
  | case2 a =>
      have ha := a.toNat_lt
      simp only [encode, List.cons_append, List.nil_append]
      rw [decodeFrom_digit _ (by omega), decodeFrom_digit _ (by omega)]
      simp only [Group.next, Group.start]
      rw [decodeFrom_pad_pad, ofNat_eq (c := a) (by omega)]
      rfl
  | case3 a b =>
      have ha := a.toNat_lt
      have hb := b.toNat_lt
      simp only [encode, List.cons_append, List.nil_append]
      rw [decodeFrom_digit _ (by omega), decodeFrom_digit _ (by omega),
        decodeFrom_digit _ (by omega)]
      simp only [Group.next, Group.start]
      rw [decodeFrom_pad (Nat.le_succ 2) (le_refl 4), ofNat_eq (c := a) (by omega),
        ofNat_eq (c := b) (by omega)]
      rfl
  | case4 a b c s ih =>
      have hlength : (a :: b :: c :: s).length % 3 = s.length % 3 := by
        simp only [List.length_cons]
        omega
      rw [encode, List.append_assoc, decodeFrom_quad, ih, hlength]
      split
      · simp only [Option.map_map, Function.comp_def, List.cons_append, List.nil_append]
      · rfl

/-- **Encoding and decoding.** -/
theorem decode_encode (s : List UInt8) : decode (encode s) = some s := by
  have h := decodeFrom_encode_append s []
  rw [List.append_nil] at h
  rw [h]
  split
  · simp [decode, decodeFrom, Group.start]
  · rfl

end HttpGarden.Lib.Base64
