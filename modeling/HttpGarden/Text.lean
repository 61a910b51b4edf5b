import HttpGarden.Python

/-!
# HttpGarden.Text

The methods of Python's `str` that the tools call, as documented for CPython: the Latin-1 and the
`unicode-escape` codecs, `int()` of a text, and lower case.

A text is a list of characters here. What a codec decodes is a list of code points, since the
escapes can spell surrogates.
-/

namespace HttpGarden

/-! ### Codecs -/

/-- `s.encode("latin1")`, by code points; `none` is a `UnicodeEncodeError`. -/
def encodeLatin1 (s : List Nat) : Option Bytes :=
  s.mapM fun c => if c < 256 then some (UInt8.ofNat c) else none

/-- The code points of a text. -/
def codePoints (s : String) : List Nat := s.toList.map Char.toNat

/-- Where the decoder is: in plain text, behind a backslash, or inside an escape, with how many
digits may or must follow and the value so far. -/
inductive EscapeState
  | text
  | escape
  | octal (left value : Nat)
  | hex (left value : Nat)
  | named
  | name (acc : Bytes)
  deriving Repr, DecidableEq

/-- `\a`, `\b` and so on. -/
def simpleEscapes : List (UInt8 × Nat) :=
  [(92, 92), (39, 39), (34, 34), (98, 8), (102, 12), (116, 9), (110, 10), (114, 13), (118, 11),
    (97, 7)]

/-- How many hexadecimal digits `\x`, `\u` and `\U` ask for. -/
def hexEscapes : List (UInt8 × Nat) := [(120, 2), (117, 4), (85, 8)]

/-- `[0-7]`. -/
def isOctalDigit (c : UInt8) : Bool := 48 ≤ c && c ≤ 55

/-- What one byte behind a backslash does: the code points it stands for, and the state after it. -/
def escapeByte (c : UInt8) : List Nat × EscapeState :=
  match simpleEscapes.lookup c, hexEscapes.lookup c with
  | some v, _ => ([v], .text)
  | none, some n => ([], .hex n 0)
  | none, none =>
    if c = lf then ([], .text)
    else if isOctalDigit c then ([], .octal 2 (digitVal c))
    else if c = 78 then ([], .named)
    -- an escape that means nothing stays as it is
    else ([92, c.toNat], .text)

/-- What one byte of plain text does. -/
def textByte (c : UInt8) : List Nat × EscapeState :=
  if c = 92 then ([], .escape) else ([c.toNat], .text)

/-- One byte of the input of the decoder; `none` is a `UnicodeDecodeError`. The names of
`\N\x7b…\x7d` are looked up in the Unicode database. -/
def decodeByte (unicodeName? : Bytes → Option Nat) (st : EscapeState) (c : UInt8) :
    Option (List Nat × EscapeState) :=
  match st with
  | .text => some (textByte c)
  | .escape => some (escapeByte c)
  | .octal left value =>
    if left ≠ 0 ∧ isOctalDigit c then some ([], .octal (left - 1) (8 * value + digitVal c))
    else some (value :: (textByte c).1, (textByte c).2)
  | .hex left value =>
    if isHexDigit c then
      let value := 16 * value + digitVal c
      if left = 1 then if value ≤ 0x10ffff then some ([value], .text) else none
      else some ([], .hex (left - 1) value)
    else none
  | .named => if c = 123 then some ([], .name []) else none
  | .name acc =>
    if c = 125 then (unicodeName? acc).map fun v => ([v], .text)
    else some ([], .name (acc ++ [c]))

/-- What is left at the end of the input. -/
def decodeEnd : EscapeState → Option (List Nat)
  | .text => some []
  | .octal _ value => some [value]
  | _ => none

/-- The decoder from the given state on. -/
def decodeFrom (unicodeName? : Bytes → Option Nat) : EscapeState → Bytes → Option (List Nat)
  | st, [] => decodeEnd st
  | st, c :: s => do
    let (out, st) ← decodeByte unicodeName? st c
    return out ++ (← decodeFrom unicodeName? st s)

/-- `s.decode("unicode-escape")`, by code points. -/
def decodeUnicodeEscape (unicodeName? : Bytes → Option Nat) (s : Bytes) : Option (List Nat) :=
  decodeFrom unicodeName? .text s

/-! ### Numbers -/

/-- The zeros of the decimal digits in Unicode 15 (Python 3.12), each of which nine more digits
follow. -/
def digitZeros : List Nat :=
  [0x30, 0x660, 0x6f0, 0x7c0, 0x966, 0x9e6, 0xa66, 0xae6, 0xb66, 0xbe6, 0xc66, 0xce6, 0xd66,
    0xde6, 0xe50, 0xed0, 0xf20, 0x1040, 0x1090, 0x17e0, 0x1810, 0x1946, 0x19d0, 0x1a80, 0x1a90,
    0x1b50, 0x1bb0, 0x1c40, 0x1c50, 0xa620, 0xa8d0, 0xa900, 0xa9d0, 0xa9f0, 0xaa50, 0xabf0, 0xff10,
    0x104a0, 0x10d30, 0x11066, 0x110f0, 0x11136, 0x111d0, 0x112f0, 0x11450, 0x114d0, 0x11650,
    0x116c0, 0x11730, 0x118e0, 0x11950, 0x11c50, 0x11d50, 0x11da0, 0x11f50, 0x16a60,
    0x16ac0, 0x16b50, 0x1d7ce, 0x1d7d8, 0x1d7e2, 0x1d7ec, 0x1d7f6, 0x1e140, 0x1e2f0, 0x1e4f0,
    0x1e950, 0x1fbf0]

/-- The value of a decimal digit. -/
def decimal? (c : Char) : Option Nat :=
  (digitZeros.find? fun z => z ≤ c.toNat && c.toNat < z + 10).map (c.toNat - ·)

/-- The white space around a number. The separators `\x1c` to `\x1f` are not part of it. -/
def isIntSpace (c : Char) : Bool :=
  (9 ≤ c.toNat && c.toNat ≤ 13) || (0x2000 ≤ c.toNat && c.toNat ≤ 0x200a) ||
    [0x20, 0x85, 0xa0, 0x1680, 0x2028, 0x2029, 0x202f, 0x205f, 0x3000].contains c.toNat

/-- Digits, with single underscores between them. -/
def decimals? : List Char → Option (List Nat)
  | [] => none
  | [c] => (decimal? c).map ([·])
  | c :: '_' :: s => do return (← decimal? c) :: (← decimals? s)
  | c :: s => do return (← decimal? c) :: (← decimals? s)

/-- The digits behind the sign, up to the digit limit. -/
def natOfDigits? (s : List Char) : Option Nat :=
  match decimals? s with
  | none => none
  | some ds => if ds.length > intMaxStrDigits then none else some (ds.foldl (10 * · + ·) 0)

/-- `int(s)` of a text; `none` is a `ValueError`. -/
def intOfText (s : String) : Option Int :=
  match ((s.toList.dropWhile isIntSpace).reverse.dropWhile isIntSpace).reverse with
  | '-' :: digits => (natOfDigits? digits).map fun n => -(n : Int)
  | '+' :: digits => (natOfDigits? digits).map Int.ofNat
  | digits => (natOfDigits? digits).map Int.ofNat

/-! ### Lower case -/

/-- The lower case of one character, as far as it is made of ASCII: besides the capital letters
this is so for the Kelvin sign only. -/
def lowerChar (c : Char) : Char :=
  if 65 ≤ c.toNat ∧ c.toNat ≤ 90 then Char.ofNat (c.toNat + 32)
  else if c.toNat = 0x212a then 'k'
  else c

/-- `s.lower()`, as far as a comparison with an ASCII word can tell. -/
def lowerText (s : String) : String := String.ofList (s.toList.map lowerChar)

example : intOfText " -1_0 " = some (-10) := by decide

end HttpGarden
