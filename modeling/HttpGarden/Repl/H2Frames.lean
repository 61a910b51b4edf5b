import HttpGarden.Http2.Framing
import HttpGarden.Lib.ReadUntil
import HttpGarden.Repl.Pipeline
import HttpGarden.Text

/-!
# HttpGarden.Repl.H2Frames

The **frame language of `h2frames`**: `parse_h2frames_statement` and the two parsers that it calls,
on one iterator of tokens.

A frame is a sequence of clauses in brackets. The `match` over the clauses has no case for other
tokens, and the checks of a frame raise an exception of their own. `meets_iff` says for which tokens
the parser nevertheless does what the language asks for.
-/

namespace HttpGarden.Repl.H2Frames

open Lib Lib.Reader Http2

/-! ### The parsers -/

/-- A parser takes tokens from an iterator. -/
abbrev Parser := Reader String (FramesError PyError)

/-- `raise REPLParseError(e)` -/
def raise {α : Type} (e : String) : Parser α := throw (.replParseError e)

/-- `safe_next` -/
def safeNext : Parser (Option String)
  | [] => .ok (none, [])
  | token :: it => .ok (some token, it)

/-- `parse_h2frametype_statement` -/
def parseH2FrametypeStatement : Parser Int := do
  match ← safeNext with
  | none => raise "Unexpected start of type statement"
  | some token =>
    match lowerText token with
    | "data" => return H2FrameType.DATA
    | "headers" => return H2FrameType.HEADERS
    | "priority" => return H2FrameType.PRIORITY
    | "rst_stream" => return H2FrameType.RST_STREAM
    | "settings" => return H2FrameType.SETTINGS
    | "push_promise" => return H2FrameType.PUSH_PROMISE
    | "ping" => return H2FrameType.PING
    | "goaway" => return H2FrameType.GOAWAY
    | "window_update" => return H2FrameType.WINDOW_UPDATE
    | "continuation" => return H2FrameType.CONTINUATION
    | _ =>
      match intOfText token with
      | none => raise "Unexpected value of type statement"
      | some intToken =>
        if 0 ≤ intToken ∧ intToken < 256 then return intToken else raise "type out of range!"

/-- The loop in `parse_h2flags_statement`. -/
def flagsLoop (result : Nat) : Parser Nat
  | [] => .error (.replParseError "Unexpected end of flags statement!")
  | token :: it =>
    match lowerText token with
    | "0" | "end_stream" | "ack" => flagsLoop (result ||| 1 <<< 0) it
    | "1" => flagsLoop (result ||| 1 <<< 1) it
    | "2" | "end_headers" => flagsLoop (result ||| 1 <<< 2) it
    | "3" | "padded" => flagsLoop (result ||| 1 <<< 3) it
    | "4" => flagsLoop (result ||| 1 <<< 4) it
    | "5" | "priority" => flagsLoop (result ||| 1 <<< 5) it
    | "6" => flagsLoop (result ||| 1 <<< 6) it
    | "7" => flagsLoop (result ||| 1 <<< 7) it
    | "\x7d" => .ok (result, it)
    | _ => .error (.replParseError "Unexpected value of flags statement")

/-- `parse_h2flags_statement` -/
def parseH2FlagsStatement : Parser H2Flags := do
  match ← safeNext with
  | none => raise "Unexpected start of flags statement (should begin with '\x7b')!"
  | some initialToken =>
    if lowerText initialToken ≠ "\x7b" then
      raise "Unexpected start of flags statement (should begin with '\x7b')!"
    else
      let result ← flagsLoop 0
      check ((H2Flags.parse (.inr result)).mapError .raised)

/-- `s.encode("latin1").decode("unicode-escape").encode("latin1")` -/
def unescape (unicodeName? : Bytes → Option Nat) (s : String) : Except PayloadError Bytes :=
  match encodeLatin1 (codePoints s) with
  | none => .error .unicodeEncodeError
  | some b =>
    match decodeUnicodeEscape unicodeName? b with
    | none => .error .unicodeDecodeError
    | some points =>
      match encodeLatin1 points with
      | none => .error .unicodeEncodeError
      | some payload => .ok payload

/-- What one pass of the loop over a frame assigns, if anything. -/
inductive Clause
  | typ (typ : Int)
  | flags (flags : H2Flags)
  | streamId (streamId : Int)
  | reserved
  | payload (payload : Bytes)
  | nothing
  deriving DecidableEq

/-- The variables of that loop. -/
structure FrameState where
  typ : Option Int := none
  flags : H2Flags := {}
  reserved : Bool := false
  streamId : Int := 0
  payload : Bytes := []
  deriving DecidableEq

def FrameState.assign (st : FrameState) : Clause → FrameState
  | .typ typ => { st with typ := some typ }
  | .flags flags => { st with flags := flags }
  | .streamId streamId => { st with streamId := streamId }
  | .reserved => { st with reserved := true }
  | .payload payload => { st with payload := payload }
  | .nothing => st

section

variable (unicodeName? : Bytes → Option Nat)

/-- One pass of the loop over a frame; `none` is the `break`. -/
def nextClause : Parser (Option Clause) := do
  match ← safeNext with
  | none => raise "Unexpected end of frame statement!"
  | some token =>
    match lowerText token with
    | "type" => return some (.typ (← parseH2FrametypeStatement))
    | "flags" => return some (.flags (← parseH2FlagsStatement))
    | "id" | "stream_id" =>
      match ← safeNext with
      | none => raise "Premature end of stream_id statement!"
      | some tmpStreamId =>
        match intOfText tmpStreamId with
        | none => raise "Invalid stream_id"
        | some streamId => return some (.streamId streamId)
    | "reserved" => return some .reserved
    | "payload" =>
      match ← safeNext with
      | none => raise "Premature end of payload statement!"
      | some tmpPayload =>
        match unescape unicodeName? tmpPayload with
        | .error .unicodeEncodeError =>
          raise ("Couldn't encode the frame payload to latin1. If you're using multibyte " ++
            "characters, please use escape sequences (e.g. `\\xff`) instead.")
        | .error .unicodeDecodeError =>
          raise "Couldn't Unicode escape the frame payload. Did you forget to quote it?"
        | .ok payload => return some (.payload payload)
    | "]" => return none
    -- the source has no case for anything else
    | _ => return some .nothing

end

/-! ### The clauses of the language -/

/-- The types that have a name, from 0 on. -/
def typeNames : List String :=
  ["data", "headers", "priority", "rst_stream", "settings", "push_promise", "ping", "goaway",
    "window_update", "continuation"]

/-- A type is a name or a number that fits into a byte. -/
def typeOf? (token : String) : Option Int :=
  match typeNames.idxOf? (lowerText token) with
  | some i => some i
  | none => (intOfText token).filter fun n => 0 ≤ n ∧ n < 256

/-- The numbers of the flags, and their names. -/
def flagNames : List (String × Nat) :=
  [("0", 0), ("end_stream", 0), ("ack", 0), ("1", 1), ("2", 2), ("end_headers", 2), ("3", 3),
    ("padded", 3), ("4", 4), ("5", 5), ("priority", 5), ("6", 6), ("7", 7)]

def flagOf? (token : String) : Option Nat := flagNames.lookup (lowerText token)

/-- These tokens name these flags. -/
def NameFlags : List String → List Nat → Prop := List.Forall₂ fun token i => flagOf? token = some i

/-- The flags with these numbers. -/
def flagsOf (bits : List Nat) : H2Flags where
  unused7 := bits.contains 7
  unused6 := bits.contains 6
  priority := bits.contains 5
  unused4 := bits.contains 4
  padded := bits.contains 3
  endHeaders := bits.contains 2
  unused1 := bits.contains 1
  endStreamOrAck := bits.contains 0

/-- What a clause begins with, and the end of a frame. -/
def keywords : List String := ["type", "flags", "id", "stream_id", "reserved", "payload", "]"]

/-- How a clause is spelled. A token that is no keyword counts as a clause that says nothing. -/
inductive Clause.Spelled (unicodeName? : Bytes → Option Nat) : List String → Clause → Prop
  | typ {keyword token : String} {typ : Int} (hkeyword : lowerText keyword = "type")
      (h : typeOf? token = some typ) : Spelled unicodeName? [keyword, token] (.typ typ)
  | flags {keyword start stop : String} {tokens : List String} {bits : List Nat}
      (hkeyword : lowerText keyword = "flags") (hstart : lowerText start = "\x7b")
      (h : NameFlags tokens bits) (hstop : lowerText stop = "\x7d") :
      Spelled unicodeName? (keyword :: start :: (tokens ++ [stop])) (.flags (flagsOf bits))
  | streamId {keyword token : String} {streamId : Int}
      (hkeyword : lowerText keyword = "id" ∨ lowerText keyword = "stream_id")
      (h : intOfText token = some streamId) :
      Spelled unicodeName? [keyword, token] (.streamId streamId)
  | reserved {keyword : String} (hkeyword : lowerText keyword = "reserved") :
      Spelled unicodeName? [keyword] .reserved
  | payload {keyword token : String} {payload : Bytes} (hkeyword : lowerText keyword = "payload")
      (h : unescape unicodeName? token = .ok payload) :
      Spelled unicodeName? [keyword, token] (.payload payload)
  | nothing {token : String} (h : lowerText token ∉ keywords) :
      Spelled unicodeName? [token] .nothing

/-- A frame is rejected as it should be. -/
def IsParseError (e : FramesError PyError) : Prop := ∃ m, e = .replParseError m

theorem parseH2FrametypeStatement_cons (token : String) (it : List String) :
    (∃ t, typeOf? token = some t ∧ parseH2FrametypeStatement (token :: it) = .ok (t, it)) ∨
      (typeOf? token = none ∧
        ∃ m, parseH2FrametypeStatement (token :: it) = .error (.replParseError m)) := by
  by_cases hname : lowerText token ∈ typeNames
  · left
    simp only [typeNames, List.mem_cons, List.not_mem_nil, or_false] at hname
    rcases hname with h | h | h | h | h | h | h | h | h | h <;>
      (simp only [typeOf?, parseH2FrametypeStatement, bind_apply, safeNext, ok_bind, h]
       exact ⟨_, rfl, rfl⟩)
  · have hnone : typeNames.idxOf? (lowerText token) = none := List.idxOf?_eq_none_iff.mpr hname
    simp only [typeNames, List.mem_cons, List.not_mem_nil, or_false, not_or] at hname
    obtain ⟨h0, h1, h2, h3, h4, h5, h6, h7, h8, h9⟩ := hname
    have hnumber : parseH2FrametypeStatement (token :: it) =
        (match intOfText token with
        | none => raise "Unexpected value of type statement"
        | some intToken =>
          if 0 ≤ intToken ∧ intToken < 256 then return intToken
          else raise "type out of range!" : Parser Int) it := by
      simp only [parseH2FrametypeStatement, bind_apply, safeNext, ok_bind]
    rw [hnumber, typeOf?, hnone]
    cases intOfText token with
    | none => exact .inr ⟨rfl, _, rfl⟩
    | some n =>
        by_cases hrange : 0 ≤ n ∧ n < 256
        · exact .inl ⟨n, by simp [hrange], by simp [hrange]⟩
        · exact .inr ⟨by simp [-not_and, hrange], _, by simp only [if_neg hrange]; rfl⟩

/-- One pass of the loop over the flags. -/
theorem flagsLoop_cons (r : Nat) (token : String) (it : List String) :
    (∃ i, flagOf? token = some i ∧ flagsLoop r (token :: it) = flagsLoop (r ||| 1 <<< i) it) ∨
      (flagOf? token = none ∧ lowerText token = "\x7d" ∧ flagsLoop r (token :: it) = .ok (r, it)) ∨
      (flagOf? token = none ∧ lowerText token ≠ "\x7d" ∧
        ∃ m, flagsLoop r (token :: it) = .error (.replParseError m)) := by
  rw [flagOf?]
  by_cases hname : lowerText token ∈ flagNames.map Prod.fst
  · left
    simp only [flagNames, List.map_cons, List.map_nil, List.mem_cons, List.not_mem_nil,
      or_false] at hname
    rcases hname with h | h | h | h | h | h | h | h | h | h | h | h | h <;>
      (simp only [flagsLoop, h]
       exact ⟨_, rfl, rfl⟩)
  · have hnone : flagNames.lookup (lowerText token) = none := by
      rw [List.lookup_eq_none_iff]
      exact fun flag hflag => bne_iff_ne.mpr fun h => hname (List.mem_map.mpr ⟨flag, hflag, h.symm⟩)
    right
    simp only [flagNames, List.map_cons, List.map_nil, List.mem_cons, List.not_mem_nil,
      or_false, not_or] at hname
    obtain ⟨h0, h1, h2, h3, h4, h5, h6, h7, h8, h9, h10, h11, h12⟩ := hname
    by_cases hstop : lowerText token = "\x7d"
    · refine .inl ⟨hnone, hstop, ?_⟩
      simp only [flagsLoop, hstop]
    · refine .inr ⟨hnone, hstop, "Unexpected value of flags statement", ?_⟩
      simp only [flagsLoop]

/-- The bits of a sequence of flags. -/
def bitsOr (r : Nat) (bits : List Nat) : Nat := bits.foldl (fun r i => r ||| 1 <<< i) r

theorem flagsLoop_of_spelled {tokens : List String} {bits : List Nat} {stop : String}
    (h : NameFlags tokens bits) (hstop : lowerText stop = "\x7d") (r : Nat)
    (it : List String) : flagsLoop r (tokens ++ stop :: it) = .ok (bitsOr r bits, it) := by
  induction h generalizing r with
  | nil =>
      simp only [List.nil_append, flagsLoop, hstop]
      rfl
  | @cons token i tokens bits hi _ ih =>
      rcases flagsLoop_cons r token (tokens ++ stop :: it) with ⟨j, hj, heq⟩ | ⟨hnone, -⟩ | ⟨hnone, -⟩
      · rw [hi] at hj
        cases hj
        rw [List.cons_append, heq, ih]
        rfl
      · rw [hi] at hnone
        cases hnone
      · rw [hi] at hnone
        cases hnone

/-- **The loop over the flags** reads flags up to a brace, or raises what it should. -/
theorem flagsLoop_cases (r : Nat) (it : List String) :
    (∃ tokens bits stop it', it = tokens ++ stop :: it' ∧ NameFlags tokens bits ∧
        lowerText stop = "\x7d") ∨
      ∃ m, flagsLoop r it = .error (.replParseError m) := by
  induction it generalizing r with
  | nil => exact .inr ⟨_, rfl⟩
  | cons token it ih =>
      rcases flagsLoop_cons r token it with ⟨i, hi, heq⟩ | ⟨-, hstop, -⟩ | ⟨-, -, hraises⟩
      · rw [heq]
        rcases ih (r ||| 1 <<< i) with ⟨tokens, bits, stop, it', rfl, hbits, hstop⟩ | hraises
        · exact .inl ⟨token :: tokens, i :: bits, stop, it', rfl, .cons hi hbits, hstop⟩
        · exact .inr hraises
      · exact .inl ⟨[], [], token, it, rfl, .nil, hstop⟩
      · exact .inr hraises

theorem NameFlags.lt {tokens : List String} {bits : List Nat} (h : NameFlags tokens bits) :
    ∀ i ∈ bits, i < 8 := by
  induction h with
  | nil => exact fun _ h => absurd h List.not_mem_nil
  | @cons token i tokens bits hi _ ih =>
      obtain ⟨before, after, heq, -⟩ := List.lookup_eq_some_iff.mp hi
      have hmem : (lowerText token, i) ∈ flagNames := by
        rw [heq]
        exact List.mem_append_right _ List.mem_cons_self
      exact List.forall_mem_cons.mpr ⟨(by decide : ∀ flag ∈ flagNames, flag.2 < 8) _ hmem, ih⟩

theorem testBit_bitsOr (r : Nat) (bits : List Nat) (j : Nat) :
    (bitsOr r bits).testBit j = (r.testBit j || bits.contains j) := by
  unfold bitsOr
  induction bits generalizing r with
  | nil => simp
  | cons i bits ih =>
      rw [List.foldl_cons, ih, Nat.testBit_or, Nat.one_shiftLeft, Nat.testBit_two_pow,
        List.contains_cons, Bool.or_assoc]
      congr 2
      exact Bool.eq_iff_iff.mpr (by rw [beq_iff_eq, decide_eq_true_iff, eq_comm])

theorem parse_bitsOr {bits : List Nat} (h : ∀ i ∈ bits, i < 8) :
    H2Flags.parse (.inr (bitsOr 0 bits)) = .ok (flagsOf bits) := by
  have hlt : bitsOr 0 bits < 2 ^ 8 := by
    refine Nat.lt_pow_two_of_testBit _ fun j hj => ?_
    rw [testBit_bitsOr, Nat.zero_testBit, Bool.false_or]
    exact Bool.eq_false_iff.mpr fun hmem => absurd (h j (by simpa using hmem)) (by omega)
  have hrange : 0 ≤ (bitsOr 0 bits : Int) ∧ (bitsOr 0 bits : Int) < 2 ^ 8 := by omega
  simp only [H2Flags.parse, pure_eq_ok, ok_bind, hrange, and_self, not_true_eq_false, if_false,
    Int.toNat_natCast, testBit_bitsOr, Nat.zero_testBit, Bool.false_or]
  rfl

theorem parseH2FlagsStatement_of_spelled {tokens : List String} {bits : List Nat}
    {start stop : String} (hstart : lowerText start = "\x7b")
    (h : NameFlags tokens bits) (hstop : lowerText stop = "\x7d") (it : List String) :
    parseH2FlagsStatement (start :: (tokens ++ stop :: it)) = .ok (flagsOf bits, it) := by
  simp only [parseH2FlagsStatement, bind_apply, safeNext, ok_bind, hstart, ne_eq, not_true_eq_false,
    if_false, flagsLoop_of_spelled h hstop, parse_bitsOr h.lt]
  rfl

theorem parseH2FlagsStatement_cases (it : List String) :
    (∃ start tokens bits stop it', it = start :: (tokens ++ stop :: it') ∧
        lowerText start = "\x7b" ∧ NameFlags tokens bits ∧ lowerText stop = "\x7d") ∨
      ∃ m, parseH2FlagsStatement it = .error (.replParseError m) := by
  cases it with
  | nil => exact .inr ⟨_, rfl⟩
  | cons start it =>
      by_cases hstart : lowerText start = "\x7b"
      · rcases flagsLoop_cases 0 it with ⟨tokens, bits, stop, it', rfl, hbits, hstop⟩ | ⟨m, hm⟩
        · exact .inl ⟨start, tokens, bits, stop, it', rfl, hstart, hbits, hstop⟩
        · refine .inr ⟨m, ?_⟩
          simp only [parseH2FlagsStatement, bind_apply, safeNext, ok_bind, hstart, ne_eq,
            not_true_eq_false, if_false, hm, error_bind]
      · refine .inr ⟨"Unexpected start of flags statement (should begin with '\x7b')!", ?_⟩
        simp only [parseH2FlagsStatement, bind_apply, safeNext, ok_bind, ne_eq, hstart,
          not_false_eq_true, if_true]
        rfl

/-! ### Clause by clause -/

variable {unicodeName? : Bytes → Option Nat}

/-- What a clause is spelled with is read as that clause. -/
theorem nextClause_of_spelled {part : List String} {c : Clause}
    (h : c.Spelled unicodeName? part) (it : List String) :
    nextClause unicodeName? (part ++ it) = .ok (some c, it) := by
  cases h with
  | @typ keyword token t hkeyword h =>
      rcases parseH2FrametypeStatement_cons token it with ⟨t', ht, heq⟩ | ⟨hnone, -⟩
      · rw [h] at ht
        cases ht
        simp only [nextClause, bind_apply, List.cons_append, List.nil_append, safeNext, ok_bind,
          hkeyword, heq]
        rfl
      · rw [h] at hnone
        cases hnone
  | flags hkeyword hstart h hstop =>
      have heq := parseH2FlagsStatement_of_spelled hstart h hstop it
      simp only [nextClause, bind_apply, List.cons_append, List.append_assoc, List.nil_append,
        safeNext, ok_bind, hkeyword, heq]
      rfl
  | streamId hkeyword h =>
      rcases hkeyword with hkeyword | hkeyword <;>
        simp only [nextClause, bind_apply, List.cons_append, safeNext, ok_bind, hkeyword, h] <;> rfl
  | reserved hkeyword =>
      simp only [nextClause, bind_apply, List.cons_append, safeNext, ok_bind, hkeyword]
      rfl
  | payload hkeyword h =>
      simp only [nextClause, bind_apply, List.cons_append, safeNext, ok_bind, hkeyword, h]
      rfl
  | nothing h =>
      simp only [keywords, List.mem_cons, List.not_mem_nil, or_false, not_or] at h
      obtain ⟨h0, h1, h2, h3, h4, h5, h6⟩ := h
      simp only [nextClause, bind_apply, List.cons_append, safeNext, ok_bind]
      rfl

theorem nextClause_of_stop {stop : String} (h : lowerText stop = "]") (it : List String) :
    nextClause unicodeName? (stop :: it) = .ok (none, it) := by
  simp only [nextClause, bind_apply, safeNext, ok_bind, h]
  rfl

/-- The number of a stream is there, or the pass raises what it should. -/
theorem nextClause_streamId {token : String}
    (h : lowerText token = "id" ∨ lowerText token = "stream_id") (it : List String) :
    (∃ number streamId it', it = number :: it' ∧ intOfText number = some streamId) ∨
      ∃ m, nextClause unicodeName? (token :: it) = .error (.replParseError m) := by
  rcases it with _ | ⟨number, it⟩
  · refine .inr ⟨"Premature end of stream_id statement!", ?_⟩
    rcases h with h | h <;>
      (simp only [nextClause, bind_apply, safeNext, ok_bind, h]
       rfl)
  · cases hnumber : intOfText number with
    | some streamId => exact .inl ⟨number, streamId, it, rfl, hnumber⟩
    | none =>
        refine .inr ⟨"Invalid stream_id", ?_⟩
        rcases h with h | h <;>
          (simp only [nextClause, bind_apply, safeNext, ok_bind, h, hnumber]
           rfl)

/-- The payload is there, or the pass raises what it should. -/
theorem nextClause_payload {token : String} (h : lowerText token = "payload") (it : List String) :
    (∃ text payload it', it = text :: it' ∧ unescape unicodeName? text = .ok payload) ∨
      ∃ m, nextClause unicodeName? (token :: it) = .error (.replParseError m) := by
  rcases it with _ | ⟨text, it⟩
  · refine .inr ⟨"Premature end of payload statement!", ?_⟩
    simp only [nextClause, bind_apply, safeNext, ok_bind, h]
    rfl
  · cases htext : unescape unicodeName? text with
    | ok payload => exact .inl ⟨text, payload, it, rfl, htext⟩
    | error e =>
        right
        simp only [nextClause, bind_apply, safeNext, ok_bind, h, htext]
        cases e with
        | unicodeEncodeError => exact ⟨_, rfl⟩
        | unicodeDecodeError => exact ⟨_, rfl⟩

/-- **Every pass** reads a clause or the end of the frame, or raises what it should. -/
theorem nextClause_cases (it : List String) :
    (∃ part c it', it = part ++ it' ∧ Clause.Spelled unicodeName? part c) ∨
      (∃ stop it', it = stop :: it' ∧ lowerText stop = "]") ∨
        ∃ m, nextClause unicodeName? it = .error (.replParseError m) := by
  rcases it with _ | ⟨token, it⟩
  · exact .inr (.inr ⟨_, rfl⟩)
  by_cases hkeyword : lowerText token ∈ keywords
  swap
  · exact .inl ⟨[token], .nothing, it, rfl, .nothing hkeyword⟩
  simp only [keywords, List.mem_cons, List.not_mem_nil, or_false] at hkeyword
  rw [← or_assoc (a := lowerText token = "id")] at hkeyword
  rcases hkeyword with h | h | h | h | h | h
  · rcases it with _ | ⟨typ, it⟩
    · refine .inr (.inr ⟨"Unexpected start of type statement", ?_⟩)
      simp only [nextClause, bind_apply, safeNext, ok_bind, h]
      rfl
    · rcases parseH2FrametypeStatement_cons typ it with ⟨t, ht, -⟩ | ⟨-, m, hm⟩
      · exact .inl ⟨[token, typ], .typ t, it, rfl, .typ h ht⟩
      · refine .inr (.inr ⟨m, ?_⟩)
        simp only [nextClause, bind_apply, safeNext, ok_bind, h, hm, error_bind]
  · rcases parseH2FlagsStatement_cases it with
      ⟨start, tokens, bits, stop, it', rfl, hstart, hbits, hstop⟩ | ⟨m, hm⟩
    · exact .inl ⟨token :: start :: (tokens ++ [stop]), .flags (flagsOf bits), it', by simp,
        .flags h hstart hbits hstop⟩
    · refine .inr (.inr ⟨m, ?_⟩)
      simp only [nextClause, bind_apply, safeNext, ok_bind, h, hm, error_bind]
  · rcases nextClause_streamId h it with ⟨number, streamId, it', rfl, hnumber⟩ | hraises
    · exact .inl ⟨[token, number], .streamId streamId, it', rfl, .streamId h hnumber⟩
    · exact .inr (.inr hraises)
  · exact .inl ⟨[token], .reserved, it, rfl, .reserved h⟩
  · rcases nextClause_payload h it with ⟨text, payload, it', rfl, htext⟩ | hraises
    · exact .inl ⟨[token, text], .payload payload, it', rfl, .payload h htext⟩
    · exact .inr (.inr hraises)
  · exact .inr (.inl ⟨token, it, rfl, h⟩)

theorem nextClause_eq_some {it it' : List String} {c : Clause} :
    nextClause unicodeName? it = .ok (some c, it') ↔
      ∃ part, it = part ++ it' ∧ Clause.Spelled unicodeName? part c := by
  refine ⟨fun h => ?_, fun h => ?_⟩
  · rcases nextClause_cases it with ⟨part, c', it₁, rfl, hpart⟩ | ⟨stop, it₁, rfl, hstop⟩ | ⟨m, hm⟩
    · rw [nextClause_of_spelled hpart] at h
      cases h
      exact ⟨part, rfl, hpart⟩
    · rw [nextClause_of_stop hstop] at h
      cases h
    · rw [hm] at h
      cases h
  · obtain ⟨part, rfl, hpart⟩ := h
    exact nextClause_of_spelled hpart it'

theorem nextClause_eq_none {it it' : List String} :
    nextClause unicodeName? it = .ok (none, it') ↔
      ∃ stop, it = stop :: it' ∧ lowerText stop = "]" := by
  refine ⟨fun h => ?_, fun h => ?_⟩
  · rcases nextClause_cases it with ⟨part, c', it₁, rfl, hpart⟩ | ⟨stop, it₁, rfl, hstop⟩ | ⟨m, hm⟩
    · rw [nextClause_of_spelled hpart] at h
      cases h
    · rw [nextClause_of_stop hstop] at h
      cases h
      exact ⟨stop, rfl, hstop⟩
    · rw [hm] at h
      cases h
  · obtain ⟨stop, rfl, hstop⟩ := h
    exact nextClause_of_stop hstop it'

theorem nextClause_raises {it : List String} {e : FramesError PyError}
    (h : nextClause unicodeName? it = .error e) : IsParseError e := by
  rcases nextClause_cases it with ⟨part, c', it₁, rfl, hpart⟩ | ⟨stop, it₁, rfl, hstop⟩ | ⟨m, hm⟩
  · rw [nextClause_of_spelled hpart] at h
    cases h
  · rw [nextClause_of_stop hstop] at h
    cases h
  · rw [hm] at h
    cases h
    exact ⟨m, rfl⟩

theorem Clause.Spelled.ne_nil {part : List String} {c : Clause}
    (h : c.Spelled unicodeName? part) : part ≠ [] := by
  cases h <;> exact List.cons_ne_nil _ _

theorem advances_nextClause (unicodeName? : Bytes → Option Nat) :
    Advances (nextClause unicodeName?) := by
  intro it c it' h
  obtain ⟨part, rfl, hpart⟩ := nextClause_eq_some.mp h
  have hpos := List.length_pos_iff.mpr hpart.ne_nil
  rw [List.length_append]
  omega

/-! ### Frames -/

/-- The preface of a connection. -/
def preface : Bytes := bytes "PRI * HTTP/2.0\r\n\r\nSM\r\n\r\n"

/-- The loop over a frame. -/
def parseClauses (unicodeName? : Bytes → Option Nat) : Parser FrameState :=
  foldUntil (nextClause unicodeName?) (advances_nextClause unicodeName?) FrameState.assign {}

/-- What is appended for a frame. -/
def frameBytes (st : FrameState) : Except (FramesError PyError) Bytes :=
  match st.typ with
  | none => .error (.replParseError "No valid H2FrameType found!")
  | some typ =>
    (H2GenericFrame.new typ st.flags st.reserved st.streamId st.payload >>=
      H2GenericFrame.toBytes).mapError .raised

/-- One pass of the loop in `parse_h2frames_statement`, and what it appends; `none` is the
`break`. -/
def nextItem (unicodeName? : Bytes → Option Nat) : Parser (Option Bytes) := do
  match ← safeNext with
  | none => return none
  | some initialToken =>
    if lowerText initialToken = "pri" then return some preface
    else if lowerText initialToken ≠ "[" then
      raise "Unexpected start of frame statement (should begin with '[')!"
    else
      let st ← parseClauses unicodeName?
      return some (← check (frameBytes st))

inductive Item
  | pri
  | frame (clauses : List Clause)

/-- How an item is spelled. -/
inductive Item.Spelled (unicodeName? : Bytes → Option Nat) : List String → Item → Prop
  | pri {token : String} (h : lowerText token = "pri") : Spelled unicodeName? [token] .pri
  | frame {start stop : String} {parts : List (List String)} {clauses : List Clause}
      (hstart : lowerText start = "[")
      (h : List.Forall₂ (Clause.Spelled unicodeName?) parts clauses)
      (hstop : lowerText stop = "]") :
      Spelled unicodeName? (start :: (parts.flatten ++ [stop])) (.frame clauses)

/-! What is said by the clauses of one kind. -/

def Clause.typ? : Clause → Option Int
  | .typ t => some t
  | _ => none

def Clause.flags? : Clause → Option H2Flags
  | .flags f => some f
  | _ => none

def Clause.streamId? : Clause → Option Int
  | .streamId n => some n
  | _ => none

def Clause.payload? : Clause → Option Bytes
  | .payload b => some b
  | _ => none

/-- The frame that is described by the last clause of each kind. -/
def described (clauses : List Clause) : FrameState where
  typ := (clauses.filterMap Clause.typ?).getLast?
  flags := (clauses.filterMap Clause.flags?).getLast?.getD {}
  reserved := clauses.contains .reserved
  streamId := (clauses.filterMap Clause.streamId?).getLast?.getD 0
  payload := (clauses.filterMap Clause.payload?).getLast?.getD []

theorem foldl_assign (clauses : List Clause) :
    clauses.foldl FrameState.assign {} = described clauses := by
  induction clauses using List.reverseRecOn with
  | nil => rfl
  | append_singleton clauses c ih =>
      rw [List.foldl_concat, ih]
      cases c <;>
        simp [described, FrameState.assign, List.filterMap_append, List.filterMap_cons,
          Clause.typ?, Clause.flags?, Clause.streamId?, Clause.payload?]

/-- What a frame checks when it is constructed. -/
def InRange (st : FrameState) : Prop :=
  0 ≤ st.streamId ∧ st.streamId < 2 ^ 31 ∧ st.payload.length < 2 ^ 24

/-- A frame has a type, and passes its checks. -/
def Item.Valid : Item → Prop
  | .pri => True
  | .frame clauses => (described clauses).typ ≠ none ∧ InRange (described clauses)

/-- What is written for an item. -/
def Item.Writes : Item → Bytes → Prop
  | .pri, b => b = preface
  | .frame clauses, b => ∃ f : H2GenericFrame, described clauses =
      ⟨some f.typ, f.flags, f.reserved, f.streamId, f.payload⟩ ∧ f.toBytes = .ok b

/-- The clauses of a frame are read up to its end. -/
theorem readsSome_clauses {parts : List (List String)} {clauses : List Clause}
    (h : List.Forall₂ (Clause.Spelled unicodeName?) parts clauses) (it : List String) :
    ReadsSome (nextClause unicodeName?) (parts.flatten ++ it) clauses it :=
  (readsSome_iff fun _ _ _ => nextClause_eq_some).mpr ⟨parts, rfl, h⟩

theorem parseClauses_of_spelled {parts : List (List String)} {clauses : List Clause} {stop : String}
    (h : List.Forall₂ (Clause.Spelled unicodeName?) parts clauses) (hstop : lowerText stop = "]")
    (it : List String) :
    parseClauses unicodeName? (parts.flatten ++ stop :: it) = .ok (described clauses, it) :=
  foldUntil_eq_ok.mpr ⟨clauses, stop :: it, readsSome_clauses h _, nextClause_of_stop hstop it,
    (foldl_assign clauses).symm⟩

/-- **The loop over a frame** reads clauses up to a bracket, or raises what it should. -/
theorem parseClauses_cases (unicodeName? : Bytes → Option Nat) (it : List String) :
    (∃ parts clauses stop it', it = parts.flatten ++ stop :: it' ∧
        List.Forall₂ (Clause.Spelled unicodeName?) parts clauses ∧ lowerText stop = "]") ∨
      ∃ m, parseClauses unicodeName? it = .error (.replParseError m) := by
  cases h : parseClauses unicodeName? it with
  | ok r =>
      obtain ⟨clauses, it₁, hreads, hnone, -⟩ := foldUntil_eq_ok.mp h
      obtain ⟨parts, rfl, hparts⟩ := (readsSome_iff fun _ _ _ => nextClause_eq_some).mp hreads
      obtain ⟨stop, rfl, hstop⟩ := nextClause_eq_none.mp hnone
      exact .inl ⟨parts, clauses, stop, _, rfl, hparts, hstop⟩
  | error e =>
      obtain ⟨clauses, it₁, -, herror⟩ := foldUntil_eq_error.mp h
      obtain ⟨m, rfl⟩ := nextClause_raises herror
      exact .inr ⟨m, rfl⟩

/-- The types that are spelled fit into a byte. -/
theorem typ_range {part : List String} {t : Int}
    (h : Clause.Spelled unicodeName? part (.typ t)) : 0 ≤ t ∧ t ≤ 255 := by
  cases h with
  | @typ keyword token _ _ h =>
      rw [typeOf?] at h
      split at h
      · next i hi =>
          cases h
          have hlt : i < typeNames.length := (List.idxOf?_eq_some_iff.mp hi).1
          rw [typeNames] at hlt
          simp only [List.length_cons, List.length_nil] at hlt
          omega
      · rw [Option.filter_eq_some_iff] at h
        simp only [decide_eq_true_eq] at h
        omega

theorem described_typ_range {parts : List (List String)} {clauses : List Clause} {t : Int}
    (h : List.Forall₂ (Clause.Spelled unicodeName?) parts clauses)
    (ht : (described clauses).typ = some t) : 0 ≤ t ∧ t ≤ 255 := by
  have hmem : t ∈ clauses.filterMap Clause.typ? := List.mem_of_getLast? ht
  clear ht
  induction h with
  | nil => exact absurd hmem List.not_mem_nil
  | @cons part c parts clauses hpart _ ih =>
      rw [List.filterMap_cons] at hmem
      cases c with
      | typ t' =>
          rcases List.mem_cons.mp hmem with rfl | hmem
          · exact typ_range hpart
          · exact ih hmem
      | flags => exact ih hmem
      | streamId => exact ih hmem
      | reserved => exact ih hmem
      | payload => exact ih hmem
      | nothing => exact ih hmem

theorem frameBytes_of_none {st : FrameState} (h : st.typ = none) :
    frameBytes st = .error (.replParseError "No valid H2FrameType found!") := by
  rw [frameBytes, h]

theorem frameBytes_of_inRange {st : FrameState} {t : Int} (h : st.typ = some t)
    (ht : 0 ≤ t ∧ t ≤ 255) (hrange : InRange st) :
    ∃ (f : H2GenericFrame) (b : Bytes),
      st = ⟨some f.typ, f.flags, f.reserved, f.streamId, f.payload⟩ ∧ f.toBytes = .ok b ∧
        frameBytes st = .ok b := by
  have hcheck := H2GenericFrame.postInit_eq_ok.mpr hrange
  obtain ⟨b, hb⟩ := H2GenericFrame.layout_of_typ
    (f := ⟨t, st.flags, st.reserved, st.streamId, st.payload, hcheck⟩) ht.1 ht.2
  have hbytes := H2GenericFrame.toBytes_of_layout hb
  refine ⟨_, b, ?_, hbytes, ?_⟩
  · rw [← h]
  · rw [frameBytes, h]
    dsimp only
    rw [H2GenericFrame.new, build_of_ok hcheck, ok_bind, hbytes]
    rfl

theorem frameBytes_of_not_inRange {st : FrameState} (h : st.typ ≠ none) (hrange : ¬ InRange st) :
    ∃ e, frameBytes st = .error (.raised e) := by
  obtain ⟨t, ht⟩ := Option.ne_none_iff_exists'.mp h
  rw [frameBytes, ht]
  dsimp only
  cases hnew : H2GenericFrame.new t st.flags st.reserved st.streamId st.payload with
  | ok f =>
      obtain ⟨hcheck, -⟩ := build_eq_ok.mp hnew
      exact absurd (H2GenericFrame.postInit_eq_ok.mp hcheck) hrange
  | error e => exact ⟨e, rfl⟩

/-! ### Item by item -/

/-- **What is done with an item**: it is written, or it has no type, or it fails its checks. -/
theorem nextItem_of_spelled {part : List String} {item : Item}
    (h : item.Spelled unicodeName? part) (it : List String) :
    (item.Valid ∧ ∃ b, item.Writes b ∧ nextItem unicodeName? (part ++ it) = .ok (some b, it)) ∨
      ∃ clauses, item = .frame clauses ∧
        (((described clauses).typ = none ∧
            ∃ m, nextItem unicodeName? (part ++ it) = .error (.replParseError m)) ∨
          ((described clauses).typ ≠ none ∧ ¬ InRange (described clauses) ∧
            ∃ e, nextItem unicodeName? (part ++ it) = .error (.raised e))) := by
  cases h with
  | pri h =>
      refine .inl ⟨trivial, preface, rfl, ?_⟩
      simp only [nextItem, bind_apply, List.cons_append, safeNext, ok_bind, if_pos h]
      rfl
  | @frame start stop parts clauses hstart h hstop =>
      have hpri : ¬ "[" = "pri" := by decide
      have hitem : nextItem unicodeName? (start :: (parts.flatten ++ [stop]) ++ it) =
          (frameBytes (described clauses)).map fun b => (some b, it) := by
        simp only [nextItem, bind_apply, List.cons_append, List.append_assoc, List.nil_append,
          safeNext, ok_bind, hstart, if_neg hpri, ne_eq, not_true_eq_false, if_false,
          parseClauses_of_spelled h hstop it]
        cases frameBytes (described clauses) <;> rfl
      rw [hitem]
      cases htyp : (described clauses).typ with
      | none =>
          rw [frameBytes_of_none htyp]
          exact .inr ⟨clauses, rfl, .inl ⟨htyp, _, rfl⟩⟩
      | some t =>
          have hsome : (described clauses).typ ≠ none := by
            rw [htyp]
            exact Option.some_ne_none t
          by_cases hrange : InRange (described clauses)
          · obtain ⟨f, b, hf, hb, hbytes⟩ :=
              frameBytes_of_inRange htyp (described_typ_range h htyp) hrange
            rw [hbytes]
            exact .inl ⟨⟨hsome, hrange⟩, b, ⟨f, hf, hb⟩, rfl⟩
          · obtain ⟨e, he⟩ := frameBytes_of_not_inRange hsome hrange
            rw [he]
            exact .inr ⟨clauses, rfl, .inr ⟨hsome, hrange, e, rfl⟩⟩

/-- **Every pass** reads an item or the end of the tokens, or raises what it should. -/
theorem nextItem_cases (it : List String) :
    it = [] ∨ (∃ part item it', it = part ++ it' ∧ Item.Spelled unicodeName? part item) ∨
      ∃ m, nextItem unicodeName? it = .error (.replParseError m) := by
  rcases it with _ | ⟨token, it⟩
  · exact .inl rfl
  right
  by_cases hpri : lowerText token = "pri"
  · exact .inl ⟨[token], .pri, it, rfl, .pri hpri⟩
  by_cases hstart : lowerText token = "["
  · rcases parseClauses_cases unicodeName? it with
      ⟨parts, clauses, stop, it', rfl, hparts, hstop⟩ | ⟨m, hm⟩
    · exact .inl ⟨token :: (parts.flatten ++ [stop]), .frame clauses, it', by simp,
        .frame hstart hparts hstop⟩
    · refine .inr ⟨m, ?_⟩
      rw [hstart] at hpri
      simp only [nextItem, bind_apply, safeNext, ok_bind, hstart, if_neg hpri, ne_eq,
        not_true_eq_false, if_false, hm, error_bind]
  · refine .inr ⟨"Unexpected start of frame statement (should begin with '[')!", ?_⟩
    simp only [nextItem, bind_apply, safeNext, ok_bind, if_neg hpri, ne_eq, hstart,
      not_false_eq_true, if_true]
    rfl

theorem Item.Spelled.ne_nil {part : List String} {item : Item}
    (h : item.Spelled unicodeName? part) : part ≠ [] := by
  cases h <;> exact List.cons_ne_nil _ _

/-- A part of the tokens that is written as these bytes. -/
def Written (unicodeName? : Bytes → Option Nat) (part : List String) (b : Bytes) : Prop :=
  ∃ item : Item, item.Spelled unicodeName? part ∧ item.Valid ∧ item.Writes b

theorem described_eq_of_writes {clauses : List Clause} {f f' : H2GenericFrame}
    (h : described clauses = ⟨some f.typ, f.flags, f.reserved, f.streamId, f.payload⟩)
    (h' : described clauses = ⟨some f'.typ, f'.flags, f'.reserved, f'.streamId, f'.payload⟩) :
    f = f' := by
  rw [h] at h'
  cases f
  cases f'
  simpa using h'

theorem Item.Writes.unique {item : Item} {b b' : Bytes} (h : item.Writes b) (h' : item.Writes b') :
    b = b' := by
  cases item with
  | pri => exact h.trans h'.symm
  | frame clauses =>
      obtain ⟨f, hf, hb⟩ := h
      obtain ⟨f', hf', hb'⟩ := h'
      rw [described_eq_of_writes hf hf', hb'] at hb
      cases hb
      rfl

theorem nextItem_eq_some {it it' : List String} {b : Bytes} :
    nextItem unicodeName? it = .ok (some b, it') ↔
      ∃ part, it = part ++ it' ∧ Written unicodeName? part b := by
  refine ⟨fun h => ?_, fun h => ?_⟩
  · rcases nextItem_cases it with rfl | ⟨part, item, it₁, rfl, hitem⟩ | ⟨m, hm⟩
    · cases h
    · rcases nextItem_of_spelled hitem it₁ with
        ⟨hvalid, b', hb', heq⟩ | ⟨clauses, -, ⟨-, m, hm⟩ | ⟨-, -, e, he⟩⟩
      · rw [heq] at h
        cases h
        exact ⟨part, rfl, item, hitem, hvalid, hb'⟩
      · rw [hm] at h
        cases h
      · rw [he] at h
        cases h
    · rw [hm] at h
      cases h
  · obtain ⟨part, rfl, item, hitem, hvalid, hb⟩ := h
    rcases nextItem_of_spelled hitem it' with
      ⟨-, b', hb', heq⟩ | ⟨clauses, rfl, ⟨hnone, -⟩ | ⟨-, hrange, -⟩⟩
    · rw [heq, hb.unique hb']
    · exact absurd hnone hvalid.1
    · exact absurd hvalid.2 hrange

theorem nextItem_eq_none {it it' : List String} :
    nextItem unicodeName? it = .ok (none, it') ↔ it = [] ∧ it' = [] := by
  refine ⟨fun h => ?_, fun h => ?_⟩
  · rcases nextItem_cases it with rfl | ⟨part, item, it₁, rfl, hitem⟩ | ⟨m, hm⟩
    · cases h
      exact ⟨rfl, rfl⟩
    · rcases nextItem_of_spelled hitem it₁ with
        ⟨-, b, -, heq⟩ | ⟨clauses, -, ⟨-, m, hm⟩ | ⟨-, -, e, he⟩⟩
      · rw [heq] at h
        cases h
      · rw [hm] at h
        cases h
      · rw [he] at h
        cases h
    · rw [hm] at h
      cases h
  · obtain ⟨rfl, rfl⟩ := h
    rfl

/-- A complete frame that fails its checks stands in front. -/
def Fails (unicodeName? : Bytes → Option Nat) (it : List String) : Prop :=
  ∃ part clauses it', it = part ++ it' ∧ (Item.frame clauses).Spelled unicodeName? part ∧
    (described clauses).typ ≠ none ∧ ¬ InRange (described clauses)

theorem nextItem_raised_iff {it : List String} :
    (∃ e, nextItem unicodeName? it = .error (.raised e)) ↔ Fails unicodeName? it := by
  refine ⟨fun h => ?_, fun h => ?_⟩
  · obtain ⟨e, h⟩ := h
    rcases nextItem_cases it with rfl | ⟨part, item, it₁, rfl, hitem⟩ | ⟨m, hm⟩
    · cases h
    · rcases nextItem_of_spelled hitem it₁ with
        ⟨-, b, -, heq⟩ | ⟨clauses, rfl, ⟨-, m, hm⟩ | ⟨htyp, hrange, -⟩⟩
      · rw [heq] at h
        cases h
      · rw [hm] at h
        cases h
      · exact ⟨part, clauses, it₁, rfl, hitem, htyp, hrange⟩
    · rw [hm] at h
      cases h
  · obtain ⟨part, clauses, it₁, rfl, hitem, htyp, hrange⟩ := h
    rcases nextItem_of_spelled hitem it₁ with
      ⟨hvalid, -⟩ | ⟨clauses', heq, ⟨hnone, -⟩ | ⟨-, -, he⟩⟩
    · exact absurd hvalid.2 hrange
    · cases heq
      exact absurd hnone htyp
    · exact he

theorem advances_nextItem (unicodeName? : Bytes → Option Nat) : Advances (nextItem unicodeName?) := by
  intro it b it' h
  obtain ⟨part, rfl, item, hitem, -⟩ := nextItem_eq_some.mp h
  have hpos := List.length_pos_iff.mpr hitem.ne_nil
  rw [List.length_append]
  omega

/-- `parse_h2frames_statement` -/
def parseH2FramesStatement (unicodeName? : Bytes → Option Nat) (it : List String) :
    Except (FramesError PyError) (List Bytes) :=
  (foldUntil (nextItem unicodeName?) (advances_nextItem unicodeName?)
    (fun result b => result ++ [b]) [] it).map Prod.fst

/-! ### The language -/

/-- The tokens are these items, one after the other. -/
def Spells (unicodeName? : Bytes → Option Nat) (tokens : List String) (items : List Item) : Prop :=
  ∃ parts : List (List String), tokens = parts.flatten ∧
    List.Forall₂ (Item.Spelled unicodeName?) parts items

/-- Every token of a frame belongs to a clause. -/
def Item.Known : Item → Prop
  | .pri => True
  | .frame clauses => .nothing ∉ clauses

/-- The tokens belong to the language, as these items. -/
def InLanguage (unicodeName? : Bytes → Option Nat) (tokens : List String) (items : List Item) :
    Prop :=
  Spells unicodeName? tokens items ∧ ∀ item ∈ items, item.Known ∧ item.Valid

/-- What belongs to the language is written item by item, and anything else is a parse error. -/
def Meets (unicodeName? : Bytes → Option Nat) (tokens : List String)
    (r : Except (FramesError PyError) (List Bytes)) : Prop :=
  (∀ items, InLanguage unicodeName? tokens items →
      ∃ out, r = .ok out ∧ List.Forall₂ Item.Writes items out) ∧
    ((¬ ∃ items, InLanguage unicodeName? tokens items) → ∃ m, r = .error (.replParseError m))

/-- A complete frame that fails its checks stands behind items that do not. -/
def ReachesFailure (unicodeName? : Bytes → Option Nat) (tokens : List String) : Prop :=
  ∃ front items rest, tokens = front ++ rest ∧ Spells unicodeName? front items ∧
    (∀ item ∈ items, item.Valid) ∧ Fails unicodeName? rest

/-- But for tokens that belong to no clause, the tokens would be in the language. -/
def HasUnknown (unicodeName? : Bytes → Option Nat) (tokens : List String) : Prop :=
  ∃ items, Spells unicodeName? tokens items ∧ (∀ item ∈ items, item.Valid) ∧
    ∃ item ∈ items, ¬ item.Known

theorem forall₂_written {parts : List (List String)} {bs : List Bytes} :
    List.Forall₂ (Written unicodeName?) parts bs ↔
      ∃ items, List.Forall₂ (Item.Spelled unicodeName?) parts items ∧
        (∀ item ∈ items, item.Valid) ∧ List.Forall₂ Item.Writes items bs := by
  refine ⟨fun h => ?_, fun h => ?_⟩
  · induction h with
    | nil => exact ⟨[], .nil, fun _ h => absurd h List.not_mem_nil, .nil⟩
    | cons h _ ih =>
        obtain ⟨item, hitem, hvalid, hb⟩ := h
        obtain ⟨items, hitems, hvalids, hwrites⟩ := ih
        exact ⟨item :: items, .cons hitem hitems, List.forall_mem_cons.mpr ⟨hvalid, hvalids⟩,
          .cons hb hwrites⟩
  · obtain ⟨items, hitems, hvalid, hwrites⟩ := h
    induction hitems generalizing bs with
    | nil =>
        cases hwrites
        exact .nil
    | cons hitem _ ih =>
        obtain ⟨hv, hvalids⟩ := List.forall_mem_cons.mp hvalid
        cases hwrites with
        | cons hb hwrites => exact .cons ⟨_, hitem, hv, hb⟩ (ih hvalids hwrites)

/-- Something is written for every item that is valid. -/
theorem exists_writes {parts : List (List String)} {items : List Item}
    (h : List.Forall₂ (Item.Spelled unicodeName?) parts items)
    (hvalid : ∀ item ∈ items, item.Valid) : ∃ bs, List.Forall₂ Item.Writes items bs := by
  induction h with
  | nil => exact ⟨[], .nil⟩
  | cons hitem _ ih =>
      obtain ⟨hv, hvalids⟩ := List.forall_mem_cons.mp hvalid
      obtain ⟨bs, hbs⟩ := ih hvalids
      rcases nextItem_of_spelled hitem [] with
        ⟨-, b, hb, -⟩ | ⟨clauses, rfl, ⟨hnone, -⟩ | ⟨-, hrange, -⟩⟩
      · exact ⟨b :: bs, .cons hb hbs⟩
      · exact absurd hnone hv.1
      · exact absurd hv.2 hrange

theorem foldl_concat (result bs : List Bytes) :
    bs.foldl (fun result b => result ++ [b]) result = result ++ bs := by
  induction bs generalizing result with
  | nil => rw [List.foldl_nil, List.append_nil]
  | cons b bs ih => rw [List.foldl_cons, ih, List.append_assoc, List.singleton_append]

theorem readsSome_items {tokens rest : List String} {bs : List Bytes} :
    ReadsSome (nextItem unicodeName?) tokens bs rest ↔
      ∃ front items, tokens = front ++ rest ∧ Spells unicodeName? front items ∧
        (∀ item ∈ items, item.Valid) ∧ List.Forall₂ Item.Writes items bs := by
  rw [readsSome_iff fun _ _ _ => nextItem_eq_some]
  refine ⟨fun h => ?_, fun h => ?_⟩
  · obtain ⟨parts, heq, hparts⟩ := h
    obtain ⟨items, hitems, hvalid, hwrites⟩ := forall₂_written.mp hparts
    exact ⟨parts.flatten, items, heq, ⟨parts, rfl, hitems⟩, hvalid, hwrites⟩
  · obtain ⟨front, items, heq, ⟨parts, rfl, hparts⟩, hvalid, hwrites⟩ := h
    exact ⟨parts, heq, forall₂_written.mpr ⟨items, hparts, hvalid, hwrites⟩⟩

/-- **What is accepted**: items that are valid, with or without tokens that belong to no clause. -/
theorem parseH2FramesStatement_eq_ok {tokens : List String} {out : List Bytes} :
    parseH2FramesStatement unicodeName? tokens = .ok out ↔
      ∃ items, Spells unicodeName? tokens items ∧ (∀ item ∈ items, item.Valid) ∧
        List.Forall₂ Item.Writes items out := by
  refine ⟨fun h => ?_, fun h => ?_⟩
  · rw [parseH2FramesStatement] at h
    cases hfold : foldUntil (nextItem unicodeName?) (advances_nextItem unicodeName?)
        (fun result b => result ++ [b]) [] tokens with
    | error e =>
        rw [hfold] at h
        cases h
    | ok r =>
        rw [hfold] at h
        cases h
        obtain ⟨bs, s₁, hreads, hnone, hout⟩ := foldUntil_eq_ok.mp hfold
        obtain ⟨rfl, -⟩ := nextItem_eq_none.mp hnone
        obtain ⟨front, items, heq, hspells, hvalid, hwrites⟩ := readsSome_items.mp hreads
        rw [List.append_nil] at heq
        rw [hout, foldl_concat, List.nil_append, heq]
        exact ⟨items, hspells, hvalid, hwrites⟩
  · obtain ⟨items, hspells, hvalid, hwrites⟩ := h
    have hreads : ReadsSome (nextItem unicodeName?) tokens out [] :=
      readsSome_items.mpr ⟨tokens, items, (List.append_nil _).symm, hspells, hvalid, hwrites⟩
    rw [parseH2FramesStatement, foldUntil_eq_ok.mpr ⟨out, [], hreads, rfl, rfl⟩, foldl_concat]
    rfl

/-- **What raises another exception**: a frame that fails its checks. -/
theorem parseH2FramesStatement_raised_iff {tokens : List String} :
    (∃ e, parseH2FramesStatement unicodeName? tokens = .error (.raised e)) ↔
      ReachesFailure unicodeName? tokens := by
  refine ⟨fun h => ?_, fun h => ?_⟩
  · obtain ⟨e, h⟩ := h
    rw [parseH2FramesStatement] at h
    cases hfold : foldUntil (nextItem unicodeName?) (advances_nextItem unicodeName?)
        (fun result b => result ++ [b]) [] tokens with
    | ok r =>
        rw [hfold] at h
        cases h
    | error e' =>
        rw [hfold] at h
        cases h
        obtain ⟨bs, rest, hreads, herror⟩ := foldUntil_eq_error.mp hfold
        obtain ⟨front, items, heq, hspells, hvalid, -⟩ := readsSome_items.mp hreads
        exact ⟨front, items, rest, heq, hspells, hvalid, nextItem_raised_iff.mp ⟨e, herror⟩⟩
  · obtain ⟨front, items, rest, heq, hspells, hvalid, hfails⟩ := h
    obtain ⟨e, he⟩ := nextItem_raised_iff.mpr hfails
    obtain ⟨parts, -, hparts⟩ := id hspells
    obtain ⟨bs, hbs⟩ := exists_writes hparts hvalid
    have hreads := readsSome_items.mpr ⟨front, items, heq, hspells, hvalid, hbs⟩
    rw [parseH2FramesStatement, foldUntil_eq_error.mpr ⟨bs, rest, hreads, he⟩]
    exact ⟨e, rfl⟩

/-! ### One reading -/

/-- **An item** is spelled in one way only. -/
theorem Item.Spelled.unique {part part' : List String} {item item' : Item}
    (h : item.Spelled unicodeName? part) (h' : item'.Spelled unicodeName? part')
    {it it' : List String} (heq : part ++ it = part' ++ it') : item = item' ∧ it = it' := by
  cases h with
  | pri h =>
      cases h' with
      | pri h' => exact ⟨rfl, (List.cons.inj heq).2⟩
      | frame hstart _ _ =>
          rw [(List.cons.inj heq).1, hstart] at h
          exact absurd h (by decide)
  | @frame start stop parts clauses hstart h hstop =>
      cases h' with
      | pri h' =>
          rw [← (List.cons.inj heq).1, hstart] at h'
          exact absurd h' (by decide)
      | @frame start' stop' parts' clauses' _ h' hstop' =>
          rw [List.cons_append, List.cons_append, List.append_assoc, List.append_assoc] at heq
          have hrest := (List.cons.inj heq).2
          have hreads' := readsSome_clauses h' ([stop'] ++ it')
          rw [← hrest] at hreads'
          have hend {stop : String} (hstop : lowerText stop = "]") (it : List String) :
              ∀ c it₁, nextClause unicodeName? ([stop] ++ it) ≠ .ok (some c, it₁) := by
            intro c it₁ hsome
            rw [List.singleton_append, nextClause_of_stop hstop] at hsome
            cases hsome
          obtain ⟨rfl, hit⟩ := (readsSome_clauses h ([stop] ++ it)).unique (hend hstop it)
            hreads' (hend hstop' it')
          exact ⟨rfl, (List.cons.inj hit).2⟩

/-- **The tokens** are one list of items only. -/
theorem Spells.unique {tokens : List String} {items items' : List Item}
    (h : Spells unicodeName? tokens items) (h' : Spells unicodeName? tokens items') :
    items = items' := by
  obtain ⟨parts, rfl, hparts⟩ := h
  obtain ⟨parts', heq, hparts'⟩ := h'
  induction hparts generalizing parts' items' with
  | nil =>
      cases hparts' with
      | nil => rfl
      | cons hitem _ => exact absurd (List.append_eq_nil_iff.mp heq.symm).1 hitem.ne_nil
  | cons hitem _ ih =>
      cases hparts' with
      | nil => exact absurd (List.append_eq_nil_iff.mp heq).1 hitem.ne_nil
      | cons hitem' hitems' =>
          rw [List.flatten_cons, List.flatten_cons] at heq
          obtain ⟨rfl, hrest⟩ := hitem.unique hitem' heq
          rw [ih _ hrest hitems']

/-- Valid items are accepted. -/
theorem accepts_of_spells {tokens : List String} {items : List Item}
    (h : Spells unicodeName? tokens items) (hvalid : ∀ item ∈ items, item.Valid) :
    ∃ out, parseH2FramesStatement unicodeName? tokens = .ok out := by
  obtain ⟨parts, -, hparts⟩ := id h
  obtain ⟨out, hout⟩ := exists_writes hparts hvalid
  exact ⟨out, parseH2FramesStatement_eq_ok.mpr ⟨items, h, hvalid, hout⟩⟩

theorem InLanguage.accepts {tokens : List String} {items : List Item}
    (h : InLanguage unicodeName? tokens items) :
    ∃ out, parseH2FramesStatement unicodeName? tokens = .ok out :=
  accepts_of_spells h.1 fun item hitem => (h.2 item hitem).2

/-- Where the tokens are accepted, it is a matter of the tokens that belong to no clause. -/
theorem meets_ok_iff {tokens : List String} {out : List Bytes}
    (h : parseH2FramesStatement unicodeName? tokens = .ok out) :
    Meets unicodeName? tokens (.ok out) ↔ ¬ HasUnknown unicodeName? tokens := by
  obtain ⟨items, hspells, hvalid, hwrites⟩ := parseH2FramesStatement_eq_ok.mp h
  refine ⟨fun hmeets hunknown => ?_, fun hknown => ⟨fun items' h' => ?_, fun hnot => ?_⟩⟩
  · obtain ⟨items', hspells', -, item, hmem, hitem⟩ := hunknown
    have hnot : ¬ ∃ items, InLanguage unicodeName? tokens items := by
      rintro ⟨items₁, hspells₁, hitems₁⟩
      rw [hspells'.unique hspells₁] at hmem
      exact hitem (hitems₁ item hmem).1
    obtain ⟨m, hm⟩ := hmeets.2 hnot
    cases hm
  · rw [← hspells.unique h'.1]
    exact ⟨out, rfl, hwrites⟩
  · refine absurd ⟨items, hspells, fun item hitem => ⟨?_, hvalid item hitem⟩⟩ hnot
    by_contra hitem'
    exact hknown ⟨items, hspells, hvalid, item, hitem, hitem'⟩

theorem meets_parseError {tokens : List String} {m : String}
    (h : parseH2FramesStatement unicodeName? tokens = .error (.replParseError m)) :
    Meets unicodeName? tokens (.error (.replParseError m)) := by
  refine ⟨fun items hitems => ?_, fun _ => ⟨m, rfl⟩⟩
  obtain ⟨out, hout⟩ := hitems.accepts
  rw [h] at hout
  cases hout

theorem not_meets_raised {tokens : List String} {e : PyError}
    (h : parseH2FramesStatement unicodeName? tokens = .error (.raised e)) :
    ¬ Meets unicodeName? tokens (.error (.raised e)) := by
  intro hmeets
  by_cases hlanguage : ∃ items, InLanguage unicodeName? tokens items
  · obtain ⟨items, hitems⟩ := hlanguage
    obtain ⟨out, hout⟩ := hitems.accepts
    rw [h] at hout
    cases hout
  · obtain ⟨m, hm⟩ := hmeets.2 hlanguage
    cases hm

/-- **The language is accepted**, and anything else is a parse error, exactly if no frame fails its
checks behind items that do not, and tokens that belong to no clause are not all that is wrong. -/
theorem meets_iff (unicodeName? : Bytes → Option Nat) (tokens : List String) :
    Meets unicodeName? tokens (parseH2FramesStatement unicodeName? tokens) ↔
      ¬ ReachesFailure unicodeName? tokens ∧ ¬ HasUnknown unicodeName? tokens := by
  rw [← parseH2FramesStatement_raised_iff]
  cases hparse : parseH2FramesStatement unicodeName? tokens with
  | ok out =>
      have hraises : ¬ ∃ e, (.ok out : Except (FramesError PyError) (List Bytes)) =
          .error (.raised e) := by
        rintro ⟨e, h⟩
        cases h
      rw [meets_ok_iff hparse, and_iff_right hraises]
  | error e =>
      cases e with
      | replParseError m =>
          refine iff_of_true (meets_parseError hparse) ⟨fun h => ?_, fun h => ?_⟩
          · obtain ⟨e, he⟩ := h
            cases he
          · obtain ⟨items, hspells, hvalid, -⟩ := h
            obtain ⟨out, hout⟩ := accepts_of_spells hspells hvalid
            rw [hparse] at hout
            cases hout
      | raised e => exact iff_of_false (not_meets_raised hparse) fun h => h.1 ⟨e, rfl⟩

/-- In `[ type data foo ]` the last token is passed over. -/
theorem not_meets :
    ¬ ∀ (unicodeName? : Bytes → Option Nat) (tokens : List String),
      Meets unicodeName? tokens (parseH2FramesStatement unicodeName? tokens) := by
  intro h
  have hclauses : List.Forall₂ (Clause.Spelled fun _ => none) [["type", "data"], ["foo"]]
      [.typ 0, .nothing] :=
    .cons (.typ (by decide) (by decide)) (.cons (.nothing (by decide)) .nil)
  have hspells : Spells (fun _ => none) ["[", "type", "data", "foo", "]"]
      [.frame [.typ 0, .nothing]] :=
    ⟨[["[", "type", "data", "foo", "]"]], rfl,
      .cons (.frame (by decide) hclauses (by decide)) .nil⟩
  have hvalid : ∀ item ∈ [Item.frame [.typ 0, .nothing]], item.Valid := by
    intro item hitem
    rw [List.mem_singleton.mp hitem]
    exact ⟨by decide, by decide, by decide, by decide⟩
  have hunknown : HasUnknown (fun _ => none) ["[", "type", "data", "foo", "]"] :=
    ⟨_, hspells, hvalid, _, List.mem_singleton_self _, fun hknown => hknown (by simp)⟩
  obtain ⟨out, hout⟩ := accepts_of_spells hspells hvalid
  have hmeets := h (fun _ => none) ["[", "type", "data", "foo", "]"]
  rw [hout] at hmeets
  exact (meets_ok_iff hout).mp hmeets hunknown

end HttpGarden.Repl.H2Frames
