import HttpGarden.Lib.Base64
import Mathlib.Data.List.Basic

/-!
# HttpGarden.Lib.JsonText

**JSON texts**, read byte by byte with a stack of the arrays and objects that are open. Strings and
numbers are kept as they are spelled.

* `run_append`: a text is read part by part.
* `Spells`: reading a text from where a value is expected ends behind that value.
* `spells_str`, `spells_arr`: how strings and arrays are spelled.
* `run_openObject`, `spells_obj`: an object, and its beginning up to the value of some member.
-/

namespace HttpGarden.Lib.JsonText

/-- A value. Strings and numbers are what stands in the text. -/
inductive Value
  | null
  | bool (b : Bool)
  | num (text : List UInt8)
  | str (raw : List UInt8)
  | arr (items : List Value)
  | obj (members : List (List UInt8 × Value))

/-! ### Reading -/

/-- What is open around the place where the reader is: an array with its items so far, an object
before one of its keys, or an object at the value of a key. -/
inductive Frame
  | items (done : List Value)
  | keys (done : List (List UInt8 × Value))
  | member (done : List (List UInt8 × Value)) (key : List UInt8)

/-- What the reader expects. -/
inductive Mode
  | value
  /-- The first item of an array, or its end. -/
  | firstItem
  /-- The first key of an object, or its end. -/
  | firstKey
  | key
  | colon
  | string (raw : List UInt8)
  /-- The rest of an escape. -/
  | escape (raw : List UInt8)
  | hex (left : Nat) (raw : List UInt8)
  /-- The rest of a literal. -/
  | word (rest : List UInt8) (v : Value)
  | number (text : List UInt8)
  /-- A value has come to its end. -/
  | behind (v : Value)

structure State where
  mode : Mode
  stack : List Frame

/-- White space. -/
def isWs (c : UInt8) : Bool := c == 32 || c == 9 || c == 10 || c == 13

def isDigit (c : UInt8) : Bool := 48 ≤ c && c ≤ 57

def isHexDigit (c : UInt8) : Bool := isDigit c || (97 ≤ c && c ≤ 102) || (65 ≤ c && c ≤ 70)

/-- The bytes that numbers are made of: digits and `+-.Ee`. -/
def isNumberByte (c : UInt8) : Bool := isDigit c || [43, 45, 46, 69, 101].contains c

/-- One or more digits, and nothing else. -/
def isDigits (s : List UInt8) : Bool := !s.isEmpty && s.all isDigit

/-- An exponent, if there is one. -/
def isExponent : List UInt8 → Bool
  | [] => true
  | e :: s => (e == 69 || e == 101) &&
    match s with
    | 43 :: s => isDigits s
    | 45 :: s => isDigits s
    | s => isDigits s

/-- A fraction, if there is one, and then an exponent, if there is one. -/
def isFraction : List UInt8 → Bool
  | 46 :: s => !(s.takeWhile isDigit).isEmpty && isExponent (s.dropWhile isDigit)
  | s => isExponent s

/-- The spelling of a number without its sign: no zero stands before other digits. -/
def isUnsigned (s : List UInt8) : Bool :=
  match s.takeWhile isDigit with
  | [] => false
  | 48 :: _ :: _ => false
  | _ => isFraction (s.dropWhile isDigit)

/-- The spelling of a number. -/
def isNumber : List UInt8 → Bool
  | 45 :: s => isUnsigned s
  | s => isUnsigned s

/-- A byte that begins a value. -/
def beginValue (stack : List Frame) (c : UInt8) : Option State :=
  if c = 34 then some ⟨.string [], stack⟩
  else if c = 91 then some ⟨.firstItem, .items [] :: stack⟩
  else if c = 123 then some ⟨.firstKey, .keys [] :: stack⟩
  else if c = 110 then some ⟨.word [117, 108, 108] .null, stack⟩
  else if c = 116 then some ⟨.word [114, 117, 101] (.bool true), stack⟩
  else if c = 102 then some ⟨.word [97, 108, 115, 101] (.bool false), stack⟩
  else if c = 45 || isDigit c then some ⟨.number [c], stack⟩
  else none

/-- A byte that begins a key. -/
def beginKey (stack : List Frame) (c : UInt8) : Option State :=
  if c = 34 then some ⟨.string [], stack⟩ else none

/-- The end of a string, which is a key or a value. -/
def endString (raw : List UInt8) : List Frame → State
  | .keys done :: stack => ⟨.colon, .member done raw :: stack⟩
  | stack => ⟨.behind (.str raw), stack⟩

/-- A byte behind a value. -/
def afterValue (v : Value) (stack : List Frame) (c : UInt8) : Option State :=
  if isWs c then some ⟨.behind v, stack⟩
  else
    match stack with
    | .items done :: stack =>
      if c = 44 then some ⟨.value, .items (done ++ [v]) :: stack⟩
      else if c = 93 then some ⟨.behind (.arr (done ++ [v])), stack⟩
      else none
    | .member done key :: stack =>
      if c = 44 then some ⟨.key, .keys (done ++ [(key, v)]) :: stack⟩
      else if c = 125 then some ⟨.behind (.obj (done ++ [(key, v)])), stack⟩
      else none
    | _ => none

/-- One byte; `none` is where no JSON text goes on like this. -/
def step (st : State) (c : UInt8) : Option State :=
  match st.mode with
  | .value => if isWs c then some st else beginValue st.stack c
  | .firstItem =>
    if isWs c then some st
    else if c = 93 then some ⟨.behind (.arr []), st.stack.tail⟩
    else beginValue st.stack c
  | .firstKey =>
    if isWs c then some st
    else if c = 125 then some ⟨.behind (.obj []), st.stack.tail⟩
    else beginKey st.stack c
  | .key => if isWs c then some st else beginKey st.stack c
  | .colon => if isWs c then some st else if c = 58 then some ⟨.value, st.stack⟩ else none
  | .string raw =>
    if c = 34 then some (endString raw st.stack)
    else if c = 92 then some ⟨.escape (raw ++ [c]), st.stack⟩
    else if c < 32 then none
    else some ⟨.string (raw ++ [c]), st.stack⟩
  | .escape raw =>
    if c = 117 then some ⟨.hex 4 (raw ++ [c]), st.stack⟩
    else if [34, 92, 47, 98, 102, 110, 114, 116].contains c then
      some ⟨.string (raw ++ [c]), st.stack⟩
    else none
  | .hex left raw =>
    if isHexDigit c then
      if left = 1 then some ⟨.string (raw ++ [c]), st.stack⟩
      else some ⟨.hex (left - 1) (raw ++ [c]), st.stack⟩
    else none
  | .word rest v =>
    match rest with
    | [] => none
    | d :: rest =>
      if c = d then
        if rest = [] then some ⟨.behind v, st.stack⟩ else some ⟨.word rest v, st.stack⟩
      else none
  | .number text =>
    if isNumberByte c then some ⟨.number (text ++ [c]), st.stack⟩
    else if isNumber text then afterValue (.num text) st.stack c
    else none
  | .behind v => afterValue v st.stack c

/-- One byte after the other. -/
def run : State → List UInt8 → Option State
  | st, [] => some st
  | st, c :: s => (step st c).bind fun st => run st s

/-- The value of a text, if it is one. -/
def parse (s : List UInt8) : Option Value :=
  match run ⟨.value, []⟩ s with
  | some ⟨.behind v, []⟩ => some v
  | some ⟨.number text, []⟩ => if isNumber text then some (.num text) else none
  | _ => none

theorem run_cons (st : State) (c : UInt8) (s : List UInt8) :
    run st (c :: s) = (step st c).bind fun st => run st s := rfl

/-- **Part by part.** -/
theorem run_append (st : State) (s t : List UInt8) :
    run st (s ++ t) = (run st s).bind fun st => run st t := by
  induction s generalizing st with
  | nil => rfl
  | cons c s ih =>
      rw [List.cons_append, run_cons, run_cons]
      cases step st c with
      | none => rfl
      | some st => exact ih st

theorem run_append_of {st st' : State} {s : List UInt8} (h : run st s = some st')
    (t : List UInt8) : run st (s ++ t) = run st' t := by
  rw [run_append, h]
  rfl

/-! ### Writing -/

/-- The bytes that stand for themselves in a string. -/
def isPlain (c : UInt8) : Bool := c != 34 && c != 92 && 32 ≤ c

/-- Nothing in the string needs an escape. -/
def Plain (raw : List UInt8) : Prop := ∀ c ∈ raw, isPlain c = true

instance (raw : List UInt8) : Decidable (Plain raw) :=
  decidable_of_iff (raw.all isPlain = true) List.all_eq_true

theorem isPlain_digit (v : Fin 64) : isPlain (Base64.digit v) = true := by decide +revert

/-- Base64 needs no escapes. -/
theorem plain_encode (s : List UInt8) : Plain (Base64.encode s) :=
  Base64.forall_encode (P := fun c => isPlain c = true) rfl
    (fun v hv => isPlain_digit ⟨v, hv⟩) s

def string (raw : List UInt8) : List UInt8 := 34 :: (raw ++ [34])

def array (items : List (List UInt8)) : List UInt8 := 91 :: ([44].intercalate items ++ [93])

/-- The members of an object up to the value of `key`, where the value of each member before it is
given by its text. -/
def openObject (members : List (List UInt8 × List UInt8)) (key : List UInt8) : List UInt8 :=
  123 :: ((members.flatMap fun m => string m.1 ++ 58 :: (m.2 ++ [44])) ++ (string key ++ [58]))

/-- An object with at least one member. -/
def object (members : List (List UInt8 × List UInt8)) (last : List UInt8 × List UInt8) :
    List UInt8 :=
  openObject members last.1 ++ (last.2 ++ [125])

/-- The reader expects a value, and so a string is not a key. -/
def AwaitsValue : List Frame → Prop
  | .keys _ :: _ => False
  | _ => True

theorem awaitsValue_items (done : List Value) (stack : List Frame) :
    AwaitsValue (.items done :: stack) := trivial

theorem awaitsValue_member (done : List (List UInt8 × Value)) (key : List UInt8)
    (stack : List Frame) : AwaitsValue (.member done key :: stack) := trivial

/-- The text is read as this value wherever a value is expected. -/
def Spells (text : List UInt8) (v : Value) : Prop :=
  ∀ stack, AwaitsValue stack → run ⟨.value, stack⟩ text = some ⟨.behind v, stack⟩

variable {raw text : List UInt8} {v : Value} {stack : List Frame}

theorem run_string (h : Plain raw) (before : List UInt8) (stack : List Frame) :
    run ⟨.string before, stack⟩ (raw ++ [34]) = some (endString (before ++ raw) stack) := by
  induction raw generalizing before with
  | nil =>
      rw [List.append_nil]
      rfl
  | cons c raw ih =>
      obtain ⟨hc, hraw⟩ := List.forall_mem_cons.mp h
      simp only [isPlain, Bool.and_eq_true, bne_iff_ne, decide_eq_true_eq] at hc
      have hstep : step ⟨.string before, stack⟩ c = some ⟨.string (before ++ [c]), stack⟩ := by
        simp only [step, if_neg hc.1.1, if_neg hc.1.2, if_neg (UInt8.not_lt.mpr hc.2)]
      rw [List.cons_append, run_cons, hstep, Option.bind_some, ih hraw, List.append_assoc,
        List.singleton_append]

theorem spells_str (h : Plain raw) : Spells (string raw) (.str raw) := by
  intro stack hstack
  have hend : endString raw stack = ⟨.behind (.str raw), stack⟩ := by
    cases stack with
    | nil => rfl
    | cons f stack =>
        cases f with
        | keys done => exact hstack.elim
        | items done => rfl
        | member done key => rfl
  rw [string, ← hend, ← List.nil_append raw]
  exact run_string h [] stack

/-- A value may be the first item of an array. -/
theorem Spells.run_firstItem (h : Spells text v) (hstack : AwaitsValue stack) :
    run ⟨.firstItem, stack⟩ text = some ⟨.behind v, stack⟩ := by
  have hrun := h stack hstack
  clear h
  induction text with
  | nil => cases hrun
  | cons c text ih =>
      rw [run_cons] at hrun ⊢
      by_cases hws : isWs c = true
      · simp only [step, if_pos hws, Option.bind_some] at hrun ⊢
        exact ih hrun
      · simp only [step, if_neg hws] at hrun ⊢
        have hend : c ≠ 93 := by
          rintro rfl
          cases hrun
        rw [if_neg hend]
        exact hrun

/-- Items behind the first one. -/
theorem run_items {texts : List (List UInt8)} {vs : List Value} (h : List.Forall₂ Spells texts vs)
    (done : List Value) (v : Value) :
    run ⟨.behind v, .items done :: stack⟩ (texts.flatMap fun t => 44 :: t) =
      some ⟨.behind ((v :: vs).getLast (List.cons_ne_nil v vs)),
        .items (done ++ (v :: vs).dropLast) :: stack⟩ := by
  induction h generalizing done v with
  | nil =>
      rw [List.dropLast_singleton, List.append_nil]
      rfl
  | cons h _ ih =>
      rw [List.flatMap_cons, List.cons_append, run_cons]
      show run ⟨.value, .items (done ++ [v]) :: stack⟩ _ = _
      rw [run_append_of (h _ (awaitsValue_items _ _)), ih, List.append_assoc]
      rfl

theorem intercalate_cons (c : UInt8) (t : List UInt8) (texts : List (List UInt8)) :
    [c].intercalate (t :: texts) = t ++ texts.flatMap fun t => c :: t := by
  induction texts generalizing t with
  | nil => simp [List.intercalate]
  | cons t' texts ih =>
      have hcons : [c].intercalate (t :: t' :: texts) = t ++ c :: [c].intercalate (t' :: texts) := by
        simp [List.intercalate]
      rw [hcons, ih, List.flatMap_cons, List.cons_append]

/-- An array of two strings. -/
theorem array_pair (a b : List UInt8) :
    array [string a, string b] = 91 :: 34 :: (a ++ (34 :: 44 :: 34 :: (b ++ [34, 93]))) := by
  rw [array, intercalate_cons]
  simp [string]

theorem spells_arr {texts : List (List UInt8)} {vs : List Value}
    (h : List.Forall₂ Spells texts vs) : Spells (array texts) (.arr vs) := by
  intro stack _
  rw [array, run_cons]
  show run ⟨.firstItem, .items [] :: stack⟩ _ = _
  cases h with
  | nil => rfl
  | @cons t v texts vs ht hts =>
      rw [intercalate_cons, List.append_assoc, run_append_of (ht.run_firstItem (awaitsValue_items _ _)),
        run_append_of (run_items hts [] v)]
      show some (State.mk (.behind (.arr ([] ++ (v :: vs).dropLast ++ [_]))) stack) = _
      rw [List.nil_append, List.dropLast_concat_getLast]

/-- A key and its colon. -/
theorem run_key {key : List UInt8} (h : Plain key) (done : List (List UInt8 × Value)) {st : State}
    (hst : st = ⟨.firstKey, .keys done :: stack⟩ ∨ st = ⟨.key, .keys done :: stack⟩) :
    run st (string key ++ [58]) = some ⟨.value, .member done key :: stack⟩ := by
  have hquote : step st 34 = some ⟨.string [], .keys done :: stack⟩ := by
    rcases hst with rfl | rfl <;> rfl
  rw [string, List.cons_append, run_cons, hquote, Option.bind_some,
    run_append_of (run_string h [] _)]
  rfl

theorem run_openMembers {members : List (List UInt8 × List UInt8)} {w : List (List UInt8 × Value)}
    (h : List.Forall₂ (fun m v => m.1 = v.1 ∧ Plain m.1 ∧ Spells m.2 v.2) members w)
    {key : List UInt8} (hkey : Plain key) (done : List (List UInt8 × Value)) {st : State}
    (hst : st = ⟨.firstKey, .keys done :: stack⟩ ∨ st = ⟨.key, .keys done :: stack⟩) :
    run st ((members.flatMap fun m => string m.1 ++ 58 :: (m.2 ++ [44])) ++ (string key ++ [58])) =
      some ⟨.value, .member (done ++ w) key :: stack⟩ := by
  induction h generalizing done st with
  | nil =>
      rw [List.append_nil]
      exact run_key hkey done hst
  | @cons m v members w hm _ ih =>
      obtain ⟨hname, hplain, hspells⟩ := hm
      have hsplit : (m :: members).flatMap (fun m => string m.1 ++ 58 :: (m.2 ++ [44])) ++
          (string key ++ [58]) = (string m.1 ++ [58]) ++ (m.2 ++ ([44] ++
            (members.flatMap (fun m => string m.1 ++ 58 :: (m.2 ++ [44])) ++
              (string key ++ [58])))) := by
        simp only [List.flatMap_cons, List.append_assoc, List.cons_append, List.nil_append]
      rw [hsplit, run_append_of (run_key hplain done hst), run_append_of (hspells _ (awaitsValue_member _ _ _))]
      refine (ih (done ++ [(m.1, v.2)]) (.inr rfl)).trans ?_
      rw [List.append_assoc, hname]
      rfl

/-- **The beginning of an object**, up to the value of a member. -/
theorem run_openObject {members : List (List UInt8 × List UInt8)} {w : List (List UInt8 × Value)}
    (h : List.Forall₂ (fun m v => m.1 = v.1 ∧ Plain m.1 ∧ Spells m.2 v.2) members w)
    {key : List UInt8} (hkey : Plain key) (stack : List Frame) :
    run ⟨.value, stack⟩ (openObject members key) = some ⟨.value, .member w key :: stack⟩ := by
  rw [openObject, run_cons]
  exact run_openMembers h hkey [] (.inl rfl)

theorem spells_obj {members : List (List UInt8 × List UInt8)} {w : List (List UInt8 × Value)}
    (h : List.Forall₂ (fun m v => m.1 = v.1 ∧ Plain m.1 ∧ Spells m.2 v.2) members w)
    {last : List UInt8 × List UInt8} {v : Value} (hkey : Plain last.1) (hlast : Spells last.2 v) :
    Spells (object members last) (.obj (w ++ [(last.1, v)])) := by
  intro stack _
  rw [object, run_append_of (run_openObject h hkey stack), run_append_of (hlast _ (awaitsValue_member _ _ _))]
  rfl

/-- A text that spells a value is read as that value. -/
theorem Spells.parse_eq (h : Spells text v) : parse text = some v := by
  rw [parse, h [] trivial]

/-- What no JSON text begins with. -/
theorem parse_append_of_none (h : run ⟨.value, []⟩ text = none) (t : List UInt8) :
    parse (text ++ t) = none := by
  rw [parse, run_append, h]
  rfl

end HttpGarden.Lib.JsonText
