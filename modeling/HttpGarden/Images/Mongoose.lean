import HttpGarden.Lib.JsonText
import HttpGarden.Lib.Splice
import HttpGarden.Python

/-!
# HttpGarden.Images.Mongoose

`main.c` of the **mongoose harness**. `cb` encodes every field of a request into the same scratch
space, each behind a check of its length, and copies it from there into a buffer that grows.

The check before the version looks at the length of the method. `cb_faithful_iff` says for which
requests the report is right nevertheless.

Lengths are those of objects in memory, so that sums of `size_t` do not wrap. Memory does not run
out.
-/

namespace HttpGarden.Mongoose

open Lib

/-! ### The buffer -/

/-- `INITIAL_BUF_SIZE`, which is also the size of the two scratch spaces. -/
def INITIAL_BUF_SIZE : Nat := 65535

/-- `buf`, `buf_size` and `buf_size_remaining`: the bytes of the heap block, and how many of them,
at its end, are free. -/
structure Buffer where
  mem : Bytes
  remaining : Nat
  remaining_le : remaining ≤ mem.length

/-- The part that is not free. -/
def Buffer.used (b : Buffer) : Bytes := b.mem.take (b.mem.length - b.remaining)

/-- What `mg_base64_encode` does, and what stands in memory that nobody has written to. -/
structure Runtime where
  /-- `mg_base64_encode(p, n, dst, dl)`: what is in `dst` afterwards. -/
  base64Encode : Bytes → Bytes → Bytes
  length_base64Encode : ∀ p dst, (base64Encode p dst).length = dst.length
  base64Encode_of_fits : ∀ p dst, (Base64.encode p).length + 1 ≤ dst.length →
    Base64.encode p ++ [0] <+: base64Encode p dst
  /-- New memory on the heap. -/
  fresh : Nat → UInt8
  /-- What stands behind the scratch space. -/
  beyond : Nat → UInt8

variable (rt : Runtime)

/-- Memory from `malloc`, or what `realloc` adds. -/
def Runtime.block : Bytes := (List.range INITIAL_BUF_SIZE).map rt.fresh

theorem Runtime.length_block : rt.block.length = INITIAL_BUF_SIZE := by
  rw [block, List.length_map, List.length_range]

/-- `malloc(INITIAL_BUF_SIZE)` -/
def Buffer.malloc : Buffer := ⟨rt.block, INITIAL_BUF_SIZE, rt.length_block.ge⟩

/-- The loop in `add_to_buffer`. -/
def Buffer.grow (srcSize : Nat) (b : Buffer) : Buffer :=
  if b.remaining < srcSize then
    grow srcSize ⟨b.mem ++ rt.block, b.remaining + INITIAL_BUF_SIZE, by
      rw [List.length_append, rt.length_block]
      exact Nat.add_le_add_right b.remaining_le _⟩
  else b
termination_by srcSize - b.remaining
decreasing_by
  rw [INITIAL_BUF_SIZE]
  omega

theorem Buffer.grow_spec (srcSize : Nat) (b : Buffer) :
    (b.grow rt srcSize).used = b.used ∧ srcSize ≤ (b.grow rt srcSize).remaining := by
  induction b using Buffer.grow.induct rt srcSize with
  | case1 b h ih =>
      rw [grow, if_pos h]
      refine ⟨ih.1.trans ?_, ih.2⟩
      have hle := b.remaining_le
      rw [used, used, List.length_append, rt.length_block, Nat.add_sub_add_right,
        List.take_append_of_le_length (by omega)]
  | case2 b h =>
      rw [grow, if_neg h]
      exact ⟨rfl, by omega⟩

/-- `add_to_buffer` -/
def Buffer.add (b : Buffer) (src : Bytes) : Buffer :=
  let b' := b.grow rt src.length
  ⟨splice (b'.mem.length - b'.remaining) src.length src b'.mem, b'.remaining - src.length, by
    have hle := b'.remaining_le
    have hsrc : src.length ≤ b'.remaining := (b.grow_spec rt src.length).2
    rw [length_splice (by omega)]
    omega⟩

/-- **What is added** comes behind what is there. -/
theorem Buffer.used_add (b : Buffer) (src : Bytes) : (b.add rt src).used = b.used ++ src := by
  obtain ⟨hused, hsrc⟩ := b.grow_spec rt src.length
  have hle := (b.grow rt src.length).remaining_le
  rw [add, used]
  dsimp only
  rw [length_splice (by omega), ← hused, used, ← take_splice (k := src.length) (by omega)]
  congr 1
  omega

/-! ### The callback -/

/-- `struct mg_str`: `none` is a null pointer. -/
abbrev MgStr := Option Bytes

/-- What `s.len` bytes at `s.buf` are. -/
def content (s : MgStr) : Bytes := s.getD []

/-- `struct mg_http_message`, as it is parsed. -/
structure Message where
  method : Bytes
  uri : Bytes
  query : Bytes
  proto : Bytes
  headers : List (MgStr × MgStr)
  body : Bytes

/-- `base64_encoded_len` -/
def base64EncodedLen (plaintextLen : Nat) : Nat :=
  4 * (plaintextLen / 3) + if plaintextLen % 3 ≠ 0 then 4 else 0

/-- A copy from the scratch space: how many bytes `mg_base64_encode` has written there before, and
how many are taken. -/
structure Copy where
  written : Nat
  taken : Nat

/-- The buffer, `B64_SCRATCH_SPACE`, and the copies made from there. -/
structure St where
  buf : Buffer
  scratch : Bytes
  copies : List Copy

inductive Reply
  | badRequest (text : String)
  | ok (json : Bytes)

structure Result where
  reply : Reply
  copies : List Copy

/-- Reading `n` bytes from the beginning of the scratch space, or from beyond its end. -/
def readScratch (scratch : Bytes) (n : Nat) : Bytes :=
  (List.range n).map fun i => scratch.getD i (rt.beyond i)

/-- Something constant is added to the buffer. -/
def St.add (st : St) (src : Bytes) : St := { st with buf := st.buf.add rt src }

/-- `mg_base64_encode(data, …)`, and `add_to_buffer` from the scratch space. -/
def St.addEncoded (st : St) (data : Bytes) : St :=
  let scratch := rt.base64Encode data st.scratch
  let taken := base64EncodedLen data.length
  { buf := st.buf.add rt (readScratch rt scratch taken)
    scratch := scratch
    copies := st.copies ++ [⟨if taken + 1 ≤ scratch.length then taken + 1 else 0, taken⟩] }

/-- The check of a length before a field is encoded. -/
def require (len : Nat) (tooLong : String) (st : St) (k : Result) : Result :=
  if base64EncodedLen len + 1 > INITIAL_BUF_SIZE then ⟨.badRequest tooLong, st.copies⟩ else k

def PAYLOAD_START : Bytes := bytes "\x7b\"headers\":["
def PAYLOAD_FIRST_HEADER_START : Bytes := bytes "[\""
def PAYLOAD_HEADER_START : Bytes := bytes ",[\""
def PAYLOAD_HEADER_MID : Bytes := bytes "\",\""
def PAYLOAD_HEADER_END : Bytes := bytes "\"]"
def PAYLOAD_BODY_BEGIN : Bytes := bytes "],\"body\":\""
def PAYLOAD_URI_BEGIN : Bytes := bytes "\",\"uri\":\""
def PAYLOAD_METHOD_BEGIN : Bytes := bytes "\",\"method\":\""
def PAYLOAD_VERSION_BEGIN : Bytes := bytes "\",\"version\":\""
def PAYLOAD_END : Bytes := bytes "\"\x7d"

/-- The loop over the headers in `cb`. -/
def addHeaders : List (MgStr × MgStr) → Nat → St → (St → Result) → Result
  | [], _, st, k => k st
  | (name, value) :: headers, headersEncountered, st, k =>
    -- an empty header
    if name = none ∧ value = none then addHeaders headers headersEncountered st k
    else
      let st := st.add rt
        (if headersEncountered = 0 then PAYLOAD_FIRST_HEADER_START else PAYLOAD_HEADER_START)
      require (content name).length "Header name too long" st <|
      let st := (st.addEncoded rt (content name)).add rt PAYLOAD_HEADER_MID
      require (content value).length "Header value too long" st <|
      let st := (st.addEncoded rt (content value)).add rt PAYLOAD_HEADER_END
      addHeaders headers (headersEncountered + 1) st k

/-- `STRCAT_SCRATCH_SPACE` after the URI and the query are written to it, and `uri_len`. -/
def concatUri (strcat : Bytes) (m : Message) : Bytes × Nat :=
  let strcat := splice 0 1 [0] strcat
  let (strcat, uriLen) :=
    if m.uri.length > 0 then
      (splice m.uri.length 1 [0] (splice 0 m.uri.length m.uri strcat), m.uri.length)
    else (strcat, 0)
  if m.query.length > 0 then
    (splice (uriLen + 1 + m.query.length) 1 [0]
      (splice (uriLen + 1) m.query.length m.query (splice uriLen 1 [63] strcat)),
      uriLen + 1 + m.query.length)
  else (strcat, uriLen)

/-- What `%s` makes of a buffer. -/
def cString (mem : Bytes) : Bytes := mem.takeWhile (· != 0)

/-- The end of `cb`, from the check before the version on. -/
def addVersion (m : Message) (st : St) : Result :=
  -- the length of the method, once more
  require m.method.length "Request method too long" st <|
  let st := (st.add rt PAYLOAD_VERSION_BEGIN).addEncoded rt m.proto
  let st := st.add rt (PAYLOAD_END ++ [0])
  ⟨.ok (cString st.buf.mem), st.copies⟩

/-- `cb`, with what the two scratch spaces hold from the request before. -/
def cb (scratch strcat : Bytes) (m : Message) : Result :=
  let st := St.add rt ⟨Buffer.malloc rt, scratch, []⟩ PAYLOAD_START
  addHeaders rt m.headers 0 st fun st =>
  require m.body.length "Request body too large" st <|
  let st := (st.add rt PAYLOAD_BODY_BEGIN).addEncoded rt m.body
  if m.uri.length + 1 + m.query.length + 1 > INITIAL_BUF_SIZE then
    ⟨.badRequest "Request URI too long", st.copies⟩
  else
    let (strcat, uriLen) := concatUri strcat m
    require uriLen "Request URI too long" st <|
    let st := (st.add rt PAYLOAD_URI_BEGIN).addEncoded rt (strcat.take uriLen)
    require m.method.length "Request method too long" st <|
    let st := (st.add rt PAYLOAD_METHOD_BEGIN).addEncoded rt m.method
    addVersion rt m st

/-! ### What a right answer is -/

/-- The headers that are there. -/
def present (headers : List (MgStr × MgStr)) : List (Bytes × Bytes) :=
  (headers.filter fun h => !(h.1.isNone && h.2.isNone)).map fun h => (content h.1, content h.2)

/-- The URI, and the query behind a question mark if there is one. -/
def Message.target (m : Message) : Bytes := m.uri ++ if m.query = [] then [] else 63 :: m.query

/-- A JSON string that is the encoding of this. -/
def Decodes (v : JsonText.Value) (data : Bytes) : Prop :=
  ∃ raw, v = .str raw ∧ Base64.decode raw = some data

/-- The text is a JSON object whose fields decode to those of the message. -/
def Reports (m : Message) (json : Bytes) : Prop :=
  ∃ headers body uri method version,
    JsonText.parse json = some (.obj
      [(bytes "headers", .arr headers), (bytes "body", body), (bytes "uri", uri),
        (bytes "method", method), (bytes "version", version)]) ∧
      List.Forall₂ (fun (h : Bytes × Bytes) v => ∃ name value,
        v = .arr [name, value] ∧ Decodes name h.1 ∧ Decodes value h.2) (present m.headers) headers ∧
      Decodes body m.body ∧ Decodes uri m.target ∧ Decodes method m.method ∧
      Decodes version m.proto

/-- Nothing is taken that the encoder has not written. -/
def CopiesWritten (copies : List Copy) : Prop := ∀ c ∈ copies, c.taken ≤ c.written

/-- The message is refused, or reported as it is, and only what was written is copied. -/
def Faithful (m : Message) (r : Result) : Prop :=
  ((∃ text, r.reply = .badRequest text) ∨ ∃ json, r.reply = .ok json ∧ Reports m json) ∧
    CopiesWritten r.copies

/-- The encoding of so many bytes fits into the scratch space. -/
def Fits (len : Nat) : Prop := base64EncodedLen len + 1 ≤ INITIAL_BUF_SIZE

instance (len : Nat) : Decidable (Fits len) :=
  inferInstanceAs (Decidable (base64EncodedLen len + 1 ≤ INITIAL_BUF_SIZE))

/-- None of the fields that are checked is too long. -/
structure Accepted (m : Message) : Prop where
  headers : ∀ h ∈ present m.headers, Fits h.1.length ∧ Fits h.2.length
  body : Fits m.body.length
  strcat : m.uri.length + 1 + m.query.length + 1 ≤ INITIAL_BUF_SIZE
  target : Fits m.target.length
  method : Fits m.method.length

/-! ### One step after the other -/

theorem base64EncodedLen_eq (n : Nat) : base64EncodedLen n = Base64.encodedLength n := by
  rw [base64EncodedLen, Base64.encodedLength]
  split <;> omega

/-- Neither a constant nor an encoding has a null in it. -/
def NoNul (s : Bytes) : Prop := ∀ c ∈ s, c ≠ 0

instance (s : Bytes) : Decidable (NoNul s) :=
  decidable_of_iff (s.all (· != 0) = true) (by simp [NoNul])

theorem noNul_encode (data : Bytes) : NoNul (Base64.encode data) :=
  Base64.forall_encode (P := fun c => c ≠ 0) (by decide)
    (fun v hv => (by decide : ∀ v : Fin 64, Base64.digit v ≠ 0) ⟨v, hv⟩) data

theorem noNul_append {s t : Bytes} : NoNul (s ++ t) ↔ NoNul s ∧ NoNul t := List.forall_mem_append

/-- So far so good: this text is in the buffer, and only what was written has been copied. -/
structure Good (st : St) (text : Bytes) : Prop where
  used : st.buf.used = text
  noNul : NoNul text
  length_scratch : st.scratch.length = INITIAL_BUF_SIZE
  copies : CopiesWritten st.copies

variable {rt} {st : St} {text : Bytes}

theorem Good.add (h : Good st text) (rt : Runtime) (src : Bytes) (hsrc : NoNul src) :
    Good (st.add rt src) (text ++ src) where
  used := by rw [St.add, Buffer.used_add, h.used]
  noNul := noNul_append.mpr ⟨h.noNul, hsrc⟩
  length_scratch := h.length_scratch
  copies := h.copies

/-- What was written to the beginning of the scratch space is read from there. -/
theorem readScratch_of_prefix {s scratch : Bytes} (h : s <+: scratch) :
    readScratch rt scratch s.length = s := by
  obtain ⟨t, rfl⟩ := h
  refine List.ext_getElem (by rw [readScratch, List.length_map, List.length_range]) ?_
  intro i _ hi
  simp only [readScratch, List.getElem_map, List.getElem_range]
  rw [List.getD_eq_getElem _ _ (by rw [List.length_append]; omega), List.getElem_append_left hi]

/-- The copy of an encoding. -/
def copyOf (len : Nat) : Copy :=
  ⟨if base64EncodedLen len + 1 ≤ INITIAL_BUF_SIZE then base64EncodedLen len + 1 else 0,
    base64EncodedLen len⟩

theorem copies_addEncoded (h : st.scratch.length = INITIAL_BUF_SIZE) (data : Bytes) :
    (st.addEncoded rt data).copies = st.copies ++ [copyOf data.length] := by
  rw [St.addEncoded, copyOf, ← h, ← rt.length_base64Encode data st.scratch]

/-- **A field that fits** is added in its encoding. -/
theorem Good.addEncoded (h : Good st text) (rt : Runtime) {data : Bytes}
    (hfits : Fits data.length) : Good (st.addEncoded rt data) (text ++ Base64.encode data) where
  used := by
    rw [Fits, base64EncodedLen_eq, ← Base64.length_encode] at hfits
    have hwritten := (List.prefix_append _ _).trans
      (rt.base64Encode_of_fits data st.scratch (by rw [h.length_scratch]; exact hfits))
    rw [St.addEncoded]
    dsimp only
    rw [Buffer.used_add, h.used, base64EncodedLen_eq, ← Base64.length_encode,
      readScratch_of_prefix hwritten]
  noNul := noNul_append.mpr ⟨h.noNul, noNul_encode data⟩
  length_scratch := (rt.length_base64Encode data st.scratch).trans h.length_scratch
  copies := by
    rw [copies_addEncoded h.length_scratch]
    intro c hc
    rcases List.mem_append.mp hc with hc | hc
    · exact h.copies c hc
    · rw [List.mem_singleton.mp hc, copyOf]
      exact (Nat.le_succ _).trans_eq (if_pos hfits).symm

/-- The answer is an error, and nothing was wrong with the copies until then. -/
def Refuses (r : Result) : Prop := (∃ text, r.reply = .badRequest text) ∧ CopiesWritten r.copies

theorem require_cases (h : Good st text) (len : Nat) (tooLong : String) (k : Result) :
    (Fits len ∧ require len tooLong st k = k) ∨
      (¬ Fits len ∧ Refuses (require len tooLong st k)) := by
  by_cases hfits : Fits len
  · exact .inl ⟨hfits, if_neg (Nat.not_lt.mpr hfits)⟩
  · rw [require, if_pos (Nat.not_le.mp hfits)]
    exact .inr ⟨hfits, ⟨tooLong, rfl⟩, h.copies⟩

/-! ### The headers -/

/-- How one header is written. -/
def headerText (h : Bytes × Bytes) : Bytes :=
  JsonText.array [JsonText.string (Base64.encode h.1), JsonText.string (Base64.encode h.2)]

/-- How headers are written, if so many are there already. -/
def headersText (headersEncountered : Nat) (headers : List (Bytes × Bytes)) : Bytes :=
  if headersEncountered = 0 then [44].intercalate (headers.map headerText)
  else (headers.map headerText).flatMap fun t => 44 :: t

theorem headersText_nil (n : Nat) : headersText n [] = [] := by
  rw [headersText]
  split <;> rfl

theorem headersText_cons (n : Nat) (h : Bytes × Bytes) (headers : List (Bytes × Bytes)) :
    headersText n (h :: headers) =
      (if n = 0 then PAYLOAD_FIRST_HEADER_START else PAYLOAD_HEADER_START) ++
        Base64.encode h.1 ++ PAYLOAD_HEADER_MID ++ Base64.encode h.2 ++ PAYLOAD_HEADER_END ++
          headersText (n + 1) headers := by
  have hfirst : PAYLOAD_FIRST_HEADER_START = [91, 34] := by decide
  have hstart : PAYLOAD_HEADER_START = [44, 91, 34] := by decide
  have hmid : PAYLOAD_HEADER_MID = [34, 44, 34] := by decide
  have hend : PAYLOAD_HEADER_END = [34, 93] := by decide
  rw [hfirst, hstart, hmid, hend, headersText, headersText, if_neg (Nat.succ_ne_zero n),
    List.map_cons, JsonText.intercalate_cons, List.flatMap_cons, headerText, JsonText.array_pair]
  split <;> simp

theorem present_cons (name value : MgStr) (headers : List (MgStr × MgStr)) :
    present ((name, value) :: headers) =
      if name = none ∧ value = none then present headers
      else (content name, content value) :: present headers := by
  cases name <;> cases value <;> simp [present]

/-- **The loop over the headers**: they are all written, or one of them is too long. -/
theorem addHeaders_cases (headers : List (MgStr × MgStr)) (n : Nat) (h : Good st text)
    (k : St → Result) :
    ((∀ h ∈ present headers, Fits h.1.length ∧ Fits h.2.length) ∧
        ∃ st', Good st' (text ++ headersText n (present headers)) ∧
          addHeaders rt headers n st k = k st') ∨
      ((¬ ∀ h ∈ present headers, Fits h.1.length ∧ Fits h.2.length) ∧
        Refuses (addHeaders rt headers n st k)) := by
  induction headers generalizing n st text with
  | nil =>
      refine .inl ⟨fun _ hmem => absurd hmem List.not_mem_nil, st, ?_, rfl⟩
      rw [present, List.filter_nil, List.map_nil, headersText_nil, List.append_nil]
      exact h
  | cons header headers ih =>
      obtain ⟨name, value⟩ := header
      rw [addHeaders, present_cons]
      by_cases hempty : name = none ∧ value = none
      · rw [if_pos hempty, if_pos hempty]
        exact ih n h
      · rw [if_neg hempty, if_neg hempty]
        dsimp only
        have hstart : NoNul (if n = 0 then PAYLOAD_FIRST_HEADER_START else PAYLOAD_HEADER_START) := by
          split <;> decide
        have h := h.add rt _ hstart
        rw [List.forall_mem_cons]
        rcases require_cases h (content name).length "Header name too long" _ with
          ⟨hname, heq⟩ | ⟨hname, hrefuses⟩
        · rw [heq]
          have h := (h.addEncoded rt hname).add rt PAYLOAD_HEADER_MID (by decide)
          rcases require_cases h (content value).length "Header value too long" _ with
            ⟨hvalue, heq⟩ | ⟨hvalue, hrefuses⟩
          · rw [heq, headersText_cons]
            have h := (h.addEncoded rt hvalue).add rt PAYLOAD_HEADER_END (by decide)
            have hrest := ih (n + 1) h
            simp only [List.append_assoc] at hrest ⊢
            rcases hrest with ⟨hfits, hgood⟩ | ⟨hfits, hrefuses⟩
            · exact .inl ⟨⟨⟨hname, hvalue⟩, hfits⟩, hgood⟩
            · exact .inr ⟨fun hall => hfits hall.2, hrefuses⟩
          · exact .inr ⟨fun hall => hvalue hall.1.2, hrefuses⟩
        · exact .inr ⟨fun hall => hname hall.1.1, hrefuses⟩

/-! ### The URI and the query -/

/-- The URI alone. -/
theorem concatUri_uri {strcat : Bytes} {m : Message} (h : m.uri.length < strcat.length) :
    ∃ strcat', strcat'.length = strcat.length ∧ strcat'.take m.uri.length = m.uri ∧
      (if m.uri.length > 0 then
        (splice m.uri.length 1 [0] (splice 0 m.uri.length m.uri (splice 0 1 [0] strcat)),
          m.uri.length)
      else (splice 0 1 [0] strcat, 0)) = (strcat', m.uri.length) := by
  have hzero : (splice 0 1 [0] strcat).length = strcat.length :=
    length_splice (u := [0]) (by simp; omega)
  by_cases hpos : m.uri.length > 0
  · have huri : (splice 0 m.uri.length m.uri (splice 0 1 [0] strcat)).length = strcat.length :=
      (length_splice (by omega)).trans hzero
    refine ⟨_, ?_, ?_, if_pos hpos⟩
    · exact (length_splice (u := [0]) (by simp; omega)).trans huri
    · have htake := take_splice (u := m.uri) (Nat.zero_le (splice 0 1 [0] strcat).length)
        m.uri.length
      rw [Nat.zero_add, List.take_zero, List.nil_append] at htake
      rw [take_splice_left (by omega), htake]
  · have hnil : m.uri = [] := List.eq_nil_of_length_eq_zero (by omega)
    refine ⟨_, hzero, ?_, ?_⟩
    · rw [hnil]
      rfl
    · rw [if_neg hpos, hnil]
      rfl

/-- **The URI and the query** stand in the scratch space one behind the other. -/
theorem concatUri_eq {strcat : Bytes} {m : Message} (h : strcat.length = INITIAL_BUF_SIZE)
    (hfits : m.uri.length + 1 + m.query.length + 1 ≤ INITIAL_BUF_SIZE) :
    ∃ strcat', concatUri strcat m = (strcat', m.target.length) ∧
      strcat'.take m.target.length = m.target := by
  have hlt : m.uri.length < strcat.length := by omega
  obtain ⟨strcat', hlength, htake, huri⟩ := concatUri_uri hlt
  rw [concatUri]
  dsimp only
  rw [huri, Message.target]
  dsimp only
  by_cases hpos : m.query.length > 0
  · have hmark : (splice m.uri.length 1 [63] strcat').length = strcat'.length :=
      length_splice (u := [63]) (by simp; omega)
    have hquery : (splice (m.uri.length + 1) m.query.length m.query
        (splice m.uri.length 1 [63] strcat')).length = strcat'.length :=
      (length_splice (by omega)).trans hmark
    have htarget : (m.uri ++ 63 :: m.query).length = m.uri.length + 1 + m.query.length := by
      rw [List.length_append, List.length_cons]
      omega
    have hbefore := take_splice (u := [63]) (show m.uri.length ≤ strcat'.length by omega) 1
    rw [List.length_singleton, htake] at hbefore
    rw [if_pos hpos, if_neg (List.length_pos_iff.mp hpos), htarget]
    refine ⟨_, rfl, ?_⟩
    rw [take_splice_left (by omega), take_splice (by omega), hbefore, List.append_assoc,
      List.singleton_append]
  · have hnil : m.query = [] := List.eq_nil_of_length_eq_zero (by omega)
    rw [if_neg hpos, if_pos hnil, List.append_nil]
    exact ⟨strcat', rfl, htake⟩

/-! ### The answer -/

/-- What is in the buffer when only the version is left. -/
def opened (m : Message) : Bytes :=
  PAYLOAD_START ++ headersText 0 (present m.headers) ++ PAYLOAD_BODY_BEGIN ++
    Base64.encode m.body ++ PAYLOAD_URI_BEGIN ++ Base64.encode m.target ++
      PAYLOAD_METHOD_BEGIN ++ Base64.encode m.method

/-- **Up to the version**: a field that is too long makes an error, and otherwise everything is in
the buffer. -/
theorem cb_cases (rt : Runtime) {scratch strcat : Bytes}
    (hscratch : scratch.length = INITIAL_BUF_SIZE) (hstrcat : strcat.length = INITIAL_BUF_SIZE)
    (m : Message) :
    (Accepted m ∧ ∃ st, Good st (opened m) ∧ cb rt scratch strcat m = addVersion rt m st) ∨
      (¬ Accepted m ∧ Refuses (cb rt scratch strcat m)) := by
  have hstart : Good ⟨Buffer.malloc rt, scratch, []⟩ [] :=
    ⟨by rw [Buffer.malloc, Buffer.used, rt.length_block, Nat.sub_self, List.take_zero],
      fun _ h => absurd h List.not_mem_nil, hscratch, fun _ h => absurd h List.not_mem_nil⟩
  have h := hstart.add rt PAYLOAD_START (by decide)
  rw [cb]
  rcases addHeaders_cases m.headers 0 h _ with ⟨hheaders, st, h, heq⟩ | ⟨hheaders, hrefuses⟩
  swap
  · exact .inr ⟨fun hall => hheaders hall.headers, hrefuses⟩
  rw [heq]
  rcases require_cases h m.body.length "Request body too large" _ with
    ⟨hbody, heq⟩ | ⟨hbody, hrefuses⟩
  swap
  · exact .inr ⟨fun hall => hbody hall.body, hrefuses⟩
  rw [heq]
  have h := (h.add rt PAYLOAD_BODY_BEGIN (by decide)).addEncoded rt hbody
  by_cases hlong : m.uri.length + 1 + m.query.length + 1 > INITIAL_BUF_SIZE
  · rw [if_pos hlong]
    exact .inr ⟨fun hall => Nat.not_lt.mpr hall.strcat hlong, ⟨_, rfl⟩, h.copies⟩
  obtain ⟨strcat', hconcat, htarget⟩ := concatUri_eq hstrcat (Nat.not_lt.mp hlong)
  rw [if_neg hlong, hconcat]
  dsimp only
  rcases require_cases h m.target.length "Request URI too long" _ with
    ⟨huri, heq⟩ | ⟨huri, hrefuses⟩
  swap
  · exact .inr ⟨fun hall => huri hall.target, hrefuses⟩
  rw [heq, htarget]
  have h := (h.add rt PAYLOAD_URI_BEGIN (by decide)).addEncoded rt huri
  rcases require_cases h m.method.length "Request method too long" _ with
    ⟨hmethod, heq⟩ | ⟨hmethod, hrefuses⟩
  swap
  · exact .inr ⟨fun hall => hmethod hall.method, hrefuses⟩
  rw [heq]
  have h := (h.add rt PAYLOAD_METHOD_BEGIN (by decide)).addEncoded rt hmethod
  exact .inl ⟨⟨hheaders, hbody, Nat.not_lt.mp hlong, huri, hmethod⟩, _, h, rfl⟩

/-- The report of a message. -/
def document (m : Message) : Bytes :=
  JsonText.object
    [(bytes "headers", JsonText.array ((present m.headers).map headerText)),
      (bytes "body", JsonText.string (Base64.encode m.body)),
      (bytes "uri", JsonText.string (Base64.encode m.target)),
      (bytes "method", JsonText.string (Base64.encode m.method))]
    (bytes "version", JsonText.string (Base64.encode m.proto))

theorem opened_append (m : Message) :
    opened m ++ PAYLOAD_VERSION_BEGIN ++ Base64.encode m.proto ++ PAYLOAD_END = document m := by
  have hstart : PAYLOAD_START = 123 :: (JsonText.string (bytes "headers") ++ [58, 91]) := by
    decide
  have hbody : PAYLOAD_BODY_BEGIN = [93, 44] ++ (JsonText.string (bytes "body") ++ [58, 34]) := by
    decide
  have huri : PAYLOAD_URI_BEGIN = [34, 44] ++ (JsonText.string (bytes "uri") ++ [58, 34]) := by
    decide
  have hmethod : PAYLOAD_METHOD_BEGIN =
      [34, 44] ++ (JsonText.string (bytes "method") ++ [58, 34]) := by decide
  have hversion : PAYLOAD_VERSION_BEGIN =
      [34, 44] ++ (JsonText.string (bytes "version") ++ [58, 34]) := by decide
  have hend : PAYLOAD_END = [34, 125] := by decide
  rw [opened, document, JsonText.object, JsonText.openObject, hstart, hbody, huri, hmethod,
    hversion, hend, headersText, if_pos rfl]
  simp only [JsonText.string, JsonText.array, List.flatMap_cons, List.flatMap_nil,
    List.append_assoc, List.cons_append, List.nil_append, List.append_nil]

/-- `%s` stops at the null that `PAYLOAD_END` brings along. -/
theorem cString_of_used {b : Buffer} (h : b.used = text ++ [0]) (hnul : NoNul text) :
    cString b.mem = text := by
  have hmem : b.mem = text ++ (0 :: b.mem.drop (b.mem.length - b.remaining)) := by
    rw [← List.singleton_append, ← List.append_assoc, ← h, Buffer.used, List.take_append_drop]
  have hall : ∀ c ∈ text, (c != 0) = true := fun c hc => bne_iff_ne.mpr (hnul c hc)
  rw [cString, hmem, List.takeWhile_append_of_pos hall]
  exact List.append_nil text

/-- A version that fits completes the report. -/
theorem addVersion_of_fits (rt : Runtime) {m : Message} (h : Good st (opened m))
    (hmethod : Fits m.method.length) (hproto : Fits m.proto.length) :
    (addVersion rt m st).reply = .ok (document m) ∧
      CopiesWritten (addVersion rt m st).copies := by
  have h := (h.add rt PAYLOAD_VERSION_BEGIN (by decide)).addEncoded rt hproto
  have hnul : NoNul (document m) := by
    rw [← opened_append]
    exact noNul_append.mpr ⟨h.noNul, by decide⟩
  rw [addVersion, require, if_neg (Nat.not_lt.mpr hmethod)]
  refine ⟨congrArg Reply.ok (cString_of_used ?_ hnul), h.copies⟩
  rw [St.add, Buffer.used_add, h.used, ← List.append_assoc, opened_append]

/-- A version that does not fit is copied all the same. -/
theorem addVersion_of_not_fits {m : Message} (h : Good st (opened m))
    (hmethod : Fits m.method.length) (hproto : ¬ Fits m.proto.length) :
    ¬ CopiesWritten (addVersion rt m st).copies := by
  intro hwritten
  have h := h.add rt PAYLOAD_VERSION_BEGIN (by decide)
  have hcopies : (addVersion rt m st).copies =
      (st.add rt PAYLOAD_VERSION_BEGIN).copies ++ [copyOf m.proto.length] := by
    rw [addVersion, require, if_neg (Nat.not_lt.mpr hmethod)]
    exact copies_addEncoded h.length_scratch m.proto
  rw [hcopies] at hwritten
  have hlast : base64EncodedLen m.proto.length ≤ 0 :=
    (hwritten _ (List.mem_append_right _ (List.mem_singleton_self _))).trans_eq (if_neg hproto)
  have hlong := Nat.not_le.mp hproto
  rw [INITIAL_BUF_SIZE] at hlong
  omega

theorem spells_encode (data : Bytes) :
    JsonText.Spells (JsonText.string (Base64.encode data)) (.str (Base64.encode data)) :=
  JsonText.spells_str (JsonText.plain_encode data)

theorem parse_document (m : Message) : JsonText.parse (document m) = some (.obj
    [(bytes "headers", .arr ((present m.headers).map fun h =>
        .arr [.str (Base64.encode h.1), .str (Base64.encode h.2)])),
      (bytes "body", .str (Base64.encode m.body)),
      (bytes "uri", .str (Base64.encode m.target)),
      (bytes "method", .str (Base64.encode m.method)),
      (bytes "version", .str (Base64.encode m.proto))]) := by
  have hplain : ∀ key ∈ [bytes "headers", bytes "body", bytes "uri", bytes "method",
      bytes "version"], JsonText.Plain key := by
    simp [JsonText.Plain, JsonText.isPlain, bytes]
  have hheaders : List.Forall₂ JsonText.Spells ((present m.headers).map headerText)
      ((present m.headers).map fun h =>
        .arr [.str (Base64.encode h.1), .str (Base64.encode h.2)]) := by
    rw [List.forall₂_map_left_iff, List.forall₂_map_right_iff, List.forall₂_same]
    exact fun h _ => JsonText.spells_arr (.cons (spells_encode _) (.cons (spells_encode _) .nil))
  exact (JsonText.spells_obj (w := [(bytes "headers", _), (bytes "body", _), (bytes "uri", _),
      (bytes "method", _)])
    (.cons ⟨rfl, hplain _ (by simp), JsonText.spells_arr hheaders⟩
      (.cons ⟨rfl, hplain _ (by simp), spells_encode m.body⟩
        (.cons ⟨rfl, hplain _ (by simp), spells_encode m.target⟩
          (.cons ⟨rfl, hplain _ (by simp), spells_encode m.method⟩ .nil))))
    (hplain (bytes "version") (by simp)) (spells_encode m.proto)).parse_eq

/-- **What is sent** is a report of the message. -/
theorem reports_document (m : Message) : Reports m (document m) := by
  have hdecodes (data : Bytes) : Decodes (.str (Base64.encode data)) data :=
    ⟨_, rfl, Base64.decode_encode data⟩
  refine ⟨_, _, _, _, _, parse_document m, ?_, hdecodes _, hdecodes _, hdecodes _, hdecodes _⟩
  rw [List.forall₂_map_right_iff, List.forall₂_same]
  exact fun h _ => ⟨_, _, rfl, hdecodes _, hdecodes _⟩

/-- **A message is refused or reported as it is** exactly if its version fits into the scratch
space, or something else is refused. -/
theorem cb_faithful_iff (rt : Runtime) (scratch strcat : Bytes)
    (hscratch : scratch.length = INITIAL_BUF_SIZE) (hstrcat : strcat.length = INITIAL_BUF_SIZE)
    (m : Message) :
    Faithful m (cb rt scratch strcat m) ↔ Fits m.proto.length ∨ ¬ Accepted m := by
  rcases cb_cases rt hscratch hstrcat m with ⟨haccepted, st, h, heq⟩ | ⟨hnot, hrefuses⟩
  · rw [heq, or_iff_left (not_not_intro haccepted)]
    refine ⟨fun hfaithful => ?_, fun hproto => ?_⟩
    · by_contra hproto
      exact addVersion_of_not_fits h haccepted.method hproto hfaithful.2
    · obtain ⟨hreply, hcopies⟩ := addVersion_of_fits rt h haccepted.method hproto
      exact ⟨.inr ⟨_, hreply, reports_document m⟩, hcopies⟩
  · exact iff_of_true ⟨.inl hrefuses.1, hrefuses.2⟩ (.inr hnot)

/-- `mg_base64_encode`, which leaves an empty string where the encoding does not fit. -/
def mgBase64Encode (p dst : Bytes) : Bytes :=
  if (Base64.encode p ++ [0]).length ≤ dst.length then
    splice 0 (Base64.encode p ++ [0]).length (Base64.encode p ++ [0]) dst
  else dst.set 0 0

/-- All memory is zero at first. -/
def Runtime.zeroed : Runtime where
  base64Encode := mgBase64Encode
  length_base64Encode := by
    intro p dst
    rw [mgBase64Encode]
    split
    · next h => exact length_splice (by omega)
    · exact List.length_set
  base64Encode_of_fits := by
    intro p dst h
    rw [mgBase64Encode, if_pos (by rw [List.length_append]; exact h), splice, List.take_zero]
    exact List.prefix_append _ _
  fresh := fun _ => 0
  beyond := fun _ => 0

/-- Scratch space that nothing was written to. -/
def untouched : Bytes := List.replicate INITIAL_BUF_SIZE 0

theorem length_untouched : untouched.length = INITIAL_BUF_SIZE := List.length_replicate

/-- `GET / HTTP/1.1`, with a header. -/
theorem cb_faithful_iff_get :
    untouched.length = INITIAL_BUF_SIZE ∧
      (Faithful ⟨bytes "GET", bytes "/", [], bytes "HTTP/1.1",
            [(some (bytes "Host"), some (bytes "a")), (none, none)], []⟩
          (cb .zeroed untouched untouched ⟨bytes "GET", bytes "/", [], bytes "HTTP/1.1",
            [(some (bytes "Host"), some (bytes "a")), (none, none)], []⟩) ↔
        Fits (bytes "HTTP/1.1").length ∨
          ¬ Accepted ⟨bytes "GET", bytes "/", [], bytes "HTTP/1.1",
            [(some (bytes "Host"), some (bytes "a")), (none, none)], []⟩) :=
  ⟨length_untouched, cb_faithful_iff .zeroed untouched untouched length_untouched length_untouched _⟩

/-- A version of 49150 bytes is copied from the scratch space, where its encoding does not fit. -/
theorem not_cb_faithful :
    ¬ ∀ (rt : Runtime) (scratch strcat : Bytes), scratch.length = INITIAL_BUF_SIZE →
      strcat.length = INITIAL_BUF_SIZE → ∀ m, Faithful m (cb rt scratch strcat m) := by
  intro h
  have haccepted : Accepted ⟨[71], [47], [], List.replicate 49150 72, [], []⟩ :=
    ⟨fun _ h => absurd h List.not_mem_nil, by decide, by decide, by decide, by decide⟩
  have hproto : ¬ Fits (List.replicate 49150 (72 : UInt8)).length := by
    rw [List.length_replicate]
    decide
  rcases cb_cases .zeroed length_untouched length_untouched
    ⟨[71], [47], [], List.replicate 49150 72, [], []⟩ with ⟨-, st, hgood, heq⟩ | ⟨hnot, -⟩
  · have hfaithful := h .zeroed untouched untouched length_untouched length_untouched
      ⟨[71], [47], [], List.replicate 49150 72, [], []⟩
    rw [heq] at hfaithful
    exact addVersion_of_not_fits hgood haccepted.method hproto hfaithful.2
  · exact hnot haccepted

end HttpGarden.Mongoose
