import HttpGarden.Python
import Mathlib.Logic.Function.Basic

/-!
# HttpGarden.Images.Libmicrohttpd

`garden_server.c` of the **libmicrohttpd harness**. Its `callback` keeps the progress of a
request (`first`, `fd`, `body_fd`) in variables that all connections share.

The calls come from one polling thread. `Event` says what libmicrohttpd does, on any number
of connections: a first call for each request, calls with upload data, and a final call,
or the connection is dropped in between.

* `neverMixes_iff`: the responses are never mixed up exactly if every first call finds the
  request before it finished.

A file is what was written to it; `apr_encode_base64` is the parameter `base64`.
-/

namespace HttpGarden.Libmicrohttpd

/-- What a callback is told about a request, apart from its body. -/
structure Request where
  method : Bytes
  url : Bytes
  version : Bytes
  headers : List (Bytes × Bytes)
  deriving DecidableEq

/-- The static variables of `callback`. A descriptor is `none` for -1, else the contents of
its file. -/
structure Statics where
  first : Bool
  fd : Option Bytes
  bodyFd : Option Bytes
  opened : first = false → fd.isSome ∧ bodyFd.isSome

/-- Before the first call. -/
def Statics.init : Statics := ⟨true, none, none, nofun⟩

/-! ### The callback -/

def READ_SIZE : Nat := 4096

/-- `read_fd`: reads until one is short. -/
def readFd (file : Bytes) : Bytes :=
  let justRead := file.take READ_SIZE
  if justRead.length < READ_SIZE then justRead else justRead ++ readFd (file.drop READ_SIZE)
termination_by file.length
decreasing_by
  simp only [justRead, List.length_take, READ_SIZE, List.length_drop] at *
  omega

section

variable (base64 : Bytes → Bytes)

/-- `process_header`, on `arg->first` and the file. -/
def processHeader (arg : Bool × Bytes) (header : Bytes × Bytes) : Bool × Bytes :=
  (false, arg.2 ++ (if arg.1 then [] else bytes ",") ++ bytes "[\"" ++ base64 header.1 ++
    bytes "\",\"" ++ base64 header.2 ++ bytes "\"]")

/-- The message up to the body. -/
def messageHead (r : Request) : Bytes :=
  let fd := bytes "\x7b\"method\":\"" ++ base64 r.method ++ bytes "\",\"uri\":\"" ++ base64 r.url ++
    bytes "\",\"version\":\"" ++ base64 r.version ++ bytes "\",\"headers\":["
  (r.headers.foldl (processHeader base64) (true, fd)).2 ++ bytes "],\"body\":\""

/-- `callback`, with what it hands to `MHD_queue_response`, if it does. -/
def callback (st : Statics) (r : Request) (uploadData : Bytes) : Statics × Option Bytes :=
  if h : st.first then (⟨false, some (messageHead base64 r), some [], fun _ => ⟨rfl, rfl⟩⟩, none)
  else
    have hopened := st.opened (Bool.eq_false_iff.mpr h)
    if uploadData.length ≠ 0 then
      -- not the first call, and the data is not done being uploaded
      (⟨st.first, st.fd, st.bodyFd.map (· ++ uploadData), fun _ => ⟨hopened.1, by simpa using hopened.2⟩⟩,
        none)
    else
      let body := readFd (st.bodyFd.get hopened.2)
      let fd := st.fd.get hopened.1 ++ base64 body ++ bytes "\"\x7d"
      (⟨true, none, none, nofun⟩, some fd)

/-- The message of a request with its full body. -/
def message (r : Request) (body : Bytes) : Bytes :=
  messageHead base64 r ++ base64 body ++ bytes "\"\x7d"

end

/-- A file is read to its end, however long it is. -/
theorem readFd_eq (file : Bytes) : readFd file = file := by
  induction file using readFd.induct with
  | case1 file justRead h =>
      have hlt : file.length < READ_SIZE := by
        simp only [justRead, List.length_take] at h
        omega
      rw [readFd, if_pos h]
      exact List.take_of_length_le hlt.le
  | case2 file justRead h ih =>
      rw [readFd, if_neg h, ih]
      exact List.take_append_drop READ_SIZE file

/-! ### Connections -/

/-- A request that has had its first call, and the part of its body that has had calls. -/
structure Progress where
  request : Request
  body : Bytes

/-- What happens on a connection. -/
inductive Event (Conn : Type)
  | first (c : Conn) (r : Request)
  | upload (c : Conn) (data : Bytes)
  | final (c : Conn)
  | drop (c : Conn)

/-- The variables of `callback`, and the request in progress on each connection. -/
structure System (Conn : Type) where
  statics : Statics
  progress : Conn → Option Progress

variable {Conn : Type} [DecidableEq Conn]

def System.init : System Conn := ⟨.init, fun _ => none⟩

/-- The order of the calls for one request. -/
def Enabled (sys : System Conn) : Event Conn → Prop
  | .first c _ => sys.progress c = none
  | .upload c data => (sys.progress c).isSome ∧ data ≠ []
  | .final c => (sys.progress c).isSome
  | .drop _ => True

section

variable (base64 : Bytes → Bytes)

/-- One event, with the connection and the message of the response that it queues. -/
def System.step (sys : System Conn) (ev : Event Conn) : System Conn × Option (Conn × Bytes) :=
  match ev with
  | .first c r =>
    let (statics, queued) := callback base64 sys.statics r []
    (⟨statics, Function.update sys.progress c (some ⟨r, []⟩)⟩, queued.map (c, ·))
  | .upload c data =>
    match sys.progress c with
    | none => (sys, none)
    | some p =>
      let (statics, queued) := callback base64 sys.statics p.request data
      (⟨statics, Function.update sys.progress c (some ⟨p.request, p.body ++ data⟩)⟩,
        queued.map (c, ·))
  | .final c =>
    match sys.progress c with
    | none => (sys, none)
    | some p =>
      let (statics, queued) := callback base64 sys.statics p.request []
      (⟨statics, Function.update sys.progress c none⟩, queued.map (c, ·))
  | .drop c => ({ sys with progress := Function.update sys.progress c none }, none)

/-- The system after some events. -/
def System.after (events : List (Event Conn)) : System Conn :=
  events.foldl (fun sys ev => (sys.step base64 ev).1) .init

/-- libmicrohttpd keeps to the order of the calls. -/
def Orderly (events : List (Event Conn)) : Prop :=
  ∀ before ev after, events = before ++ ev :: after → Enabled (System.after base64 before) ev

/-- **Requests are never mixed**: a response is queued at the final call of a request, and it
carries that request and its full body. -/
def NeverMixes (events : List (Event Conn)) : Prop :=
  ∀ before ev after, events = before ++ ev :: after →
    ∀ c json, ((System.after base64 before).step base64 ev).2 = some (c, json) →
      ev = .final c ∧ ∃ p, (System.after base64 before).progress c = some p ∧
        json = message base64 p.request p.body

/-- Every first call finds that the request before it has had its final call. -/
def FirstsFindFree (events : List (Event Conn)) : Prop :=
  ∀ before c r after, events = before ++ .first c r :: after →
    (System.after base64 before).statics.first = true

/-! ### One event -/

variable {base64}

theorem callback_of_first {st : Statics} (h : st.first = true) (r : Request) (data : Bytes) :
    callback base64 st r data =
      (⟨false, some (messageHead base64 r), some [], fun _ => ⟨rfl, rfl⟩⟩, none) := by
  rw [callback, dif_pos h]

variable (base64) in
theorem callback_of_upload {st : Statics} (h : st.first = false) (r : Request) {data : Bytes}
    (hdata : data ≠ []) : (callback base64 st r data).2 = none ∧
      (callback base64 st r data).1.first = false ∧ (callback base64 st r data).1.fd = st.fd ∧
      (callback base64 st r data).1.bodyFd = st.bodyFd.map (· ++ data) := by
  have hlen : data.length ≠ 0 := by simpa using hdata
  rw [callback, dif_neg (Bool.eq_false_iff.mp h)]
  simp only [if_pos hlen, h, and_self]

theorem callback_of_final {st : Statics} (h : st.first = false) (r : Request) {fd body : Bytes}
    (hfd : st.fd = some fd) (hbody : st.bodyFd = some body) :
    callback base64 st r [] =
      (.init, some (fd ++ base64 body ++ bytes "\"\x7d")) := by
  rw [callback, dif_neg (Bool.eq_false_iff.mp h)]
  simp only [hfd, hbody, readFd_eq, Option.get_some]
  rfl

/-- The variables belong to the one request that is in progress. -/
structure Inv (base64 : Bytes → Bytes) (sys : System Conn) : Prop where
  idle : sys.statics.first = true → ∀ c, sys.progress c = none
  busy : ∀ c p, sys.progress c = some p → sys.statics.first = false ∧
    sys.statics.fd = some (messageHead base64 p.request) ∧ sys.statics.bodyFd = some p.body ∧
    ∀ c', c' ≠ c → sys.progress c' = none

omit [DecidableEq Conn] in
theorem inv_init : Inv base64 (.init : System Conn) := ⟨fun _ _ => rfl, nofun⟩

theorem update_progress_some {progress : Conn → Option Progress} {c : Conn} {q : Progress}
    (hothers : ∀ c', c' ≠ c → progress c' = none) {c' : Conn} {p : Progress}
    (h : Function.update progress c (some q) c' = some p) : p = q ∧ c' = c := by
  by_cases hc : c' = c
  · rw [hc, Function.update_self] at h
    exact ⟨(Option.some.inj h).symm, hc⟩
  · rw [Function.update_of_ne hc, hothers c' hc] at h
    cases h

/-- **One event** keeps the invariant, if a first call finds the variables free. -/
theorem inv_step {sys : System Conn} {ev : Event Conn} (h : Inv base64 sys)
    (hev : Enabled sys ev) (hfree : ∀ c r, ev = .first c r → sys.statics.first = true) :
    Inv base64 (sys.step base64 ev).1 := by
  cases ev with
  | first c r =>
      have hfirst := hfree c r rfl
      have hothers : ∀ c', c' ≠ c → sys.progress c' = none := fun c' _ => h.idle hfirst c'
      simp only [System.step, callback_of_first hfirst]
      refine ⟨nofun, fun c' p hp => ?_⟩
      obtain ⟨rfl, rfl⟩ := update_progress_some hothers hp
      exact ⟨rfl, rfl, rfl, fun c'' hc => (Function.update_of_ne hc _ _).trans (hothers c'' hc)⟩
  | upload c data =>
      obtain ⟨p, hp⟩ := Option.isSome_iff_exists.mp hev.1
      obtain ⟨hfirst, hfd, hbody, hothers⟩ := h.busy c p hp
      obtain ⟨-, hfirst', hfd', hbody'⟩ :=
        callback_of_upload base64 hfirst p.request hev.2
      simp only [System.step, hp]
      refine ⟨fun hidle => absurd (hfirst'.symm.trans hidle) Bool.false_ne_true, fun c' q hq => ?_⟩
      obtain ⟨rfl, rfl⟩ := update_progress_some hothers hq
      refine ⟨hfirst', hfd'.trans hfd, ?_, fun c'' hc => ?_⟩
      · rw [hbody', hbody]
        rfl
      · exact (Function.update_of_ne hc _ _).trans (hothers c'' hc)
  | final c =>
      obtain ⟨p, hp⟩ := Option.isSome_iff_exists.mp hev
      obtain ⟨hfirst, hfd, hbody, hothers⟩ := h.busy c p hp
      have hnone : ∀ c', Function.update sys.progress c none c' = none := by
        intro c'
        by_cases hc : c' = c
        · rw [hc, Function.update_self]
        · rw [Function.update_of_ne hc, hothers c' hc]
      simp only [System.step, hp, callback_of_final hfirst p.request hfd hbody]
      exact ⟨fun _ => hnone, fun c' q hq => nomatch (hnone c').symm.trans hq⟩
  | drop c =>
      have hsub : ∀ c' p, Function.update sys.progress c none c' = some p →
          sys.progress c' = some p := by
        intro c' p hp
        by_cases hc : c' = c
        · rw [hc, Function.update_self] at hp
          cases hp
        · rwa [Function.update_of_ne hc] at hp
      have hnone : ∀ c', sys.progress c' = none → Function.update sys.progress c none c' = none := by
        intro c' hc'
        by_cases hc : c' = c
        · rw [hc, Function.update_self]
        · rwa [Function.update_of_ne hc]
      refine ⟨fun hfirst c' => hnone c' (h.idle hfirst c'), fun c' p hp => ?_⟩
      obtain ⟨hfirst, hfd, hbody, hothers⟩ := h.busy c' p (hsub c' p hp)
      exact ⟨hfirst, hfd, hbody, fun c'' hc => hnone c'' (hothers c'' hc)⟩

/-- A response that is queued while the variables belong to the request in progress. -/
theorem queued_of_inv {sys : System Conn} {ev : Event Conn} (h : Inv base64 sys)
    (hev : Enabled sys ev) (hfree : ∀ c r, ev = .first c r → sys.statics.first = true) {c : Conn}
    {json : Bytes} (hqueued : (sys.step base64 ev).2 = some (c, json)) :
    ev = .final c ∧ ∃ p, sys.progress c = some p ∧ json = message base64 p.request p.body := by
  cases ev with
  | first c' r =>
      simp only [System.step, callback_of_first (hfree c' r rfl)] at hqueued
      cases hqueued
  | upload c' data =>
      obtain ⟨p, hp⟩ := Option.isSome_iff_exists.mp hev.1
      have hnone := (callback_of_upload base64 (h.busy c' p hp).1 p.request hev.2).1
      simp only [System.step, hp, hnone] at hqueued
      cases hqueued
  | final c' =>
      obtain ⟨p, hp⟩ := Option.isSome_iff_exists.mp hev
      obtain ⟨hfirst, hfd, hbody, -⟩ := h.busy c' p hp
      simp only [System.step, hp, callback_of_final hfirst p.request hfd hbody] at hqueued
      cases hqueued
      exact ⟨rfl, p, hp, rfl⟩
  | drop c' => cases hqueued

/-! ### All events -/

theorem after_append (before : List (Event Conn)) (ev : Event Conn) :
    System.after base64 (before ++ [ev]) = ((System.after base64 before).step base64 ev).1 := by
  rw [System.after, List.foldl_append]
  rfl

theorem inv_after {events : List (Event Conn)} (ho : Orderly base64 events)
    (hf : FirstsFindFree base64 events) {before after : List (Event Conn)}
    (h : events = before ++ after) : Inv base64 (System.after base64 before) := by
  induction before using List.reverseRecOn generalizing after with
  | nil => exact inv_init
  | append_singleton before ev ih =>
      rw [List.append_assoc] at h
      rw [after_append]
      refine inv_step (ih h) (ho before ev after h) ?_
      rintro c r rfl
      exact hf before c r after h

/-- **When requests are not mixed**: exactly when every first call finds the request before
it finished, on whichever connection, and not abandoned. -/
theorem neverMixes_iff {events : List (Event Conn)} (ho : Orderly base64 events) :
    NeverMixes base64 events ↔ FirstsFindFree base64 events := by
  refine ⟨fun h before c r after hsplit => ?_, fun hf before ev after hsplit c json hqueued => ?_⟩
  · by_contra hbusy
    -- the call is taken for the final one of the other request
    have hfirst : (System.after base64 before).statics.first = false := by simpa using hbusy
    have hopened := (System.after base64 before).statics.opened hfirst
    obtain ⟨fd, hfd⟩ := Option.isSome_iff_exists.mp hopened.1
    obtain ⟨body, hbody⟩ := Option.isSome_iff_exists.mp hopened.2
    have hqueued : ((System.after base64 before).step base64 (.first c r)).2 =
        some (c, fd ++ base64 body ++ bytes "\"\x7d") := by
      simp only [System.step, callback_of_final hfirst r hfd hbody]
      rfl
    obtain ⟨hev, -⟩ := h before _ after hsplit c _ hqueued
    cases hev
  · refine queued_of_inv (inv_after ho hf hsplit) (ho before ev after hsplit) ?_ hqueued
    rintro c' r rfl
    exact hf before c' r after hsplit

end

/-- Two requests, and the encodings of what is in them. -/
def getA : Request := ⟨bytes "GET", bytes "/a", bytes "HTTP/1.1", []⟩

def getB : Request := ⟨bytes "GET", bytes "/b", bytes "HTTP/1.1", []⟩

def base64Table (b : Bytes) : Bytes :=
  if b = bytes "GET" then bytes "R0VU" else if b = bytes "/a" then bytes "L2E="
  else if b = bytes "/b" then bytes "L2I=" else if b = bytes "HTTP/1.1" then bytes "SFRUUC8xLjE="
  else []

/-- What holds of each event and the system before it. -/
def Along (base64 : Bytes → Bytes) (P : System Conn → Event Conn → Prop) :
    System Conn → List (Event Conn) → Prop
  | _, [] => True
  | sys, ev :: events => P sys ev ∧ Along base64 P (sys.step base64 ev).1 events

theorem Along.of_split {base64 : Bytes → Bytes} {P : System Conn → Event Conn → Prop}
    {sys : System Conn} {events before after : List (Event Conn)} {ev : Event Conn}
    (h : Along base64 P sys events) (hsplit : events = before ++ ev :: after) :
    P (before.foldl (fun sys ev => (sys.step base64 ev).1) sys) ev := by
  induction before generalizing sys events with
  | nil =>
      rw [hsplit] at h
      exact h.1
  | cons e before ih =>
      rw [hsplit] at h
      exact ih h.2 rfl

/-- Uploads, and requests on two connections one after the other. The last one is abandoned. -/
def apartEvents : List (Event Nat) :=
  [.first 0 getA, .upload 0 (bytes "x"), .upload 0 (bytes "y"), .final 0, .first 1 getB, .final 1,
    .drop 0, .first 1 getA, .upload 1 (bytes "z"), .drop 1]

theorem neverMixes_iff_apart : NeverMixes base64Table apartEvents := by
  have horderly : Along base64Table Enabled .init apartEvents :=
    ⟨rfl, ⟨rfl, by decide⟩, ⟨rfl, by decide⟩, rfl, rfl, rfl, trivial, rfl, ⟨rfl, by decide⟩, trivial,
      trivial⟩
  have hfree : Along base64Table
      (fun sys ev => ∀ c r, ev = .first c r → sys.statics.first = true) .init apartEvents := by
    refine ⟨?_, ?_, ?_, ?_, ?_, ?_, ?_, ?_, ?_, ?_, trivial⟩
    all_goals
      intro c r h
      first | rfl | cases h
  refine (neverMixes_iff fun before ev after h => horderly.of_split h).mpr fun before c r after h => ?_
  exact hfree.of_split h c r rfl

/-- The first call on a second connection is answered with the request of the first one. -/
theorem not_neverMixes : Orderly base64Table [.first 0 getA, .first (1 : Nat) getB] ∧
    ((System.after base64Table [.first 0 getA]).step base64Table (.first (1 : Nat) getB)).2 =
      some (1, message base64Table getA []) ∧
    message base64Table getA [] ≠ message base64Table getB [] ∧
    ¬ NeverMixes base64Table [.first 0 getA, .first (1 : Nat) getB] := by
  have hmixed : ((System.after base64Table [.first 0 getA]).step base64Table
      (.first (1 : Nat) getB)).2 = some (1, message base64Table getA []) := by decide +kernel
  have horderly : Along base64Table Enabled .init [.first 0 getA, .first (1 : Nat) getB] :=
    ⟨rfl, rfl, trivial⟩
  refine ⟨fun before ev after h => horderly.of_split h, hmixed, by decide, fun h => ?_⟩
  obtain ⟨hev, -⟩ := h [.first 0 getA] _ [] rfl _ _ hmixed
  cases hev

end HttpGarden.Libmicrohttpd
