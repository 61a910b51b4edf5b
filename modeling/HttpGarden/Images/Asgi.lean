import HttpGarden.Python

/-!
# HttpGarden.Images.Asgi

How the two **ASGI harnesses** read a request body: the loop in `app` of the hypercorn harness, and
`read_body` of the uvicorn harness.

One stops at an empty chunk, the other at a message without `more_body`. `bodies_agree_iff` says
for which chunks that is the same.
-/

namespace HttpGarden.Asgi

/-- What `receive()` returns: a dictionary, of which the harnesses read two keys. -/
structure Message where
  type : String
  body : Option Bytes
  moreBody : Option Bool
  deriving Repr, DecidableEq

/-- `http.request` -/
def httpRequest (body : Bytes) (moreBody : Bool) : Message :=
  ⟨"http.request", some body, some moreBody⟩

/-- `http.disconnect` -/
def httpDisconnect : Message := ⟨"http.disconnect", none, none⟩

/-! ### The loops

Each takes the messages that are still to come, the body so far, and how often `receive()` has been
called. Without a message, the call does not return.
-/

/-- The loop in `app` of the hypercorn harness. -/
def app : List Message → Bytes → Nat → Option (Bytes × Nat)
  | [], _, _ => none
  | chunkDict :: messages, body, calls =>
    match chunkDict.body with
    | some chunk =>
      if chunk.length = 0 then some (body ++ chunk, calls + 1)
      else app messages (body ++ chunk) (calls + 1)
    | none => some (body, calls + 1)

/-- `read_body` of the uvicorn harness. -/
def readBody : List Message → Bytes → Nat → Option (Bytes × Nat)
  | [], _, _ => none
  | message :: messages, body, calls =>
    let body := body ++ message.body.getD []
    if message.moreBody.getD false then readBody messages body (calls + 1)
    else some (body, calls + 1)

/-! ### What they read -/

/-- The messages of a request whose body comes in these chunks, the `last` of which there is always
one. -/
def messages (chunks : List Bytes) (last : Bytes) : List Message :=
  chunks.map (httpRequest · true) ++ [httpRequest last false, httpDisconnect]

/-- Some chunk is empty, and all that come after it are. -/
def FilledThenEmpty (chunks : List Bytes) : Prop :=
  chunks.dropWhile (!·.isEmpty) ≠ [] ∧ ∀ chunk ∈ chunks.dropWhile (!·.isEmpty), chunk = []

instance : DecidablePred FilledThenEmpty := fun _ => inferInstanceAs (Decidable (_ ∧ _))

theorem readBody_append {chunks : List Bytes} (ms : List Message) (body : Bytes) (calls : Nat) :
    readBody (chunks.map (httpRequest · true) ++ ms) body calls =
      readBody ms (body ++ chunks.flatten) (calls + chunks.length) := by
  induction chunks generalizing body calls with
  | nil => simp
  | cons chunk chunks ih =>
      rw [List.map_cons, List.cons_append, readBody]
      show readBody _ (body ++ chunk) (calls + 1) = _
      rw [ih, List.flatten_cons, List.append_assoc, List.length_cons, Nat.add_assoc, Nat.add_comm 1]

/-- `read_body` gets every chunk, and does not ask for more than there are. -/
theorem readBody_messages (chunks : List Bytes) (last : Bytes) :
    readBody (messages chunks last) [] 0 =
      some ((chunks ++ [last]).flatten, (chunks ++ [last]).length) := by
  rw [messages, readBody_append, readBody]
  simp [httpRequest]

/-- The other loop goes through chunks that are not empty. -/
theorem app_append {ms : List Message} {chunks : List Bytes}
    (hms : ms.map (·.body) = chunks.map some) (hne : ∀ chunk ∈ chunks, chunk ≠ [])
    (rest : List Message) (body : Bytes) (calls : Nat) :
    app (ms ++ rest) body calls = app rest (body ++ chunks.flatten) (calls + chunks.length) := by
  induction chunks generalizing ms body calls with
  | nil =>
      rw [List.map_eq_nil_iff.mp hms]
      simp
  | cons chunk chunks ih =>
      obtain ⟨m, ms, rfl, hm, hms⟩ := List.map_eq_cons_iff.mp hms
      obtain ⟨hchunk, hne⟩ := List.forall_mem_cons.mp hne
      have hlength : chunk.length ≠ 0 := mt List.length_eq_zero_iff.mp hchunk
      rw [List.cons_append, app, hm]
      dsimp only
      rw [if_neg hlength, ih hms hne, List.flatten_cons, List.append_assoc, List.length_cons,
        Nat.add_assoc, Nat.add_comm 1]

theorem bodies_messages (chunks : List Bytes) (last : Bytes) :
    (messages chunks last).map (·.body) = (chunks ++ [last]).map some ++ [none] := by
  simp [messages, httpRequest, httpDisconnect, Function.comp_def]

/-- The loop stops behind the first empty chunk, or else at the `http.disconnect`. -/
theorem app_messages (chunks : List Bytes) (last : Bytes) :
    app (messages chunks last) [] 0 =
      some (((chunks ++ [last]).takeWhile (!·.isEmpty)).flatten,
        ((chunks ++ [last]).takeWhile (!·.isEmpty)).length + 1) := by
  have hsplit := bodies_messages chunks last
  rw [← List.takeWhile_append_dropWhile (p := (!·.isEmpty)) (l := chunks ++ [last]),
    List.map_append, List.append_assoc] at hsplit
  obtain ⟨ms, rest, hmessages, hms, hrest⟩ := List.map_eq_append_iff.mp hsplit
  have hne : ∀ chunk ∈ (chunks ++ [last]).takeWhile (!·.isEmpty), chunk ≠ [] := by
    intro chunk hchunk hnil
    have hfull := List.all_eq_true.mp List.all_takeWhile chunk hchunk
    rw [hnil] at hfull
    cases hfull
  rw [hmessages, app_append hms hne, List.nil_append, Nat.zero_add]
  cases hdrop : (chunks ++ [last]).dropWhile (!·.isEmpty) with
  | nil =>
      rw [hdrop] at hrest
      obtain ⟨m, rest, rfl, hm, -⟩ := List.map_eq_cons_iff.mp hrest
      rw [app, hm]
  | cons chunk after =>
      rw [hdrop] at hrest
      obtain ⟨m, rest, rfl, hm, -⟩ := List.map_eq_cons_iff.mp hrest
      have hempty := List.head_dropWhile_not (!·.isEmpty) (l := chunks ++ [last]) (by simp [hdrop])
      simp only [hdrop, List.head_cons, Bool.not_eq_false', List.isEmpty_iff] at hempty
      rw [app, hm, hempty]
      dsimp only
      rw [if_pos List.length_nil, List.append_nil]

/-- **The two harnesses** read the same body, and neither calls `receive()` again when it is over,
exactly if the chunks are filled ones and then one or more empty ones. -/
theorem bodies_agree_iff (chunks : List Bytes) (last : Bytes) :
    (∃ calls calls',
        app (messages chunks last) [] 0 = some ((chunks ++ [last]).flatten, calls) ∧
          readBody (messages chunks last) [] 0 = some ((chunks ++ [last]).flatten, calls') ∧
          calls ≤ (chunks ++ [last]).length ∧ calls' ≤ (chunks ++ [last]).length) ↔
      FilledThenEmpty (chunks ++ [last]) := by
  rw [app_messages, readBody_messages]
  generalize chunks ++ [last] = all
  have hflatten : all.flatten =
      (all.takeWhile (!·.isEmpty)).flatten ++ (all.dropWhile (!·.isEmpty)).flatten := by
    rw [← List.flatten_append, List.takeWhile_append_dropWhile]
  have hlength : all.length =
      (all.takeWhile (!·.isEmpty)).length + (all.dropWhile (!·.isEmpty)).length := by
    rw [← List.length_append, List.takeWhile_append_dropWhile]
  refine ⟨fun h => ?_, fun ⟨hne, hempty⟩ => ?_⟩
  · obtain ⟨calls, calls', happ, -, hcalls, -⟩ := h
    obtain ⟨hbody, rfl⟩ := Prod.mk.inj (Option.some.inj happ)
    rw [hflatten] at hbody
    refine ⟨fun hnil => ?_, List.flatten_eq_nil_iff.mp (List.append_right_eq_self.mp hbody.symm)⟩
    rw [hnil, List.length_nil] at hlength
    omega
  · have hpos := List.length_pos_iff.mpr hne
    rw [List.flatten_eq_nil_iff.mpr hempty, List.append_nil] at hflatten
    exact ⟨_, all.length, by rw [hflatten], rfl, by omega, le_refl _⟩

/-- The harnesses differ about `a`, an empty chunk and `b`. -/
theorem not_bodies_agree :
    ¬ ∀ (chunks : List Bytes) (last : Bytes), ∃ calls calls',
      app (messages chunks last) [] 0 = some ((chunks ++ [last]).flatten, calls) ∧
        readBody (messages chunks last) [] 0 = some ((chunks ++ [last]).flatten, calls') ∧
        calls ≤ (chunks ++ [last]).length ∧ calls' ≤ (chunks ++ [last]).length := by
  intro h
  obtain ⟨calls, _, happ, -, -, -⟩ := h [bytes "a", []] (bytes "b")
  have hread : app (messages [bytes "a", []] (bytes "b")) [] 0 = some (bytes "a", 2) := by
    decide
  have hbody : bytes "a" = ([bytes "a", []] ++ [bytes "b"]).flatten :=
    congrArg Prod.fst (Option.some.inj (hread.symm.trans happ))
  exact absurd hbody (by decide)

end HttpGarden.Asgi
