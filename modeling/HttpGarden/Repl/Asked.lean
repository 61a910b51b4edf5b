import HttpGarden.Repl.Pipeline

/-!
# HttpGarden.Repl.Asked

**Whose results are piped on?** The value that is piped on does not say. It follows from the
commands: `fanout` and `h2fanout` ask the servers that their symbols name, and no other command
makes results (`askedOf_command`). So the results at the end of a run came from the servers that
its commands asked last (`askedOf_run`).
-/

namespace HttpGarden.Repl

open Lib

variable {ε : Type}

namespace Garden

variable (g : Garden ε)

/-! ### Names -/

theorem name_of_origin? {s : String} {server : Origin ε} (h : g.origin? s = some server) :
    server.name = s := by
  have hname : (server.name == s) = true := List.find?_some (p := fun o : Origin ε => o.name == s) h
  exact eq_of_beq hname

theorem origin?_name {server : Origin ε} (h : server ∈ g.originDict) :
    g.origin? server.name = some server := by
  have hsome : (g.origin? server.name).isSome := by
    rw [origin?, List.find?_isSome]
    exact ⟨server, h, beq_self_eq_true server.name⟩
  obtain ⟨found, hfound⟩ := Option.isSome_iff_exists.mp hsome
  have hname := g.name_of_origin? hfound
  rw [hfound, List.inj_on_of_nodup_map g.nodup (List.mem_of_find?_eq_some hfound) h hname]

/-- The names of the running origins are keys of `ORIGIN_DICT`. -/
theorem isOrigin_of_running {server : Origin ε} (h : server ∈ g.originDict) :
    g.isOrigin server.name = true := by
  rw [isOrigin, g.origin?_name h]
  rfl

/-- `ORIGIN_DICT[s]` is the server of the name `s`. -/
theorem origins?_eq_some {symbols : List String} {servers : List (Origin ε)} :
    g.origins? symbols = some servers ↔
      servers.map (·.name) = symbols ∧ ∀ server ∈ servers, server ∈ g.originDict := by
  induction symbols generalizing servers with
  | nil =>
      rw [origins?, List.mapM_nil, List.map_eq_nil_iff]
      constructor
      · intro h
        cases h
        exact ⟨rfl, fun _ h => absurd h List.not_mem_nil⟩
      · intro ⟨h, _⟩
        rw [h]
        rfl
  | cons s symbols ih =>
      rw [origins?, List.mapM_cons, Option.bind_eq_bind, Option.bind_eq_some_iff]
      constructor
      · intro ⟨server, hserver, hbind⟩
        obtain ⟨rest, hrest, heq⟩ := Option.bind_eq_some_iff.mp hbind
        cases heq
        obtain ⟨hnames, hmem⟩ := ih.mp hrest
        rw [List.map_cons, hnames, g.name_of_origin? hserver]
        exact ⟨rfl, List.forall_mem_cons.mpr ⟨List.mem_of_find?_eq_some hserver, hmem⟩⟩
      · intro ⟨hnames, hmem⟩
        cases servers with
        | nil => cases hnames
        | cons server servers =>
            obtain ⟨hname, hnames⟩ := List.cons.inj hnames
            obtain ⟨hserver, hmem⟩ := List.forall_mem_cons.mp hmem
            refine ⟨server, hname ▸ g.origin?_name hserver, ?_⟩
            exact Option.bind_eq_some_iff.mpr ⟨servers, ih.mpr ⟨hnames, hmem⟩, rfl⟩

/-- The lookups succeed exactly if the names are keys of `ORIGIN_DICT`. -/
theorem exists_origins?_iff {symbols : List String} :
    (∃ servers, g.origins? symbols = some servers) ↔ symbols.all g.isOrigin = true := by
  rw [List.all_eq_true]
  constructor
  · intro ⟨servers, hservers⟩ s hs
    obtain ⟨rfl, hmem⟩ := g.origins?_eq_some.mp hservers
    obtain ⟨server, hserver, rfl⟩ := List.mem_map.mp hs
    exact g.isOrigin_of_running (hmem server hserver)
  · intro h
    induction symbols with
    | nil => exact ⟨[], rfl⟩
    | cons s symbols ih =>
        obtain ⟨hs, hsymbols⟩ := List.forall_mem_cons.mp h
        obtain ⟨server, hserver⟩ := Option.isSome_iff_exists.mp hs
        obtain ⟨servers, hservers⟩ := ih hsymbols
        rw [origins?] at hservers
        exact ⟨server :: servers, by simp [origins?, hserver, hservers]⟩

theorem invalidServerName?_of_origins? {symbols : List String} {servers : List (Origin ε)}
    (h : g.origins? symbols = some servers) : g.invalidServerName? symbols = none := by
  obtain ⟨rfl, hmem⟩ := g.origins?_eq_some.mp h
  refine List.find?_eq_none.mpr fun s hs => ?_
  obtain ⟨server, hserver, rfl⟩ := List.mem_map.mp hs
  rw [g.isOrigin_of_running (hmem server hserver)]
  exact Bool.false_ne_true

/-! ### Commands that make no results -/

/-- The step pipes on no results but those that it found. -/
def NoNewResults (st : State) (step : Step ε) : Prop :=
  ∀ st' pts, step.next = .again st' → st'.cwd = .results pts → st.cwd = .results pts

theorem noNewResults_of_cwd {st st' : State} {out : List Event} (h : st'.cwd = st.cwd) :
    NoNewResults st (⟨out, .again st'⟩ : Step ε) := by
  intro t pts hnext hpts
  cases hnext
  rw [← h, hpts]

theorem noNewResults_of_ne {st st' : State} {out : List Event}
    (h : ∀ pts, st'.cwd ≠ .results pts) : NoNewResults st (⟨out, .again st'⟩ : Step ε) := by
  intro t pts hnext hpts
  cases hnext
  exact absurd hpts (h pts)

theorem noNewResults_leave {st : State} {out : List Event} {e : Exit ε} :
    NoNewResults st (⟨out, .leave e⟩ : Step ε) := by
  intro t pts hnext
  cases hnext

theorem noNewResults_withOrigins {st st₁ : State} {symbols : List String}
    {k : List (Origin ε) → Step ε} (hst : st₁.cwd = st.cwd ∨ ∀ pts, st₁.cwd ≠ .results pts)
    (hk : ∀ servers, NoNewResults st (k servers)) :
    NoNewResults st (g.withOrigins st₁ symbols k) := by
  unfold withOrigins
  split
  · exact hst.elim noNewResults_of_cwd noNewResults_of_ne
  · split
    · exact noNewResults_leave
    · exact hk _

theorem noNewResults_consume (st : State) (symbols : List String)
    (report : List Result → List (Origin ε) → Log → Log) :
    NoNewResults st (g.consume st symbols report) := by
  unfold consume
  split
  · exact noNewResults_of_cwd rfl
  · refine g.noNewResults_withOrigins (.inr nofun) fun servers => ?_
    split
    · exact noNewResults_of_ne nofun
    · exact noNewResults_of_ne nofun

theorem noNewResults_transduceAll (symbols : List String) (data : List Bytes) (st : State) :
    NoNewResults st (g.transduceAll symbols data st) := by
  induction symbols generalizing data st with
  | nil => exact noNewResults_of_cwd rfl
  | cons name symbols ih =>
      unfold transduceAll
      split
      · exact noNewResults_leave
      · split
        · exact noNewResults_leave
        · intro st' pts hnext hpts
          rw [Emits.andThen_of_again rfl] at hnext
          cases ih _ _ st' pts hnext hpts

theorem noNewResults_printUnparsedFanout (st : State) (data : List Bytes)
    (servers : List (String × (Nat → List Bytes → Except ε (List Bytes)))) :
    NoNewResults st (printUnparsedFanout st data servers) := by
  unfold printUnparsedFanout
  split
  · exact noNewResults_leave
  · exact noNewResults_of_cwd rfl

theorem noNewResults_payload (st : State) (symbols : List String) :
    NoNewResults st (g.payload st symbols) := by
  unfold payload
  split
  · exact noNewResults_of_ne nofun
  · exact noNewResults_of_cwd rfl
  · exact noNewResults_of_cwd rfl

theorem noNewResults_transduce (st : State) (symbols : List String) :
    NoNewResults st (g.transduce st symbols) := by
  unfold transduce
  split
  · exact noNewResults_of_cwd rfl
  · split
    · exact noNewResults_of_cwd rfl
    · split
      · exact noNewResults_of_cwd rfl
      · intro st' pts hnext
        rw [Emits.andThen_of_again rfl] at hnext
        exact g.noNewResults_transduceAll symbols _ st st' pts hnext

theorem noNewResults_unparsedFanout (st : State) (symbols : List String) :
    NoNewResults st (g.unparsedFanout st symbols) := by
  unfold unparsedFanout
  split
  · exact noNewResults_of_cwd rfl
  · exact g.noNewResults_withOrigins (.inl rfl) fun servers =>
      noNewResults_printUnparsedFanout st _ _

theorem noNewResults_unparsedTransducerFanout (st : State) (symbols : List String) :
    NoNewResults st (g.unparsedTransducerFanout st symbols) := by
  unfold unparsedTransducerFanout
  split
  · exact noNewResults_of_cwd rfl
  · dsimp only
    split
    · exact noNewResults_of_cwd rfl
    · split
      · exact noNewResults_leave
      · exact noNewResults_printUnparsedFanout st _ _

theorem noNewResults_h2frames (st : State) (symbols : List String) :
    NoNewResults st (g.h2frames st symbols) := by
  unfold h2frames
  split
  · exact noNewResults_of_cwd rfl
  · exact noNewResults_leave
  · split
    · exact noNewResults_of_ne nofun
    · exact noNewResults_of_ne nofun

/-! ### Whose results are piped on -/

/-- The results that are piped on, if any are, came from the servers of these names. -/
def AskedOf (names : List String) (st : State) : Prop :=
  ∀ pts, st.cwd = .results pts → pts.map (·.producer) = names

theorem NoNewResults.askedOf {st st' : State} {step : Step ε} (h : NoNewResults st step)
    (hnext : step.next = .again st') {names : List String} (hnames : AskedOf names st) :
    AskedOf names st' := fun pts hpts => hnames pts (h st' pts hnext hpts)

theorem producers_fanout {data : List Bytes} {servers : List (Origin ε)} {n : Nat} {h : Heap}
    {results : List Result} {h' : Heap} (hfanout : fanout data servers n h = .ok (results, h')) :
    results.map (·.producer) = servers.map (·.name) := by
  induction servers generalizing n h results with
  | nil =>
      cases hfanout
      rfl
  | cons server servers ih =>
      obtain ⟨pts, -, hrest⟩ := bind_eq_ok.mp hfanout
      obtain ⟨⟨rest, h''⟩, hrest, heq⟩ := bind_eq_ok.mp hrest
      cases heq
      rw [List.map_cons, List.map_cons, ih hrest]

/-- The producers of what `fanout` and `h2fanout` pipe on are the servers that they asked. -/
theorem producers_askOrigins {st st' : State} {symbols : List String} {asks : Origin ε → Bool}
    {data : List Bytes} (hdata : st.cwd.byteStream? = some data) {servers : List (Origin ε)}
    (hservers : g.origins? (g.originNames symbols) = some servers)
    (h : (g.askOrigins st symbols asks).next = .again st') :
    ∃ pts, st'.cwd = .results pts ∧
      pts.map (·.producer) = (servers.filter asks).map (·.name) := by
  simp only [askOrigins, hdata, withOrigins, g.invalidServerName?_of_origins? hservers,
    hservers] at h
  cases hfanout : Repl.fanout data (servers.filter asks) st.connections st.heap with
  | error e =>
      rw [hfanout] at h
      cases h
  | ok m =>
      rw [hfanout] at h
      cases h
      exact ⟨m.1, rfl, producers_fanout hfanout⟩

/-- The names of the servers that `fanout` and `h2fanout` ask, if they get as far as that. -/
def askedNames? (st : State) (symbols : List String) (asks : Origin ε → Bool) :
    Option (List String) :=
  match st.cwd.byteStream? with
  | none => none
  | some _ => (g.origins? (g.originNames symbols)).map fun servers =>
      (servers.filter asks).map (·.name)

theorem askedOf_askOrigins {st st' : State} {symbols : List String} {asks : Origin ε → Bool}
    (hnext : (g.askOrigins st symbols asks).next = .again st') {names : List String}
    (hnames : AskedOf names st) :
    AskedOf ((g.askedNames? st symbols asks).getD names) st' := by
  cases hdata : st.cwd.byteStream? with
  | none =>
      simp only [askOrigins, askedNames?, hdata] at hnext ⊢
      exact (noNewResults_of_cwd rfl).askedOf hnext hnames
  | some data =>
      cases horigins : g.origins? (g.originNames symbols) with
      | some servers =>
          obtain ⟨pts, hpts, hproducers⟩ := g.producers_askOrigins hdata horigins hnext
          intro pts' hpts'
          cases hpts.symm.trans hpts'
          simp only [askedNames?, hdata, horigins, hproducers, Option.map_some, Option.getD_some]
      | none =>
          have hno : NoNewResults st (g.askOrigins st symbols asks) := by
            simp only [askOrigins, hdata]
            unfold withOrigins
            rw [horigins]
            split
            · exact noNewResults_of_cwd rfl
            · exact noNewResults_leave
          simp only [askedNames?, hdata, horigins]
          exact hno.askedOf hnext hnames

/-- The names of the servers that the command asks for results, if it asks any. -/
def asked? (st : State) : Command → Option (List String)
  | .fanout symbols => g.askedNames? st symbols fun _ => true
  | .h2fanout symbols => g.askedNames? st symbols (·.allowsHttp2)
  | _ => none

/-- **One command** that asks for results pipes them on, and no other command makes any. -/
theorem askedOf_command {st st' : State} {command : Command}
    (hnext : (g.command st command).next = .again st') {names : List String}
    (hnames : AskedOf names st) : AskedOf ((g.asked? st command).getD names) st' := by
  cases command with
  | fanout symbols => exact g.askedOf_askOrigins hnext hnames
  | h2fanout symbols => exact g.askedOf_askOrigins hnext hnames
  | empty | showPayload | invalid => exact (noNewResults_of_cwd rfl).askedOf hnext hnames
  | exit => exact noNewResults_leave.askedOf hnext hnames
  | grid symbols => exact (g.noNewResults_consume st symbols _).askedOf hnext hnames
  | cluster symbols => exact (g.noNewResults_consume st symbols _).askedOf hnext hnames
  | payload symbols => exact (g.noNewResults_payload st symbols).askedOf hnext hnames
  | transduce symbols => exact (g.noNewResults_transduce st symbols).askedOf hnext hnames
  | unparsedFanout symbols => exact (g.noNewResults_unparsedFanout st symbols).askedOf hnext hnames
  | unparsedTransducerFanout symbols =>
      exact (g.noNewResults_unparsedTransducerFanout st symbols).askedOf hnext hnames
  | h2frames symbols => exact (g.noNewResults_h2frames st symbols).askedOf hnext hnames

/-- The names of the servers that the commands asked last, of those that `names` and the commands
ask in their turn. -/
def lastAsked (names : List String) : State → List Command → List String
  | _, [] => names
  | st, command :: commands =>
    match (g.command st command).next with
    | .again st' => lastAsked ((g.asked? st command).getD names) st' commands
    | .leave _ => names

/-- **A run** pipes on the results of the servers that were asked last. -/
theorem askedOf_run {st st' : State} {commands : List Command}
    (hrun : (g.command.run st commands).next = .again st') {names : List String}
    (hnames : AskedOf names st) : AskedOf (g.lastAsked names st commands) st' := by
  induction commands generalizing st names with
  | nil =>
      cases hrun
      exact hnames
  | cons command commands ih =>
      obtain ⟨st₁, hnext, hrest⟩ := Emits.next_andThen_eq_again.mp hrun
      rw [lastAsked, hnext]
      exact ih hrest (g.askedOf_command hnext hnames)

end Garden

end HttpGarden.Repl
