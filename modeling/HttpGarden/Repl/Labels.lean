import HttpGarden.Repl.Asked

/-!
# HttpGarden.Repl.Labels

**Do results keep their labels?** Every command takes its own list of servers and zips it with
the results by position. Labels are right as long as these lists agree position by position.

* `AllLabelled` of the events of each command is reduced to a condition on what the command
  finds: `askOrigins_labelled` for the commands that produce results, `consume_labelled` for
  those that compare them.
* `pipeline_labelled_iff` lifts this to pipelines. There the results are those of the servers
  that were asked last, so the condition is one on the symbols of the commands.
-/

namespace HttpGarden.Repl

open Lib

variable {ε : Type}

/-! ### Labels -/

/-- Every result stream in the event is paired with its producer. -/
def Event.Labelled : Event → Prop
  | .result label producer _ => label = producer
  | .compared row col _ => row.1 = row.2 ∧ col.1 = col.2
  | .clusters groups => ∀ group ∈ groups, ∀ pairing ∈ group, pairing.1 = pairing.2
  | _ => True

/-- Every result stream in the events is paired with its producer. -/
def AllLabelled (out : List Event) : Prop := ∀ e ∈ out, e.Labelled

theorem allLabelled_nil : AllLabelled [] := fun _ h => absurd h List.not_mem_nil

theorem allLabelled_append {out out' : List Event} :
    AllLabelled (out ++ out') ↔ AllLabelled out ∧ AllLabelled out' := List.forall_mem_append

theorem allLabelled_singleton {e : Event} : AllLabelled [e] ↔ e.Labelled := List.forall_mem_singleton

/-- The server of the row is the one that its stream came from. -/
def Row.Labelled (row : Row ε) : Prop := row.1.name = row.2.producer

/-- Two lists that agree as far as both go. -/
def Agree {α : Type} (l m : List α) : Prop := l <+: m ∨ m <+: l

theorem forall_mem_zip_iff_agree {α : Type} {l m : List α} :
    (∀ p ∈ l.zip m, p.1 = p.2) ↔ Agree l m := by
  induction l generalizing m with
  | nil => exact ⟨fun _ => .inl List.nil_prefix, fun _ _ h => absurd h List.not_mem_nil⟩
  | cons a l ih =>
      cases m with
      | nil => exact ⟨fun _ => .inr List.nil_prefix, fun _ _ h => absurd h List.not_mem_nil⟩
      | cons b m =>
          rw [List.zip_cons_cons, List.forall_mem_cons, ih, Agree, Agree, List.cons_prefix_cons,
            List.cons_prefix_cons]
          constructor
          · intro ⟨hab, h⟩
            exact h.imp (⟨hab, ·⟩) (⟨hab.symm, ·⟩)
          · intro h
            rcases h with ⟨hab, h⟩ | ⟨hab, h⟩
            · exact ⟨hab, .inl h⟩
            · exact ⟨hab.symm, .inr h⟩

/-- The rows of a command are labelled if the names that it zips agree. -/
theorem rows_labelled {servers : List (Origin ε)} {pts : List Result} :
    (∀ row ∈ servers.zip pts, Row.Labelled row) ↔
      Agree (servers.map (·.name)) (pts.map (·.producer)) := by
  rw [← forall_mem_zip_iff_agree, List.zip_map, List.forall_mem_map]
  rfl

/-! ### Comparing -/

theorem compare_labelled (row col : Row ε) (log : Log) :
    AllLabelled (log.compare row col).2.out ↔
      AllLabelled log.out ∧ row.Labelled ∧ col.Labelled := by
  rw [Log.compare, allLabelled_append, allLabelled_singleton]
  rfl

theorem gridCell_labelled (row col : Row ε × Nat) (log : Log) :
    AllLabelled (gridCell Log.compare row col log).2.out ↔
      AllLabelled log.out ∧ (¬ col.2 < row.2 → row.1.Labelled ∧ col.1.Labelled) := by
  unfold gridCell
  split
  · next h => exact ⟨fun hlog => ⟨hlog, fun hn => absurd h hn⟩, And.left⟩
  · next h =>
      rw [show ∀ hyp : Prop, (¬ col.2 < row.2 → hyp) ↔ hyp from fun _ => ⟨fun k => k h, fun k _ => k⟩]
      exact compare_labelled row.1 col.1 log

/-- The grid compares every row with itself, so no wrong row stays hidden. -/
theorem generateGrid_labelled (pts : List Result) (servers : List (Origin ε)) (log : Log) :
    AllLabelled (generateGrid Log.compare (servers.zip pts) log).2.out ↔
      AllLabelled log.out ∧ Agree (servers.map (·.name)) (pts.map (·.producer)) := by
  unfold generateGrid
  have hrows (row : Row ε × Nat) (log : Log) :=
    collect_keeps_iff (P := fun log => AllLabelled log.out) (l := (servers.zip pts).zipIdx)
      (fun col _ => gridCell_labelled row col) log
  rw [collect_keeps_iff (P := fun log => AllLabelled log.out) (fun row _ => hrows row) log,
    ← rows_labelled]
  refine and_congr_right fun _ => ⟨fun h row hrow => ?_, fun h row hrow col hcol _ => ?_⟩
  · obtain ⟨i, hi⟩ := List.mem_iff_getElem?.mp hrow
    have hmem := List.mk_mem_zipIdx_iff_getElem?.mpr hi
    exact (h (row, i) hmem (row, i) hmem (lt_irrefl i)).1
  · exact ⟨h row.1 (List.fst_mem_of_mem_zipIdx hrow), h col.1 (List.fst_mem_of_mem_zipIdx hcol)⟩

theorem allCategorized_labelled {e : ErrorType} {row : Row ε} (hrow : row.Labelled)
    {group : List (Row ε)} (hgroup : ∀ other ∈ group, Row.Labelled other) {log : Log}
    (hlog : AllLabelled log.out) : AllLabelled (allCategorized Log.compare e row group log).2.out := by
  induction group generalizing log with
  | nil => exact hlog
  | cons other group ih =>
      obtain ⟨hother, hgroup⟩ := List.forall_mem_cons.mp hgroup
      have hcompare := (compare_labelled row other log).mpr ⟨hlog, hrow, hother⟩
      simp only [allCategorized]
      split
      · exact ih hgroup hcompare
      · exact hcompare

theorem fitsGroup_labelled {row : Row ε} (hrow : row.Labelled) {group : List (Row ε)}
    (hgroup : ∀ other ∈ group, Row.Labelled other) {log : Log} (hlog : AllLabelled log.out) :
    AllLabelled (fitsGroup Log.compare row group log).2.out := by
  have hok := allCategorized_labelled (e := .ok) hrow hgroup hlog
  simp only [fitsGroup]
  split
  · exact hok
  · exact allCategorized_labelled hrow hgroup hok

theorem generateClusters_labelled {pts : List Result} {servers : List (Origin ε)}
    (h : ∀ row ∈ servers.zip pts, Row.Labelled row) {log : Log} (hlog : AllLabelled log.out) :
    AllLabelled (generateClusters Log.compare (servers.zip pts) log).2.out := by
  have hspec := groupFirstFit_spec (Q := Row.Labelled) (I := fun log : Log => AllLabelled log.out)
    (F := fun _ _ _ => True) (fun row group hrow hgroup log => fitsGroup_labelled hrow hgroup)
    (fun _ _ _ _ _ _ _ => trivial) (fun _ _ _ _ _ _ => trivial) h hlog
  exact hspec.1

/-! ### Reports -/

theorem reportGrid_labelled (pts : List Result) (servers : List (Origin ε)) {log : Log}
    (hlog : AllLabelled log.out) : AllLabelled (Garden.reportGrid pts servers log).out ↔
      Agree (servers.map (·.name)) (pts.map (·.producer)) := by
  rw [Garden.reportGrid, allLabelled_append, generateGrid_labelled, allLabelled_singleton]
  exact ⟨fun h => h.1.2, fun h => ⟨⟨hlog, h⟩, trivial⟩⟩

theorem reportClusters_labelled (pts : List Result) (servers : List (Origin ε)) {log : Log}
    (hlog : AllLabelled log.out) : AllLabelled (Garden.reportClusters pts servers log).out ↔
      Agree (servers.map (·.name)) (pts.map (·.producer)) := by
  rw [Garden.reportClusters, allLabelled_append, allLabelled_singleton, ← rows_labelled]
  -- the clusters are a partition of the rows
  have hclusters : (Event.clusters
      ((generateClusters Log.compare (servers.zip pts) log).1.map (·.map Row.pairing))).Labelled ↔
        ∀ row ∈ servers.zip pts, Row.Labelled row := by
    simp only [Event.Labelled, List.forall_mem_map, ← List.forall_mem_flatten]
    exact forall_congr' fun row =>
      imp_congr_left (groupFirstFit_perm (fitsGroup Log.compare) (servers.zip pts) log).mem_iff
  rw [hclusters]
  exact ⟨And.right, fun h => ⟨generateClusters_labelled h hlog, h⟩⟩

/-! ### Commands -/

namespace Garden

variable (g : Garden ε)

theorem labelled_say (st : State) {e : Event} (h : e.Labelled) :
    AllLabelled (st.say [e] : Step ε).out := allLabelled_singleton.mpr h

theorem withOrigins_labelled {st : State} {symbols : List String}
    {k : List (Origin ε) → Step ε} : AllLabelled (g.withOrigins st symbols k).out ↔
      ∀ servers, g.origins? symbols = some servers → AllLabelled (k servers).out := by
  unfold withOrigins
  split
  · next s hs =>
      refine iff_of_true (labelled_say st trivial) fun servers h => ?_
      cases hs.symm.trans (g.invalidServerName?_of_origins? h)
  · split
    · next h =>
        refine iff_of_true allLabelled_nil fun servers hservers => ?_
        cases h.symm.trans hservers
    · next servers h =>
        constructor
        · intro hk servers' h'
          cases h.symm.trans h'
          exact hk
        · exact fun hk => hk servers h

/-- `grid` and `cluster` keep the labels if the servers that they take and the producers of the
results agree. -/
theorem consume_labelled {st : State} {symbols : List String}
    {report : List Result → List (Origin ε) → Log → Log}
    (hreport : ∀ pts servers {log : Log}, AllLabelled log.out →
      (AllLabelled (report pts servers log).out ↔
        Agree (servers.map (·.name)) (pts.map (·.producer)))) :
    AllLabelled (g.consume st symbols report).out ↔
      ∀ pts servers, st.cwd.results? = some pts →
        g.origins? (g.originNames symbols) = some servers →
        Agree (servers.map (·.name)) (pts.map (·.producer)) := by
  unfold consume
  split
  · next h =>
      refine iff_of_true (labelled_say st trivial) fun pts servers hpts => ?_
      cases h.symm.trans hpts
  · next pts h =>
      have hservers (servers : List (Origin ε))
          (horigins : g.origins? (g.originNames symbols) = some servers) :
          AllLabelled (if g.originNames symbols = [] then .again { st with cwd := .none }
            else ⟨(report pts servers ⟨st.heap, []⟩).out, .again { st with
              cwd := .none, heap := (report pts servers ⟨st.heap, []⟩).heap }⟩ : Step ε).out ↔
            Agree (servers.map (·.name)) (pts.map (·.producer)) := by
        split
        · next hnil =>
            rw [(g.origins?_eq_some.mp horigins).1, hnil]
            exact iff_of_true allLabelled_nil (.inl List.nil_prefix)
        · exact hreport pts servers allLabelled_nil
      rw [withOrigins_labelled]
      refine ⟨fun hall pts' servers hpts' horigins => ?_, fun hall servers horigins => ?_⟩
      · cases h.symm.trans hpts'
        exact (hservers servers horigins).mp (hall servers horigins)
      · exact (hservers servers horigins).mpr (hall pts servers h horigins)

theorem printFanout_labelled (h : Heap) (results : List Result) (names : List String) :
    AllLabelled (printFanout h results names) ↔ Agree names (results.map (·.producer)) := by
  rw [← forall_mem_zip_iff_agree, printFanout, AllLabelled, List.forall_mem_map,
    ← List.map_id names, List.zip_map, List.forall_mem_map, List.map_id]
  rfl

/-- No server that is asked comes after one that is not. -/
def AskedFirst (asks : Origin ε → Bool) (servers : List (Origin ε)) : Prop :=
  servers.Pairwise fun a b => asks b = true → asks a = true

/-- The names of some of the servers agree with those of all only if they are the first. -/
theorem agree_filter_iff {asks : Origin ε → Bool} {servers : List (Origin ε)}
    (hmem : ∀ server ∈ servers, server ∈ g.originDict) :
    Agree (servers.map (·.name)) ((servers.filter asks).map (·.name)) ↔
      AskedFirst asks servers := by
  rw [← forall_mem_zip_iff_agree]
  induction servers with
  | nil => exact iff_of_true (fun _ h => absurd h List.not_mem_nil) List.Pairwise.nil
  | cons a servers ih =>
      obtain ⟨ha, hmem⟩ := List.forall_mem_cons.mp hmem
      rw [AskedFirst, List.pairwise_cons]
      by_cases hasks : asks a = true
      · rw [List.filter_cons_of_pos hasks, List.map_cons, List.map_cons, List.zip_cons_cons,
          List.forall_mem_cons, ih hmem]
        exact and_congr_left fun _ => iff_of_true rfl fun _ _ _ => hasks
      · rw [List.filter_cons_of_neg hasks]
        -- the first server is not asked, so whatever is asked is out of place
        cases hfilter : servers.filter asks with
        | nil =>
            have hnone := List.filter_eq_nil_iff.mp hfilter
            refine iff_of_true (by simp) ⟨fun b hb hb' => absurd hb' (hnone b hb), ?_⟩
            exact List.pairwise_of_forall_mem_list fun x _ b hb hb' => absurd hb' (hnone b hb)
        | cons b asked =>
            -- the first asked server is printed under the name of one that was not
            obtain ⟨hb, hasked⟩ := List.mem_filter.mp
              (hfilter ▸ List.mem_cons_self : b ∈ servers.filter asks)
            refine iff_of_false (fun hall => ?_) fun h => hasks (h.1 b hb hasked)
            have hname : a.name = b.name := hall (a.name, b.name) (by simp)
            rw [List.inj_on_of_nodup_map g.nodup ha (hmem b hb) hname] at hasks
            exact hasks hasked

/-- What is printed is labelled if the servers that were asked come first. -/
theorem printFanout_asked_labelled {data : List Bytes} {symbols : List String}
    {servers : List (Origin ε)} {asks : Origin ε → Bool} {n : Nat} {h h' : Heap}
    {results : List Result} (horigins : g.origins? symbols = some servers)
    (hfanout : fanout data (servers.filter asks) n h = .ok (results, h')) :
    AllLabelled (printFanout h' results symbols) ↔ AskedFirst asks servers := by
  obtain ⟨hnames, hmem⟩ := g.origins?_eq_some.mp horigins
  rw [printFanout_labelled, producers_fanout hfanout, ← hnames]
  exact g.agree_filter_iff hmem

/-- `fanout` and `h2fanout` keep the labels if the servers that they ask come first. -/
theorem askOrigins_labelled {st : State} {symbols : List String} {asks : Origin ε → Bool} :
    AllLabelled (g.askOrigins st symbols asks).out ↔
      ∀ data servers, st.cwd.byteStream? = some data →
        g.origins? (g.originNames symbols) = some servers →
        (Repl.fanout data (servers.filter asks) st.connections st.heap).isOk = true →
        AskedFirst asks servers := by
  unfold askOrigins
  split
  · next h =>
      refine iff_of_true (labelled_say st trivial) fun data servers hdata => ?_
      cases h.symm.trans hdata
  · next data h =>
      rw [withOrigins_labelled]
      refine ⟨fun hall data' servers hdata' horigins hok => ?_, fun hall servers horigins => ?_⟩
      · cases h.symm.trans hdata'
        have hprinted := hall servers horigins
        cases hfanout : Repl.fanout data (servers.filter asks) st.connections st.heap with
        | error e =>
            rw [hfanout] at hok
            cases hok
        | ok m =>
            rw [hfanout] at hprinted
            exact (g.printFanout_asked_labelled horigins hfanout).mp hprinted
      · have hasked := hall data servers h horigins
        cases hfanout : Repl.fanout data (servers.filter asks) st.connections st.heap with
        | error e => exact allLabelled_nil
        | ok m =>
            rw [hfanout] at hasked
            exact (g.printFanout_asked_labelled horigins hfanout).mpr (hasked rfl)

/-! ### Commands that show no results -/

theorem transduceAll_labelled (symbols : List String) (data : List Bytes) (st : State) :
    AllLabelled (g.transduceAll symbols data st).out := by
  induction symbols generalizing data st with
  | nil => exact allLabelled_nil
  | cons name symbols ih =>
      unfold transduceAll
      split
      · exact allLabelled_nil
      · split
        · exact allLabelled_nil
        · rw [Emits.andThen_of_again rfl, allLabelled_append]
          exact ⟨List.forall_mem_cons.mpr ⟨trivial, allLabelled_singleton.mpr trivial⟩, ih _ _⟩

theorem printUnparsedFanout_labelled (st : State) (data : List Bytes)
    (servers : List (String × (Nat → List Bytes → Except ε (List Bytes)))) :
    AllLabelled (printUnparsedFanout st data servers).out := by
  unfold printUnparsedFanout
  split
  · exact allLabelled_nil
  · exact List.forall_mem_map.mpr fun _ _ => trivial

theorem payload_labelled (st : State) (symbols : List String) :
    AllLabelled (g.payload st symbols).out := by
  unfold payload
  split
  · exact allLabelled_nil
  · exact labelled_say st trivial
  · exact labelled_say st trivial

theorem transduce_labelled (st : State) (symbols : List String) :
    AllLabelled (g.transduce st symbols).out := by
  unfold transduce
  split
  · exact allLabelled_nil
  · split
    · exact labelled_say st trivial
    · split
      · exact labelled_say st trivial
      · rw [Emits.andThen_of_again rfl, allLabelled_append]
        exact ⟨labelled_say st trivial, g.transduceAll_labelled _ _ _⟩

theorem unparsedFanout_labelled (st : State) (symbols : List String) :
    AllLabelled (g.unparsedFanout st symbols).out := by
  unfold unparsedFanout
  split
  · exact labelled_say st trivial
  · exact (g.withOrigins_labelled).mpr fun _ _ => printUnparsedFanout_labelled _ _ _

theorem unparsedTransducerFanout_labelled (st : State) (symbols : List String) :
    AllLabelled (g.unparsedTransducerFanout st symbols).out := by
  unfold unparsedTransducerFanout
  split
  · exact labelled_say st trivial
  · dsimp only
    split
    · exact labelled_say st trivial
    · split
      · exact allLabelled_nil
      · exact printUnparsedFanout_labelled _ _ _

theorem h2frames_labelled (st : State) (symbols : List String) :
    AllLabelled (g.h2frames st symbols).out := by
  unfold h2frames
  split
  · exact labelled_say st trivial
  · exact allLabelled_nil
  · split <;> exact allLabelled_nil

/-! ### Pipelines -/

/-- What the command has to find in the state `st` for the labels to be right, if the results were
asked of the servers of the names `asked`. `h2fanout`, when its servers answer, names no origin
that allows HTTP/2 after one that does not; `grid` and `cluster`, when they are given results,
name the servers that were asked, as far as both lists go. -/
def KeepsLabels (asked : List String) (st : State) : Command → Prop
  | .h2fanout symbols => ∀ data servers, st.cwd.byteStream? = some data →
      g.origins? (g.originNames symbols) = some servers →
      (Repl.fanout data (servers.filter (·.allowsHttp2)) st.connections st.heap).isOk = true →
      AskedFirst (·.allowsHttp2) servers
  | .grid symbols | .cluster symbols => ∀ result pts, st.cwd = .results (result :: pts) →
      (g.originNames symbols).all g.isOrigin = true → Agree (g.originNames symbols) asked
  | _ => True

/-- Results other than the empty list are no stream of bytes. -/
theorem eq_results_of_results? {cwd : Cwd} {result : Result} {pts : List Result}
    (h : cwd.results? = some (result :: pts)) : cwd = .results (result :: pts) := by
  cases cwd with
  | none => cases h
  | bytes data => cases data <;> cases h
  | results pts' =>
      cases h
      rfl

/-- What `grid` and `cluster` need, in terms of the producers of the results. -/
theorem agree_producers_iff {st : State} {symbols asked : List String} (hasked : AskedOf asked st) :
    (∀ pts servers, st.cwd.results? = some pts →
        g.origins? (g.originNames symbols) = some servers →
        Agree (servers.map (·.name)) (pts.map (·.producer))) ↔
      ∀ result pts, st.cwd = .results (result :: pts) →
        (g.originNames symbols).all g.isOrigin = true → Agree (g.originNames symbols) asked := by
  constructor
  · intro h result pts hcwd hnames
    obtain ⟨servers, hservers⟩ := g.exists_origins?_iff.mpr hnames
    have hagree := h (result :: pts) servers (by rw [hcwd]; rfl) hservers
    rwa [hasked _ hcwd, (g.origins?_eq_some.mp hservers).1] at hagree
  · intro h pts servers hpts hservers
    cases pts with
    | nil => exact .inr List.nil_prefix
    | cons result pts =>
        have hcwd := eq_results_of_results? hpts
        rw [hasked _ hcwd, (g.origins?_eq_some.mp hservers).1]
        exact h result pts hcwd (g.exists_origins?_iff.mp ⟨servers, hservers⟩)

/-- **One command.** -/
theorem command_labelled_iff {st : State} {asked : List String} (hasked : AskedOf asked st)
    (command : Command) :
    AllLabelled (g.command st command).out ↔ g.KeepsLabels asked st command := by
  cases command with
  | empty => exact iff_of_true allLabelled_nil trivial
  | showPayload => exact iff_of_true (labelled_say st trivial) trivial
  | payload symbols => exact iff_of_true (g.payload_labelled st symbols) trivial
  | grid symbols =>
      exact (g.consume_labelled reportGrid_labelled).trans (g.agree_producers_iff hasked)
  | cluster symbols =>
      exact (g.consume_labelled reportClusters_labelled).trans (g.agree_producers_iff hasked)
  | transduce symbols => exact iff_of_true (g.transduce_labelled st symbols) trivial
  | fanout symbols =>
      refine iff_of_true (g.askOrigins_labelled.mpr fun data servers _ _ _ => ?_) trivial
      exact List.pairwise_of_forall fun _ _ _ => rfl
  | h2fanout symbols => exact g.askOrigins_labelled
  | unparsedFanout symbols => exact iff_of_true (g.unparsedFanout_labelled st symbols) trivial
  | unparsedTransducerFanout symbols =>
      exact iff_of_true (g.unparsedTransducerFanout_labelled st symbols) trivial
  | h2frames symbols => exact iff_of_true (g.h2frames_labelled st symbols) trivial
  | exit => exact iff_of_true (allLabelled_singleton.mpr trivial) trivial
  | invalid => exact iff_of_true (labelled_say st trivial) trivial

/-- **A pipeline** pairs every result stream that it prints, compares or clusters with the server
that produced it, exactly if every command finds what it takes, where the results are those of the
servers that the commands before it asked last. -/
theorem pipeline_labelled_iff (h : Heap) (n : Nat) (pipeline : List (List String)) :
    AllLabelled (g.pipeline h n pipeline).out ↔
      ∀ before command after st, pipeline.map Command.ofTokens = before ++ command :: after →
        (g.command.run ⟨.none, h, n⟩ before).next = .again st →
        g.KeepsLabels (g.lastAsked [] ⟨.none, h, n⟩ before) st command := by
  have hstart : AskedOf [] ⟨.none, h, n⟩ := fun pts hpts => by cases hpts
  exact Process.forall_out_run fun before st command hrun =>
    g.command_labelled_iff (g.askedOf_run hrun hstart) command

/-- `h2fanout` prints the results of `apache_tomcat`, the one that is asked, under the name of
`apache_httpd`; so does `grid` after a `fanout` to `apache_tomcat` alone. -/
def httpdAndTomcat : Garden Unit where
  originDict := [⟨plainServer, "apache_httpd", false, fun _ _ => .ok [], fun _ _ => .ok []⟩,
    ⟨plainServer, "apache_tomcat", true, fun _ _ => .ok [], fun _ _ => .ok []⟩]
  transducerDict := []
  nodup := by decide
  unescapePayload s := .ok (HttpGarden.bytes s)
  parseH2FramesStatement _ := .error (.replParseError "")

theorem not_pipeline_labelled :
    ¬ AllLabelled (httpdAndTomcat.pipeline [] 0 [["payload", "x"], ["h2fanout"]]).out ∧
      ¬ AllLabelled (httpdAndTomcat.pipeline [] 0
        [["payload", "x"], ["fanout", "apache_tomcat"], ["grid"]]).out := by
  refine ⟨fun h => ?_, fun h => ?_⟩
  · have hlabel : "apache_httpd" = "apache_tomcat" :=
      h (.result "apache_httpd" "apache_tomcat" []) (by decide)
    exact absurd hlabel (by decide)
  · have hlabel : "apache_httpd" = "apache_tomcat" ∧ "apache_httpd" = "apache_tomcat" :=
      h (.compared ("apache_httpd", "apache_tomcat") ("apache_httpd", "apache_tomcat") .ok)
        (by decide)
    exact absurd hlabel.1 (by decide)

end Garden

end HttpGarden.Repl
