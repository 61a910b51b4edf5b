import HttpGarden.Repl.Labels

/-!
# HttpGarden.Repl.Names

Are the **names** that a command looks up there? Seven commands of `main` check the names they are
given, and then use them as keys of a dictionary, where one that is missing ends the session.

`validate_server_names` accepts the names of origins and of transducers, but the five commands that
call it look in `ORIGIN_DICT`. `lookups_succeed_iff` says which names this lets through.
-/

namespace HttpGarden.Repl

open Lib

variable {ε : Type}

namespace Garden

variable (g : Garden ε)

/-! ### Checks and lookups -/

/-- `validate_server_names`. -/
def validateServerNames (names : List String) : Bool := (g.invalidServerName? names).isNone

/-- `validate_transducer_names`. -/
def validateTransducerNames (names : List String) : Bool := (g.invalidTransducerName? names).isNone

/-- `validate_origin_names`, which no command calls. -/
def validateOriginNames (names : List String) : Bool := (g.invalidOriginName? names).isNone

end Garden

namespace Command

/-- The command's `validate_*_names` accepts its names. The commands without names have nothing to
check. -/
def passesCheck (g : Garden ε) : Command → Bool
  | .grid symbols => g.validateServerNames (g.originNames symbols)
  | .cluster symbols => g.validateServerNames (g.originNames symbols)
  | .transduce symbols => g.validateTransducerNames symbols
  | .fanout symbols => g.validateServerNames (g.originNames symbols)
  | .h2fanout symbols => g.validateServerNames (g.originNames symbols)
  | .unparsedFanout symbols => g.validateServerNames (g.originNames symbols)
  | .unparsedTransducerFanout symbols => g.validateTransducerNames (g.transducerNames symbols)
  | _ => true

/-- The dictionary in which the command looks up its names has them all. -/
def lookupsSucceed (g : Garden ε) : Command → Bool
  | .grid symbols => (g.originNames symbols).all g.isOrigin
  | .cluster symbols => (g.originNames symbols).all g.isOrigin
  | .transduce symbols => symbols.all g.isTransducer
  | .fanout symbols => (g.originNames symbols).all g.isOrigin
  | .h2fanout symbols => (g.originNames symbols).all g.isOrigin
  | .unparsedFanout symbols => (g.originNames symbols).all g.isOrigin
  | .unparsedTransducerFanout symbols => (g.transducerNames symbols).all g.isTransducer
  | _ => true

/-- The symbols with which a command asks for origins. -/
def originSymbols : Command → List String
  | .grid symbols => symbols
  | .cluster symbols => symbols
  | .fanout symbols => symbols
  | .h2fanout symbols => symbols
  | .unparsedFanout symbols => symbols
  | _ => []

/-- Where the command asks for origins, none of the symbols is the name of a transducer only, or
another one is no name at all. -/
def AvoidsTransducers (g : Garden ε) (c : Command) : Prop :=
  (∀ s ∈ c.originSymbols, g.isTransducer s → g.isOrigin s) ∨
    ∃ s ∈ c.originSymbols, ¬ g.isOrigin s ∧ ¬ g.isTransducer s

/-- What is piped in is what the command expects. -/
def Suits (st : State) : Command → Prop
  | .grid _ | .cluster _ => st.cwd.results?.isSome
  | _ => st.cwd.byteStream?.isSome

end Command

/-! ### What the checks let through -/

section

variable {g : Garden ε} {names symbols : List String}

theorem validateServerNames_iff :
    g.validateServerNames names = true ↔ ∀ s ∈ names, g.isOrigin s ∨ g.isTransducer s := by
  rw [Garden.validateServerNames, Garden.invalidServerName?, Option.isNone_iff_eq_none,
    List.find?_eq_none]
  refine forall₂_congr fun s _ => ?_
  cases g.isOrigin s <;> cases g.isTransducer s <;> decide

theorem validateTransducerNames_iff :
    g.validateTransducerNames names = true ↔ names.all g.isTransducer = true := by
  rw [Garden.validateTransducerNames, Garden.invalidTransducerName?, Option.isNone_iff_eq_none,
    List.find?_eq_none, List.all_eq_true]
  refine forall₂_congr fun s _ => ?_
  cases g.isTransducer s <;> decide

/-- With the check that no command makes, every lookup would succeed. -/
theorem validateOriginNames_iff :
    g.validateOriginNames names = true ↔ names.all g.isOrigin = true := by
  rw [Garden.validateOriginNames, Garden.invalidOriginName?, Option.isNone_iff_eq_none,
    List.find?_eq_none, List.all_eq_true]
  refine forall₂_congr fun s _ => ?_
  cases g.isOrigin s <;> decide

theorem origins?_eq_none : g.origins? names = none ↔ ¬ names.all g.isOrigin = true := by
  rw [← g.exists_origins?_iff, Option.eq_none_iff_forall_ne_some, not_exists]

/-- A check of transducers that passes is followed by lookups that succeed. -/
theorem exists_transducers? (h : names.all g.isTransducer = true) :
    ∃ transducers, g.transducers? names = some transducers := by
  induction names with
  | nil => exact ⟨[], rfl⟩
  | cons s names ih =>
      obtain ⟨hs, hnames⟩ := Bool.and_eq_true_iff.mp h
      obtain ⟨t, ht⟩ := Option.isSome_iff_exists.mp hs
      obtain ⟨transducers, htransducers⟩ := ih hnames
      rw [Garden.transducers?] at htransducers
      exact ⟨t :: transducers, by simp [Garden.transducers?, ht, htransducers]⟩

/-- A check that passes is followed by a lookup that fails only for the name of a transducer. -/
theorem originNames_succeed_iff :
    (g.validateServerNames (g.originNames symbols) = true →
        (g.originNames symbols).all g.isOrigin = true) ↔
      (∀ s ∈ symbols, g.isTransducer s → g.isOrigin s) ∨
        ∃ s ∈ symbols, ¬ g.isOrigin s ∧ ¬ g.isTransducer s := by
  by_cases hnil : symbols = []
  · subst hnil
    refine iff_of_true (fun _ => List.all_eq_true.mpr fun s hs => ?_)
      (.inl fun s h => absurd h List.not_mem_nil)
    obtain ⟨server, hserver, rfl⟩ := List.mem_map.mp hs
    exact g.isOrigin_of_running hserver
  · rw [Garden.originNames, if_neg hnil, validateServerNames_iff, List.all_eq_true]
    refine ⟨fun h => ?_, fun h hvalid s hs => ?_⟩
    · by_cases hvalid : ∀ s ∈ symbols, g.isOrigin s ∨ g.isTransducer s
      · exact .inl fun s hs _ => h hvalid s hs
      · push Not at hvalid
        exact .inr hvalid
    · rcases h with h | ⟨t, ht, hno, hnt⟩
      · exact (hvalid s hs).elim id (h s hs)
      · exact absurd (hvalid t ht) (not_or.mpr ⟨hno, hnt⟩)

theorem passesCheck_lookupsSucceed_iff (c : Command) :
    (c.passesCheck g = true → c.lookupsSucceed g = true) ↔ c.AvoidsTransducers g := by
  cases c with
  | grid | cluster | fanout | h2fanout | unparsedFanout => exact originNames_succeed_iff
  | transduce | unparsedTransducerFanout =>
      exact iff_of_true validateTransducerNames_iff.mp (.inl fun _ h => absurd h List.not_mem_nil)
  | _ => exact iff_of_true (fun _ => rfl) (.inl fun _ h => absurd h List.not_mem_nil)

/-! ### How a session ends -/

variable {st : State}

theorem withOrigins_keyError {k : List (Origin ε) → Step ε}
    (hk : ∀ servers, (k servers).next ≠ .leave .keyError) :
    (g.withOrigins st names k).next = .leave .keyError ↔
      ¬ (g.validateServerNames names = true → names.all g.isOrigin = true) := by
  rw [Classical.not_imp, ← origins?_eq_none, Garden.validateServerNames, Option.isNone_iff_eq_none,
    Garden.withOrigins]
  cases g.invalidServerName? names with
  | some s =>
      refine iff_of_false (fun h => ?_) fun h => ?_
      · cases h
      · cases h.1
  | none =>
      cases g.origins? names with
      | none => exact iff_of_true rfl ⟨rfl, rfl⟩
      | some servers =>
          refine iff_of_false (hk servers) fun h => ?_
          cases h.2

theorem consume_keyError (report : List Result → List (Origin ε) → Log → Log) :
    (g.consume st symbols report).next = .leave .keyError ↔ st.cwd.results?.isSome ∧
      ¬ (g.validateServerNames (g.originNames symbols) = true →
        (g.originNames symbols).all g.isOrigin = true) := by
  rw [Garden.consume]
  cases st.cwd.results? with
  | none =>
      refine iff_of_false (fun h => ?_) fun h => ?_
      · cases h
      · cases h.1
  | some pts =>
      refine (withOrigins_keyError fun servers => ?_).trans (and_iff_right rfl).symm
      split <;> (intro h; cases h)

theorem askOrigins_keyError (asks : Origin ε → Bool) :
    (g.askOrigins st symbols asks).next = .leave .keyError ↔ st.cwd.byteStream?.isSome ∧
      ¬ (g.validateServerNames (g.originNames symbols) = true →
        (g.originNames symbols).all g.isOrigin = true) := by
  rw [Garden.askOrigins]
  cases st.cwd.byteStream? with
  | none =>
      refine iff_of_false (fun h => ?_) fun h => ?_
      · cases h
      · cases h.1
  | some data =>
      refine (withOrigins_keyError fun servers => ?_).trans (and_iff_right rfl).symm
      split <;> (intro h; cases h)

theorem printUnparsedFanout_keyError (data : List Bytes)
    (servers : List (String × (Nat → List Bytes → Except ε (List Bytes)))) :
    (Garden.printUnparsedFanout st data servers).next ≠ .leave .keyError := by
  rw [Garden.printUnparsedFanout]
  split <;> (intro h; cases h)

theorem unparsedFanout_keyError :
    (g.unparsedFanout st symbols).next = .leave .keyError ↔ st.cwd.byteStream?.isSome ∧
      ¬ (g.validateServerNames (g.originNames symbols) = true →
        (g.originNames symbols).all g.isOrigin = true) := by
  rw [Garden.unparsedFanout]
  cases st.cwd.byteStream? with
  | none =>
      refine iff_of_false (fun h => ?_) fun h => ?_
      · cases h
      · cases h.1
  | some data =>
      exact (withOrigins_keyError fun servers => printUnparsedFanout_keyError data _).trans
        (and_iff_right rfl).symm

theorem transduceAll_keyError (h : symbols.all g.isTransducer = true) (data : List Bytes)
    (st : State) : (g.transduceAll symbols data st).next ≠ .leave .keyError := by
  induction symbols generalizing data st with
  | nil =>
      intro hleave
      cases hleave
  | cons s symbols ih =>
      obtain ⟨hs, hsymbols⟩ := Bool.and_eq_true_iff.mp h
      obtain ⟨t, ht⟩ := Option.isSome_iff_exists.mp hs
      rw [Garden.transduceAll, ht]
      dsimp only
      split
      · intro hleave
        cases hleave
      · next data' _ =>
          rw [Emits.andThen_of_again rfl]
          exact ih hsymbols data' _

/-- The transducers are looked up behind the check of their names. -/
theorem transduce_keyError : (g.transduce st symbols).next ≠ .leave .keyError := by
  rw [Garden.transduce]
  split
  · exact nofun
  · cases hcheck : g.invalidTransducerName? symbols with
    | some s => exact nofun
    | none =>
        have hall := validateTransducerNames_iff.mp (Option.isNone_iff_eq_none.mpr hcheck)
        dsimp only
        split
        · exact nofun
        · rw [Emits.andThen_of_again rfl]
          exact transduceAll_keyError hall _ _

theorem unparsedTransducerFanout_keyError :
    (g.unparsedTransducerFanout st symbols).next ≠ .leave .keyError := by
  rw [Garden.unparsedTransducerFanout]
  split
  · exact nofun
  · dsimp only
    cases hcheck : g.invalidTransducerName? (g.transducerNames symbols) with
    | some s => exact nofun
    | none =>
        have hall := validateTransducerNames_iff.mp (Option.isNone_iff_eq_none.mpr hcheck)
        obtain ⟨transducers, htransducers⟩ := exists_transducers? hall
        rw [htransducers]
        exact printUnparsedFanout_keyError _ _

/-- A command ends the session by a `KeyError` exactly if it gets what it expects piped in, and one
of its names passes the check but not the lookup. -/
theorem command_keyError (c : Command) : (g.command st c).next = .leave .keyError ↔
    c.Suits st ∧ ¬ c.AvoidsTransducers g := by
  rw [← passesCheck_lookupsSucceed_iff]
  cases c with
  | grid => exact consume_keyError _
  | cluster => exact consume_keyError _
  | fanout => exact askOrigins_keyError _
  | h2fanout => exact askOrigins_keyError _
  | unparsedFanout => exact unparsedFanout_keyError
  | transduce symbols =>
      exact iff_of_false transduce_keyError fun h => h.2 validateTransducerNames_iff.mp
  | unparsedTransducerFanout symbols =>
      exact iff_of_false unparsedTransducerFanout_keyError fun h =>
        h.2 validateTransducerNames_iff.mp
  | payload symbols =>
      refine iff_of_false ?_ fun h => h.2 fun _ => rfl
      rw [Garden.command, Garden.payload]
      split <;> (intro h; cases h)
  | h2frames symbols =>
      refine iff_of_false ?_ fun h => h.2 fun _ => rfl
      rw [Garden.command, Garden.h2frames]
      split
      · exact nofun
      · exact nofun
      · split <;> exact nofun
  | _ => exact iff_of_false nofun fun h => h.2 fun _ => rfl

end

/-- **Names and lookups.** A name that passes a command's check is there to be looked up, except
for the name of a transducer where the command asks for origins. Such a name ends the session if
the command gets that far, and nothing else does so by a `KeyError`. -/
theorem lookups_succeed_iff (g : Garden ε) (c : Command) (st : State) (commands : List Command) :
    ((c.passesCheck g = true → c.lookupsSucceed g = true) ↔ c.AvoidsTransducers g) ∧
      ((g.command st c).next = .leave .keyError ↔
        c.Suits st ∧ ¬ c.AvoidsTransducers g) ∧
      ((∀ c ∈ commands, c.AvoidsTransducers g) →
        (g.command.run st commands).next ≠ .leave .keyError) := by
  refine ⟨passesCheck_lookupsSucceed_iff c, command_keyError c, fun h hleave => ?_⟩
  obtain ⟨t, c', ⟨before, after, rfl, -⟩, hkey⟩ := Process.run_next_eq_leave.mp hleave
  exact ((command_keyError c').mp hkey).2 (h c' (List.mem_append_right before List.mem_cons_self))

/-- One origin and one transducer are running. -/
def httpdAndHaproxy : Garden Unit where
  originDict := [⟨plainServer, "apache_httpd", false, fun _ _ => .ok [], fun _ _ => .ok []⟩]
  transducerDict := [⟨"haproxy", fun _ data => .ok data⟩]
  nodup := by decide
  unescapePayload s := .ok (HttpGarden.bytes (s ++ "\n"))
  parseH2FramesStatement _ := .error (.replParseError "")

/-- Each kind of server is asked for under its own name. -/
theorem lookups_succeed_iff_own_kind :
    (∀ c ∈ [Command.transduce ["haproxy"], .fanout ["apache_httpd"]],
        c.AvoidsTransducers httpdAndHaproxy) ∧
      (httpdAndHaproxy.command.run ⟨.bytes [], [], 0⟩
        [.transduce ["haproxy"], .fanout ["apache_httpd"]]).next ≠ .leave .keyError := by
  have havoids : ∀ c ∈ [Command.transduce ["haproxy"], .fanout ["apache_httpd"]],
      c.AvoidsTransducers httpdAndHaproxy :=
    List.forall_mem_cons.mpr ⟨.inl fun _ h => absurd h List.not_mem_nil,
      List.forall_mem_singleton.mpr (.inl (List.forall_mem_singleton.mpr (by decide)))⟩
  exact ⟨havoids, (lookups_succeed_iff _ .empty ⟨.bytes [], [], 0⟩ _).2.2 havoids⟩

/-- `fanout haproxy` passes the check, and ends the session. -/
theorem not_lookups_succeed :
    ¬ ∀ (g : Garden Unit) (c : Command), c.passesCheck g = true → c.lookupsSucceed g = true := by
  intro h
  have hfound := h httpdAndHaproxy (.fanout ["haproxy"]) (by decide)
  revert hfound
  decide

end HttpGarden.Repl
