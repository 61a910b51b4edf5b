import HttpGarden.Diff.Clusters

/-!
# HttpGarden.Diff.Validity

Is a request **valid** when the grammar says so? `is_valid` asks for names whose bytes are a proper
subset of the token bytes. The empty set is one, and the set of all of them is not.

`isValid_iff_grammatical_iff` says for which requests this makes no difference, and what it means
for the verdict of a comparison.
-/

namespace HttpGarden

/-! ### What the grammar asks for -/

/-- A token: one or more token bytes. -/
def IsTcharToken (s : Bytes) : Prop := s ≠ [] ∧ ∀ c ∈ s, c ∈ tchars

namespace HTTPRequest

/-- The method and the header names are tokens, and no value contains CR, LF or NUL. -/
structure Grammatical (r : HTTPRequest) : Prop where
  method : IsTcharToken r.method
  names : ∀ h ∈ r.headers, IsTcharToken h.1
  values : ∀ h ∈ r.headers, ∀ c ∈ h.2, c ∉ invalidHeaderValueBytes

/-- What has to be a token. -/
def tokens (r : HTTPRequest) : List Bytes := r.method :: r.headers.map Prod.fst

/-- There is a byte where it must not be. -/
def HasForeignByte (r : HTTPRequest) : Prop :=
  (∃ t ∈ r.tokens, ∃ c ∈ t, c ∉ tchars) ∨ ∃ h ∈ r.headers, ∃ c ∈ h.2, c ∈ invalidHeaderValueBytes

/-- The method or a header name is empty. -/
def HasEmptyToken (r : HTTPRequest) : Prop := ∃ t ∈ r.tokens, t = []

/-- The method or a header name uses every token byte there is. -/
def HasFullToken (r : HTTPRequest) : Prop := ∃ t ∈ r.tokens, ∀ c ∈ tchars, c ∈ t

variable {r : HTTPRequest}

theorem grammatical_iff : r.Grammatical ↔ ¬ r.HasForeignByte ∧ ¬ r.HasEmptyToken := by
  have hfields : r.Grammatical ↔
      (∀ t ∈ r.tokens, IsTcharToken t) ∧ ∀ h ∈ r.headers, ∀ c ∈ h.2, c ∉ invalidHeaderValueBytes := by
    rw [tokens, List.forall_mem_cons, List.forall_mem_map]
    exact ⟨fun ⟨hm, hn, hv⟩ => ⟨⟨hm, hn⟩, hv⟩, fun ⟨⟨hm, hn⟩, hv⟩ => ⟨hm, hn, hv⟩⟩
  rw [hfields, HasForeignByte, HasEmptyToken]
  push Not
  exact ⟨fun ⟨ht, hv⟩ => ⟨⟨fun t h => (ht t h).2, hv⟩, fun t h => (ht t h).1⟩,
    fun ⟨⟨ht, hv⟩, hne⟩ => ⟨fun t h => ⟨hne t h, ht t h⟩, hv⟩⟩

theorem properTchars_iff (s : Bytes) :
    properTchars s = true ↔ (∀ c ∈ s, c ∈ tchars) ∧ ¬ ∀ c ∈ tchars, c ∈ s := by
  simp only [properTchars, Bool.and_eq_true, List.all_eq_true, Bool.not_eq_true',
    Bool.eq_false_iff, List.contains_iff_mem, ne_eq]

theorem isValid_iff : r.isValid = true ↔ ¬ r.HasForeignByte ∧ ¬ r.HasFullToken := by
  have hfields : r.isValid = true ↔ (∀ t ∈ r.tokens, properTchars t = true) ∧
      ∀ h ∈ r.headers, ∀ c ∈ h.2, c ∉ invalidHeaderValueBytes := by
    rw [tokens, List.forall_mem_cons, List.forall_mem_map]
    simp only [isValid, Bool.and_eq_true, List.all_eq_true, Bool.not_eq_true', List.any_eq_false,
      List.contains_iff_mem]
    tauto
  simp only [hfields, properTchars_iff, HasForeignByte, HasFullToken]
  push Not
  exact ⟨fun h => ⟨⟨fun t ht => (h.1 t ht).1, h.2⟩, fun t ht => (h.1 t ht).2⟩,
    fun h => ⟨fun t ht => ⟨h.1.1 t ht, h.2 t ht⟩, h.1.2⟩⟩

end HTTPRequest

/-- Among these requests there is one with a byte where it must not be, or else there is an empty
token exactly if there is a full one. -/
def ExtremesCancel (rs : List HTTPRequest) : Prop :=
  (∃ r ∈ rs, r.HasForeignByte) ∨ ((∃ r ∈ rs, r.HasEmptyToken) ↔ ∃ r ∈ rs, r.HasFullToken)

/-- Some of the requests is rejected against the grammar, or for good reason, exactly if the
extremes cancel. -/
theorem exists_invalid_iff (rs : List HTTPRequest) :
    ((∃ r ∈ rs, ¬ r.isValid = true) ↔ ∃ r ∈ rs, ¬ r.Grammatical) ↔ ExtremesCancel rs := by
  have hsplit (p q : HTTPRequest → Prop) :
      (∃ r ∈ rs, ¬ (¬ p r ∧ ¬ q r)) ↔ (∃ r ∈ rs, p r) ∨ ∃ r ∈ rs, q r := by
    rw [← exists_or]
    refine exists_congr fun r => ?_
    tauto
  simp only [HTTPRequest.isValid_iff, HTTPRequest.grammatical_iff, hsplit, ExtremesCancel]
  by_cases hforeign : ∃ r ∈ rs, r.HasForeignByte
  · simp only [hforeign, true_or]
  · simp only [hforeign, false_or]
    exact ⟨Iff.symm, Iff.symm⟩

/-! ### Comparing -/

/-- The requests at one position of two streams. -/
def requestsAt (p : Option Parsed × Option Parsed) : List HTTPRequest :=
  [p.1, p.2].filterMap fun
    | some (.request r) => some r
    | _ => none

theorem someInvalid_iff (r1 r2 : Option Parsed) :
    someInvalid r1 r2 = true ↔ ∃ r ∈ requestsAt (r1, r2), ¬ r.isValid = true := by
  rcases r1 with _ | (r1 | r1) <;> rcases r2 with _ | (r2 | r2) <;>
    simp [someInvalid, requestsAt, isRequest]

/-- The comparison gets to a position with this property. -/
def GetsTo (s1 s2 : Server) (ps : List (Option Parsed × Option Parsed))
    (P : Option Parsed × Option Parsed → Prop) : Prop :=
  ∃ before p after, ps = before ++ p :: after ∧
    (∀ q ∈ before, comparePosition q.1 q.2 s1 s2 = .continue) ∧ P p

variable {s1 s2 : Server}

theorem getsTo_nil {P : Option Parsed × Option Parsed → Prop} : ¬ GetsTo s1 s2 [] P := by
  intro ⟨before, p, after, h, _⟩
  cases before <;> cases h

theorem getsTo_cons {P : Option Parsed × Option Parsed → Prop} {p : Option Parsed × Option Parsed}
    {ps : List (Option Parsed × Option Parsed)} :
    GetsTo s1 s2 (p :: ps) P ↔
      P p ∨ (comparePosition p.1 p.2 s1 s2 = .continue ∧ GetsTo s1 s2 ps P) := by
  refine ⟨fun ⟨before, q, after, heq, hbefore, hq⟩ => ?_, fun h => ?_⟩
  · cases before with
    | nil =>
        cases heq
        exact .inl hq
    | cons p' before =>
        cases heq
        obtain ⟨hp, hbefore⟩ := List.forall_mem_cons.mp hbefore
        exact .inr ⟨hp, before, q, after, rfl, hbefore, hq⟩
  · rcases h with hp | ⟨hp, before, q, after, rfl, hbefore, hq⟩
    · exact ⟨[], p, ps, rfl, fun _ h => absurd h List.not_mem_nil, hp⟩
    · exact ⟨p :: before, q, after, rfl, List.forall_mem_cons.mpr ⟨hp, hbefore⟩, hq⟩

/-- **INVALID** is returned at the first position that is found invalid, and nowhere else. -/
theorem comparePositions_eq_invalid_iff (ps : List (Option Parsed × Option Parsed)) :
    comparePositions s1 s2 ps = .invalid ↔
      GetsTo s1 s2 ps fun p => comparePosition p.1 p.2 s1 s2 = .return .invalid := by
  induction ps with
  | nil => exact iff_of_false nofun getsTo_nil
  | cons p ps ih =>
      rw [getsTo_cons, ← ih, comparePositions]
      cases comparePosition p.1 p.2 s1 s2 <;> simp

theorem comparePosition_eq_invalid_iff_grammatical (r1 r2 : Option Parsed) :
    (comparePosition r1 r2 s1 s2 = .return .invalid ↔
        ∃ r ∈ requestsAt (r1, r2), ¬ r.Grammatical) ↔ ExtremesCancel (requestsAt (r1, r2)) := by
  rw [comparePosition_eq_invalid_iff, someInvalid_iff]
  exact exists_invalid_iff _

theorem GetsTo.congr {ps : List (Option Parsed × Option Parsed)}
    {P Q : Option Parsed × Option Parsed → Prop} (h : ∀ p ∈ ps, P p ↔ Q p) :
    GetsTo s1 s2 ps P ↔ GetsTo s1 s2 ps Q := by
  have hmem {before after : List (Option Parsed × Option Parsed)} {p} (heq : ps = before ++ p :: after) :
      p ∈ ps := heq ▸ List.mem_append_right before List.mem_cons_self
  exact exists_congr fun before => exists_congr fun p => exists_congr fun after =>
    and_congr_right fun heq => and_congr_right fun _ => h p (hmem heq)

/-- **Validity and the grammar** agree about a request, and about a position of two streams, exactly
if the extremes cancel there. Where they do at every position, the comparison returns INVALID at
the first position with a request that breaks the grammar, if it gets to one, and only then. -/
theorem isValid_iff_grammatical_iff (r : HTTPRequest) (r1 r2 : Option Parsed)
    (pts1 pts2 : List Parsed) (s1 s2 : Server) :
    ((r.isValid = true ↔ r.Grammatical) ↔ ExtremesCancel [r]) ∧
      ((comparePosition r1 r2 s1 s2 = .return .invalid ↔
          ∃ r ∈ requestsAt (r1, r2), ¬ r.Grammatical) ↔ ExtremesCancel (requestsAt (r1, r2))) ∧
      ((∀ p ∈ positions pts1 pts2 s1 s2, ExtremesCancel (requestsAt p)) →
        (categorizeDiscrepancy pts1 pts2 s1 s2 = .invalid ↔
          GetsTo s1 s2 (positions pts1 pts2 s1 s2) fun p =>
            ∃ r ∈ requestsAt p, ¬ r.Grammatical)) := by
  refine ⟨?_, comparePosition_eq_invalid_iff_grammatical r1 r2, fun hcancel => ?_⟩
  · have hone := exists_invalid_iff [r]
    simp only [List.mem_singleton, exists_eq_left, not_iff_not] at hone
    exact hone
  · rw [categorizeDiscrepancy, comparePositions_eq_invalid_iff]
    exact GetsTo.congr fun p hp => (comparePosition_eq_invalid_iff_grammatical p.1 p.2).mpr (hcancel p hp)

/-- A request with one header. -/
def namedRequest (name : Bytes) : HTTPRequest :=
  ⟨bytes "GET", bytes "/", [(name, bytes "a")], [], bytes "1.1"⟩

/-- Two streams that each report a header with a blank in its name. -/
theorem isValid_iff_grammatical_iff_blank :
    (∀ p ∈ positions [.request (namedRequest (bytes "a b"))] [.request (namedRequest (bytes "a b"))]
        plainServer plainServer, ExtremesCancel (requestsAt p)) ∧
      (categorizeDiscrepancy [.request (namedRequest (bytes "a b"))]
          [.request (namedRequest (bytes "a b"))] plainServer plainServer = .invalid ↔
        GetsTo plainServer plainServer
          (positions [.request (namedRequest (bytes "a b"))]
            [.request (namedRequest (bytes "a b"))] plainServer plainServer)
          fun p => ∃ r ∈ requestsAt p, ¬ r.Grammatical) := by
  have hforeign : (namedRequest (bytes "a b")).HasForeignByte :=
    .inl ⟨bytes "a b", by decide, 32, by decide, by decide⟩
  have hcancel : ∀ p ∈ positions [.request (namedRequest (bytes "a b"))]
      [.request (namedRequest (bytes "a b"))] plainServer plainServer,
      ExtremesCancel (requestsAt p) :=
    List.forall_mem_singleton.mpr (.inl ⟨_, List.mem_cons_self, hforeign⟩)
  exact ⟨hcancel, (isValid_iff_grammatical_iff (namedRequest []) none none _ _ plainServer
    plainServer).2.2 hcancel⟩

/-- A header without a name is valid. -/
theorem not_isValid_iff_grammatical :
    ¬ ∀ r : HTTPRequest, r.isValid = true ↔ r.Grammatical := by
  intro h
  have hvalid : (namedRequest []).isValid = true := by decide
  exact (((h _).mp hvalid).names ([], bytes "a") (List.mem_singleton_self _)).1 rfl

end HttpGarden
