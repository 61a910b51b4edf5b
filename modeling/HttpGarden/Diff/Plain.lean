import HttpGarden.Diff.NormalForm

/-!
# HttpGarden.Diff.Plain

**The oracle without quirks.** For two servers that no quirk sets apart, the comparison comes down
to the streams: `plainVerdict` is their first difference, and `categorizeDiscrepancy_eq_plain`
says that none of the clauses that excuse a difference comes into it, but for the one about a
server that errors where the other does not respond.

`categorizeDiscrepancy_plain` spells out what an `OK` means, and what the other categories do.
-/

namespace HttpGarden

/-! ### Servers without quirks -/

/-- The server has none of the quirks that excuse a difference by themselves. -/
structure QuirkFree (s : Server) : Prop where
  persistence : s.doesntSupportPersistence = false
  http09 : s.allowsHttp09 = true
  whitelist : s.methodWhitelist = none
  blacklist : s.methodCharacterBlacklist = []
  added : s.addedHeaders = []
  removed : s.removedHeaders = []
  trashed : s.trashedHeaders = []
  translation : s.headerNameTranslation = []
  joins : s.joinsDuplicateHeaders = false

/-- Neither server has quirks, and they agree on the two that only matter when they differ. -/
structure QuirkFreePair (s1 s2 : Server) : Prop where
  left : QuirkFree s1
  right : QuirkFree s2
  length : s1.requiresLengthInPost = s2.requiresLengthInPost
  host : s1.allowsMissingHostHeader = s2.allowsMissingHostHeader

/-! ### Streams without quirks -/

/-- `==` on the elements of two streams. -/
def Parsed.same : Parsed → Parsed → Bool
  | .request a, .request b => a.eqv b
  | .response a, .response b => a.eqv b
  | _, _ => false

/-- The two streams have the same element at a position, or have both ended. -/
def sameAt : Option Parsed → Option Parsed → Bool
  | some a, some b => a.same b
  | none, none => true
  | _, _ => false

/-- The category of a position at which two streams differ. -/
def differenceCategory : Option Parsed → Option Parsed → ErrorType
  | some (.request _), some (.request _) => .requestDiscrepancy
  | some (.response _), some (.response _) => .responseDiscrepancy
  | some _, some _ => .typeDiscrepancy
  | _, _ => .streamDiscrepancy

/-- A response with a code other than 200. -/
def Parsed.isError : Parsed → Bool
  | .request _ => false
  | .response r => r.code != bytes "200"

/-- The verdict on two streams by themselves. -/
def plainVerdict : List Parsed → List Parsed → ErrorType
  | [], [] => .ok
  | x :: _, [] => if x.isError then .ok else .streamDiscrepancy
  | [], y :: _ => if y.isError then .ok else .streamDiscrepancy
  | x :: xs, y :: ys =>
    if x.same y then plainVerdict xs ys else differenceCategory (some x) (some y)

/-- The requests in the stream are valid. -/
def AllValid (pts : List Parsed) : Prop := ∀ r, .request r ∈ pts → r.isValid = true

theorem allValid_cons {x : Parsed} {pts : List Parsed} :
    AllValid (x :: pts) ↔ (∀ r, x = .request r → r.isValid = true) ∧ AllValid pts := by
  refine ⟨fun h => ?_, fun h r hr => ?_⟩
  · exact ⟨fun r hr => h r (hr ▸ List.mem_cons_self), fun r hr => h r (List.mem_cons_of_mem x hr)⟩
  · rcases List.mem_cons.mp hr with hr | hr
    · exact h.1 r hr.symm
    · exact h.2 r hr

/-! ### One position -/

variable {s1 s2 : Server}

theorem normalized_eqv_plain (h : QuirkFreePair s1 s2) (r1 r2 : HTTPRequest) :
    (normalizeRequest r1 s1 s2).eqv (normalizeRequest r2 s2 s1) = r1.eqv r2 := by
  have hkept (s s' : Server) (hs : QuirkFree s) (hs' : QuirkFree s') (r : HTTPRequest) :
      normalForm r s s' = visible r.headers := by
    have hnames : removedNames s s' = [] := by
      rw [removedNames, hs.added, hs.removed, hs.trashed, hs'.added, hs'.removed, hs'.trashed]
      rfl
    have hjoins (hs : List Header) : joined s' hs = hs := by
      rw [joined, hs'.joins]
      rfl
    rw [normalForm, hjoins, hs'.translation]
    refine (List.map_id _).trans ?_
    refine congrArg (List.map lowerName) (List.filter_congr fun h _ => ?_)
    rw [kept, hnames]
    rfl
  rw [Bool.eq_iff_iff, normalized_eqv_iff r1 r2 (.inl h.left.translation)
    (.inl h.right.translation), hkept s1 s2 h.left h.right, hkept s2 s1 h.right h.left, eqv_iff]

theorem isRequest_false (r : Option Parsed) : isRequest (fun _ => false) r = false := by
  unfold isRequest
  split <;> rfl

/-- No clause excuses a difference. -/
theorem not_excused (h : QuirkFreePair s1 s2) (r1 r2 : Option Parsed) :
    (excusedByHttp09 r1 r2 s2 || excusedByLength r1 r2 s1 s2 || excusedByHost r1 r2 s1 s2 ||
      excusedByWhitelist r1 r2 s1 s2 || excusedByBlacklist r1 r2 s1 s2) = false := by
  have hhttp09 : excusedByHttp09 r1 r2 s2 = false := by
    simp only [excusedByHttp09, h.right.http09, Bool.not_true, Bool.and_false, Bool.or_false]
  have hlength : excusedByLength r1 r2 s1 s2 = false := by
    rw [excusedByLength, h.length]
    cases s2.requiresLengthInPost <;> simp
  have hhost : excusedByHost r1 r2 s1 s2 = false := by
    rw [excusedByHost, h.host]
    cases s2.allowsMissingHostHeader <;> simp
  have hwhitelist : excusedByWhitelist r1 r2 s1 s2 = false := by
    simp only [excusedByWhitelist, h.left.whitelist, h.right.whitelist, Option.any_none,
      isRequest_false, Bool.and_false, Bool.or_false]
  have hblacklist : excusedByBlacklist r1 r2 s1 s2 = false := by
    have hnone (r : HTTPRequest) : (r.method.any fun b => ([] : Bytes).contains b) = false := by
      simp
    simp only [excusedByBlacklist, h.left.blacklist, h.right.blacklist, hnone, isRequest_false,
      Bool.and_false, Bool.or_false]
  rw [hhttp09, hlength, hhost, hwhitelist, hblacklist]
  rfl

/-- A request against a response is a difference of types. -/
theorem comparePosition_mixed (h : QuirkFreePair s1 s2) {r : HTTPRequest} (hv : r.isValid = true)
    (r' : HTTPResponse) :
    comparePosition (some (.request r)) (some (.response r')) s1 s2 = .return .typeDiscrepancy ∧
      comparePosition (some (.response r')) (some (.request r)) s1 s2 =
        .return .typeDiscrepancy := by
  constructor
  · simp [comparePosition, earlyVerdict, not_excused h, someInvalid, erroredAlone, oneMissing,
      mixedTypes, isRequest, isResponse, hv]
  · simp [comparePosition, earlyVerdict, not_excused h, someInvalid, erroredAlone, oneMissing,
      mixedTypes, isRequest, isResponse, hv]

/-- Where both streams have an element, the same ones are passed over. -/
theorem comparePosition_plain (h : QuirkFreePair s1 s2) {x y : Parsed}
    (hx : ∀ r, x = .request r → r.isValid = true) (hy : ∀ r, y = .request r → r.isValid = true) :
    comparePosition (some x) (some y) s1 s2 =
      if x.same y then .continue else .return (differenceCategory (some x) (some y)) := by
  cases x with
  | request a =>
      cases y with
      | request b =>
          rw [comparePosition_requests (hx a rfl) (hy b rfl), normalized_eqv_plain h]
          rfl
      | response b => exact (comparePosition_mixed h (hx a rfl) b).1
  | response a =>
      cases y with
      | request b => exact (comparePosition_mixed h (hy b rfl) a).2
      | response b => rfl

/-- Where one stream has ended, the other's element is passed over if it is an error. -/
theorem comparePosition_none {x : Parsed} (hx : ∀ r, x = .request r → r.isValid = true)
    (s1 s2 : Server) :
    comparePosition (some x) none s1 s2 =
        (if x.isError then .break else .return .streamDiscrepancy) ∧
      comparePosition none (some x) s1 s2 =
        if x.isError then .break else .return .streamDiscrepancy := by
  cases x with
  | request r =>
      simp [comparePosition, earlyVerdict, someInvalid, erroredAlone, oneMissing, isRequest,
        isResponse, hx r rfl, Parsed.isError]
  | response r =>
      cases hcode : r.code != bytes "200" <;>
        simp [comparePosition, earlyVerdict, someInvalid, erroredAlone, oneMissing, isRequest,
          isResponse, Parsed.isError, hcode]

/-! ### Streams -/

/-- **Without quirks**, the oracle's verdict is that on the streams by themselves. -/
theorem categorizeDiscrepancy_eq_plain (h : QuirkFreePair s1 s2) {pts1 pts2 : List Parsed}
    (hv1 : AllValid pts1) (hv2 : AllValid pts2) :
    categorizeDiscrepancy pts1 pts2 s1 s2 = plainVerdict pts1 pts2 := by
  -- neither stream is cut off after its first element
  have hstream (pts : List Parsed) : consideredStream s1 s2 pts = pts := by
    rw [consideredStream, h.left.persistence, h.right.persistence]
    rfl
  rw [categorizeDiscrepancy, positions, hstream, hstream]
  induction pts1 generalizing pts2 with
  | nil =>
      cases pts2 with
      | nil => rfl
      | cons y pts2 =>
          rw [zipLongest, List.map_cons, comparePositions,
            (comparePosition_none (allValid_cons.mp hv2).1 s1 s2).2, plainVerdict]
          cases y.isError <;> rfl
  | cons x pts1 ih =>
      obtain ⟨hx, hv1⟩ := allValid_cons.mp hv1
      cases pts2 with
      | nil =>
          rw [zipLongest, comparePositions, (comparePosition_none hx s1 s2).1, plainVerdict]
          cases x.isError <;> rfl
      | cons y pts2 =>
          obtain ⟨hy, hv2⟩ := allValid_cons.mp hv2
          rw [zipLongest, comparePositions, comparePosition_plain h hx hy, plainVerdict]
          cases x.same y with
          | true => exact ih hv1 hv2
          | false => rfl

theorem Parsed.same_comm (x y : Parsed) : x.same y = y.same x := by
  cases x with
  | request a =>
      cases y with
      | request b => exact HTTPRequest.eqv_comm a b
      | response b => rfl
  | response a =>
      cases y with
      | request b => rfl
      | response b => exact HTTPResponse.eqv_comm a b

/-- The streams are equal, element by element. -/
def SameStreams (pts1 pts2 : List Parsed) : Prop :=
  List.Forall₂ (fun x y => x.same y = true) pts1 pts2

/-- `short` is a strict prefix of `long`, which goes on with an error. -/
def ErroredAfter (short long : List Parsed) : Prop :=
  ∃ common x rest, long = common ++ x :: rest ∧ SameStreams short common ∧ x.isError = true

theorem erroredAfter_nil_left {y : Parsed} (pts : List Parsed) :
    ErroredAfter [] (y :: pts) ↔ y.isError = true := by
  constructor
  · intro ⟨common, x, rest, heq, hsame, herror⟩
    cases hsame
    cases heq
    exact herror
  · exact fun h => ⟨[], y, pts, rfl, .nil, h⟩

theorem not_erroredAfter_nil_right {pts : List Parsed} : ¬ ErroredAfter pts [] := by
  intro ⟨common, x, rest, heq, _⟩
  exact List.append_ne_nil_of_right_ne_nil common (List.cons_ne_nil x rest) heq.symm

theorem erroredAfter_cons {x y : Parsed} {pts1 pts2 : List Parsed} :
    ErroredAfter (x :: pts1) (y :: pts2) ↔ x.same y = true ∧ ErroredAfter pts1 pts2 := by
  constructor
  · intro ⟨common, z, rest, heq, hsame, herror⟩
    cases hsame with
    | cons hxy hsame =>
        cases heq
        exact ⟨hxy, _, z, rest, rfl, hsame, herror⟩
  · intro ⟨hxy, common, z, rest, heq, hsame, herror⟩
    exact ⟨y :: common, z, rest, by rw [heq]; rfl, .cons hxy hsame, herror⟩

theorem plainVerdict_eq_ok_iff (pts1 pts2 : List Parsed) :
    plainVerdict pts1 pts2 = .ok ↔
      SameStreams pts1 pts2 ∨ ErroredAfter pts1 pts2 ∨ ErroredAfter pts2 pts1 := by
  have hend (x : Parsed) :
      (if x.isError then ErrorType.ok else .streamDiscrepancy) = .ok ↔ x.isError = true := by
    cases x.isError <;> decide
  induction pts1 generalizing pts2 with
  | nil =>
      cases pts2 with
      | nil => exact iff_of_true rfl (.inl .nil)
      | cons y pts2 =>
          rw [plainVerdict, hend, ← erroredAfter_nil_left pts2]
          exact ⟨fun h => .inr (.inl h),
            fun h => h.elim nofun fun h => h.resolve_right not_erroredAfter_nil_right⟩
  | cons x pts1 ih =>
      cases pts2 with
      | nil =>
          rw [plainVerdict, hend, ← erroredAfter_nil_left pts1]
          exact ⟨fun h => .inr (.inr h),
            fun h => h.elim nofun fun h => h.resolve_left not_erroredAfter_nil_right⟩
      | cons y pts2 =>
          rw [plainVerdict, SameStreams, List.forall₂_cons, erroredAfter_cons, erroredAfter_cons,
            y.same_comm x, ← and_or_left, ← and_or_left]
          by_cases hxy : x.same y = true
          · rw [if_pos hxy]
            exact (ih pts2).trans ⟨fun h => ⟨hxy, h⟩, And.right⟩
          · rw [if_neg hxy]
            refine iff_of_false ?_ fun h => hxy h.1
            cases x <;> cases y <;> exact ErrorType.noConfusion

/-- The streams differ at the position `i`, and nowhere before it. -/
def FirstDifference (pts1 pts2 : List Parsed) (i : Nat) : Prop :=
  (∀ j < i, sameAt pts1[j]? pts2[j]? = true) ∧ sameAt pts1[i]? pts2[i]? = false

/-- What is not excused is put into the category of the first difference. -/
theorem plainVerdict_of_ne_ok {pts1 pts2 : List Parsed} (h : plainVerdict pts1 pts2 ≠ .ok) :
    ∃ i, FirstDifference pts1 pts2 i ∧
      plainVerdict pts1 pts2 = differenceCategory pts1[i]? pts2[i]? := by
  have hstart {pts1 pts2 : List Parsed} (hdiff : sameAt pts1[0]? pts2[0]? = false) :
      FirstDifference pts1 pts2 0 := ⟨fun j hj => absurd hj (Nat.not_lt_zero j), hdiff⟩
  induction pts1 generalizing pts2 with
  | nil =>
      cases pts2 with
      | nil => exact absurd rfl h
      | cons y pts2 =>
          rw [plainVerdict] at h ⊢
          exact ⟨0, hstart rfl, if_neg fun hy => h (if_pos hy)⟩
  | cons x pts1 ih =>
      cases pts2 with
      | nil =>
          rw [plainVerdict] at h ⊢
          refine ⟨0, hstart rfl, (if_neg fun hx => h (if_pos hx)).trans ?_⟩
          cases x <;> rfl
      | cons y pts2 =>
          rw [plainVerdict] at h ⊢
          by_cases hxy : x.same y = true
          · rw [if_pos hxy] at h ⊢
            -- nothing differs here, so the first difference is one position later
            obtain ⟨i, ⟨hbefore, hdiff⟩, hcategory⟩ := ih h
            refine ⟨i + 1, ⟨fun j hj => ?_, hdiff⟩, hcategory⟩
            cases j with
            | zero => exact hxy
            | succ j => exact hbefore j (Nat.lt_of_succ_lt_succ hj)
          · rw [if_neg hxy]
            exact ⟨0, hstart (Bool.eq_false_iff.mpr hxy), rfl⟩

/-- **Soundness and completeness.** Without quirks, two streams of valid requests are `OK` exactly
if they are equal, or one of them ends where the other goes on with an error; otherwise the
category is that of the first difference. -/
theorem categorizeDiscrepancy_plain (h : QuirkFreePair s1 s2) {pts1 pts2 : List Parsed}
    (hv1 : AllValid pts1) (hv2 : AllValid pts2) :
    (categorizeDiscrepancy pts1 pts2 s1 s2 = .ok ↔
      SameStreams pts1 pts2 ∨ ErroredAfter pts1 pts2 ∨ ErroredAfter pts2 pts1) ∧
    (categorizeDiscrepancy pts1 pts2 s1 s2 ≠ .ok → ∃ i, FirstDifference pts1 pts2 i ∧
      categorizeDiscrepancy pts1 pts2 s1 s2 = differenceCategory pts1[i]? pts2[i]?) := by
  rw [categorizeDiscrepancy_eq_plain h hv1 hv2]
  exact ⟨plainVerdict_eq_ok_iff pts1 pts2, plainVerdict_of_ne_ok⟩

theorem quirkFree_plainServer : QuirkFree plainServer :=
  ⟨rfl, rfl, rfl, rfl, rfl, rfl, rfl, rfl, rfl⟩

/-- A request that only one server goes on from, with an error. -/
theorem categorizeDiscrepancy_plain_errored :
    categorizeDiscrepancy [.request ⟨bytes "GET", bytes "/", [], [], bytes "1.1"⟩]
      [.request ⟨bytes "GET", bytes "/", [], [], bytes "1.1"⟩,
        .response ⟨bytes "1.1", bytes "400", bytes "Bad Request", [], []⟩]
      plainServer plainServer = .ok := by
  have hv : AllValid [.request ⟨bytes "GET", bytes "/", [], [], bytes "1.1"⟩] := by
    intro r hr
    cases List.mem_singleton.mp hr
    decide
  have hv' : AllValid [.request ⟨bytes "GET", bytes "/", [], [], bytes "1.1"⟩,
      .response ⟨bytes "1.1", bytes "400", bytes "Bad Request", [], []⟩] := by
    refine allValid_cons.mpr ⟨fun r hr => hv r (hr ▸ List.mem_cons_self), fun r hr => ?_⟩
    cases List.mem_singleton.mp hr
  refine (categorizeDiscrepancy_plain ⟨quirkFree_plainServer, quirkFree_plainServer, rfl, rfl⟩
    hv hv').1.mpr (.inr (.inl ?_))
  exact ⟨[_], _, [], rfl, .cons (by decide) .nil, by decide⟩

end HttpGarden
