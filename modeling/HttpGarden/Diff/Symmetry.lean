import HttpGarden.Diff.Categorize

/-!
# HttpGarden.Diff.Symmetry

Does the category depend on which server comes first? Every clause of the
comparison is written twice with the roles exchanged, and all of them mirror
exactly but one: the HTTP/0.9 excuse asks `s2.allows_http_0_9` in both halves.

One position is compared the same way from both sides unless that clause decides
it (`comparePosition_swap`), where one side breaks and the other returns
(`comparePosition_http09Lopsided`); the run over the positions then turns this
into the exact condition under which a whole comparison is symmetric.
-/

namespace HttpGarden

section

variable (r1 r2 : Option Parsed) (s1 s2 : Server)

/-! ### The clauses that mirror -/

theorem someInvalid_swap : someInvalid r2 r1 = someInvalid r1 r2 := Bool.or_comm _ _

theorem erroredAlone_swap : erroredAlone r2 r1 = erroredAlone r1 r2 := Bool.or_comm _ _

theorem oneMissing_swap : oneMissing r2 r1 = oneMissing r1 r2 := by
  rw [oneMissing, oneMissing, Bool.or_comm, Bool.and_comm r2.isNone]

theorem excusedByLength_swap : excusedByLength r2 r1 s2 s1 = excusedByLength r1 r2 s1 s2 :=
  Bool.or_comm _ _

theorem excusedByHost_swap : excusedByHost r2 r1 s2 s1 = excusedByHost r1 r2 s1 s2 :=
  Bool.or_comm _ _

theorem excusedByWhitelist_swap :
    excusedByWhitelist r2 r1 s2 s1 = excusedByWhitelist r1 r2 s1 s2 :=
  Bool.or_comm _ _

theorem excusedByBlacklist_swap :
    excusedByBlacklist r2 r1 s2 s1 = excusedByBlacklist r1 r2 s1 s2 :=
  Bool.or_comm _ _

theorem mixedTypes_swap : mixedTypes r2 r1 = mixedTypes r1 r2 := by
  cases h1 : isRequest (fun _ => true) r1 <;> cases h2 : isRequest (fun _ => true) r2 <;>
    simp [mixedTypes, h1, h2]

theorem compareSameType_swap : compareSameType r2 r1 s2 s1 = compareSameType r1 r2 s1 s2 := by
  rcases r1 with _ | a | a <;> rcases r2 with _ | b | b <;> try rfl
  · simp only [compareSameType]
    rw [HTTPRequest.eqv_comm]
  · simp only [compareSameType]
    rw [HTTPResponse.eqv_comm]

/-! ### The clause that does not -/

/-- One side parsed a request as HTTP/0.9 and the other rejected it. -/
def http09Pair : Bool :=
  (isRequest (·.version == bytes "0.9") r1 && isResponse (fun _ => true) r2) ||
    (isRequest (·.version == bytes "0.9") r2 && isResponse (fun _ => true) r1)

theorem http09Pair_swap : http09Pair r2 r1 = http09Pair r1 r2 := Bool.or_comm _ _

theorem excusedByHttp09_eq :
    excusedByHttp09 r1 r2 s2 = (http09Pair r1 r2 && !s2.allowsHttp09) := by
  rw [excusedByHttp09, http09Pair, Bool.and_or_distrib_right]

/-- The excuses other than HTTP/0.9. -/
def otherwiseExcused : Bool :=
  excusedByLength r1 r2 s1 s2 || excusedByHost r1 r2 s1 s2 || excusedByWhitelist r1 r2 s1 s2 ||
    excusedByBlacklist r1 r2 s1 s2

theorem otherwiseExcused_swap :
    otherwiseExcused r2 r1 s2 s1 = otherwiseExcused r1 r2 s1 s2 := by
  simp only [otherwiseExcused, excusedByLength_swap r1, excusedByHost_swap r1,
    excusedByWhitelist_swap r1, excusedByBlacklist_swap r1]

/-- The HTTP/0.9 excuse alone decides the position, and the two servers differ on
it: a valid HTTP/0.9 request against a response, with no other excuse. -/
def http09Lopsided : Bool :=
  !someInvalid r1 r2 && http09Pair r1 r2 && !otherwiseExcused r1 r2 s1 s2 &&
    s1.allowsHttp09 != s2.allowsHttp09

/-- A mixed pair without a missing side, of a valid request: only the excuses decide. -/
theorem comparePosition_of_http09Pair (hv : someInvalid r1 r2 = false)
    (h : http09Pair r1 r2 = true) :
    comparePosition r1 r2 s1 s2 =
      if (!s2.allowsHttp09) || otherwiseExcused r1 r2 s1 s2 then .break
      else .return .typeDiscrepancy := by
  have hshape : erroredAlone r1 r2 = false ∧ oneMissing r1 r2 = false ∧
      mixedTypes r1 r2 = true := by
    rcases r1 with _ | a | a <;> rcases r2 with _ | b | b <;>
      simp [http09Pair, isRequest, isResponse, mixedTypes, erroredAlone, oneMissing] at h ⊢
  obtain ⟨he, hm, ht⟩ := hshape
  simp only [comparePosition, earlyVerdict, hv, he, hm, ht, excusedByHttp09_eq, h,
    otherwiseExcused, Bool.false_eq_true, if_false, if_true, Bool.true_and, Bool.or_assoc]
  split <;> rfl

/-- At a lopsided position one order breaks off and the other returns. -/
theorem comparePosition_http09Lopsided (h : http09Lopsided r1 r2 s1 s2 = true) :
    (comparePosition r1 r2 s1 s2 = .break ∧
      comparePosition r2 r1 s2 s1 = .return .typeDiscrepancy) ∨
    (comparePosition r1 r2 s1 s2 = .return .typeDiscrepancy ∧
      comparePosition r2 r1 s2 s1 = .break) := by
  simp only [http09Lopsided, Bool.and_eq_true, Bool.not_eq_true', bne_iff_ne] at h
  obtain ⟨⟨⟨hv, hp⟩, ho⟩, hne⟩ := h
  rw [comparePosition_of_http09Pair r1 r2 s1 s2 hv hp,
    comparePosition_of_http09Pair r2 r1 s2 s1 (by rw [someInvalid_swap, hv])
      (by rw [http09Pair_swap, hp]), otherwiseExcused_swap r1, ho]
  cases h1 : s1.allowsHttp09 <;> cases h2 : s2.allowsHttp09 <;> simp_all

/-- Every other position is compared the same way from both sides. -/
theorem comparePosition_swap (h : http09Lopsided r1 r2 s1 s2 = false) :
    comparePosition r2 r1 s2 s1 = comparePosition r1 r2 s1 s2 := by
  by_cases hv : someInvalid r1 r2
  · have hv' : someInvalid r2 r1 = true := by rw [someInvalid_swap]; exact hv
    rw [comparePosition, comparePosition, earlyVerdict, earlyVerdict, if_pos hv, if_pos hv']
    rfl
  rw [Bool.not_eq_true] at hv
  by_cases hp : http09Pair r1 r2
  · rw [comparePosition_of_http09Pair r1 r2 s1 s2 hv hp,
      comparePosition_of_http09Pair r2 r1 s2 s1 (by rw [someInvalid_swap, hv])
        (by rw [http09Pair_swap, hp]), otherwiseExcused_swap r1]
    simp only [http09Lopsided, hv, hp, Bool.not_false, Bool.true_and] at h
    cases h1 : s1.allowsHttp09 <;> cases h2 : s2.allowsHttp09 <;> simp_all
  · -- no HTTP/0.9 pair: that clause is off on both sides and the others mirror
    have hoff1 : excusedByHttp09 r1 r2 s2 = false := by rw [excusedByHttp09_eq]; simp [hp]
    have hoff2 : excusedByHttp09 r2 r1 s1 = false := by
      rw [excusedByHttp09_eq, http09Pair_swap]; simp [hp]
    simp only [comparePosition, earlyVerdict, hoff1, hoff2, someInvalid_swap r1,
      erroredAlone_swap r1, oneMissing_swap r1, mixedTypes_swap r1, compareSameType_swap r1,
      excusedByLength_swap r1, excusedByHost_swap r1, excusedByWhitelist_swap r1,
      excusedByBlacklist_swap r1]

end

/-! ### Whole streams -/

theorem zipLongest_nil_right {α β : Type} (as : List α) :
    zipLongest as ([] : List β) = as.map fun a => (some a, none) := by
  induction as with
  | nil => rfl
  | cons a as ih => simp [zipLongest, ih]

theorem zipLongest_swap {α β : Type} (as : List α) (bs : List β) :
    zipLongest bs as = (zipLongest as bs).map Prod.swap := by
  induction as generalizing bs with
  | nil => cases bs <;> simp [zipLongest, zipLongest_nil_right]
  | cons a as ih =>
      cases bs with
      | nil => simp [zipLongest, zipLongest_nil_right]
      | cons b bs => simp [zipLongest, ih]

theorem consideredStream_comm {α : Type} (s1 s2 : Server) (pts : List α) :
    consideredStream s1 s2 pts = consideredStream s2 s1 pts := by
  rw [consideredStream, consideredStream, Bool.or_comm]

theorem positions_swap {α : Type} (pts1 pts2 : List α) (s1 s2 : Server) :
    positions pts2 pts1 s2 s1 = (positions pts1 pts2 s1 s2).map Prod.swap := by
  rw [positions, positions, consideredStream_comm s2 s1, consideredStream_comm s2 s1,
    zipLongest_swap (consideredStream s1 s2 pts1)]

/-- The first position that ends the comparison, if one does. -/
def decidingPosition (s1 s2 : Server) :
    List (Option Parsed × Option Parsed) → Option (Option Parsed × Option Parsed) :=
  List.find? fun p => comparePosition p.1 p.2 s1 s2 != .continue

theorem comparePositions_swap_iff (s1 s2 : Server) (ps : List (Option Parsed × Option Parsed)) :
    comparePositions s1 s2 ps = comparePositions s2 s1 (ps.map Prod.swap) ↔
      ∀ p, decidingPosition s1 s2 ps = some p → http09Lopsided p.1 p.2 s1 s2 = false := by
  induction ps with
  | nil => simp [comparePositions, decidingPosition]
  | cons p ps ih =>
      obtain ⟨r1, r2⟩ := p
      simp only [List.map_cons, Prod.swap_prod_mk, comparePositions, decidingPosition]
      cases hl : http09Lopsided r1 r2 s1 s2 with
      | true =>
          rcases comparePosition_http09Lopsided r1 r2 s1 s2 hl with ⟨h1, h2⟩ | ⟨h1, h2⟩ <;>
            simp [h1, h2, hl]
      | false =>
          rw [comparePosition_swap r1 r2 s1 s2 hl]
          cases hc : comparePosition r1 r2 s1 s2 with
          | «continue» => simpa [hc, decidingPosition] using ih
          | «break» => simp [hc, hl]
          | «return» e => simp [hc, hl]

/-- **When the category does not depend on the order**: exactly when the position
that decides the comparison is not a valid HTTP/0.9 request against a response
with no other excuse, from two servers that differ on allowing HTTP/0.9. -/
theorem categorizeDiscrepancy_symmetric_iff (pts1 pts2 : List Parsed) (s1 s2 : Server) :
    categorizeDiscrepancy pts1 pts2 s1 s2 = categorizeDiscrepancy pts2 pts1 s2 s1 ↔
      ∀ p, decidingPosition s1 s2 (positions pts1 pts2 s1 s2) = some p →
        http09Lopsided p.1 p.2 s1 s2 = false := by
  rw [categorizeDiscrepancy, categorizeDiscrepancy, positions_swap pts1 pts2 s1 s2]
  exact comparePositions_swap_iff s1 s2 _

/-- A server that takes an HTTP/0.9 request, and one that rejects it and does not
allow HTTP/0.9: excused in one order, reported in the other. -/
theorem categorizeDiscrepancy_not_symmetric :
    ¬ ∀ pts1 pts2 s1 s2,
      categorizeDiscrepancy pts1 pts2 s1 s2 = categorizeDiscrepancy pts2 pts1 s2 s1 := by
  intro h
  have hbad := h [.request ⟨bytes "GET", bytes "/", [], [], bytes "0.9"⟩]
    [.response ⟨bytes "1.1", bytes "400", bytes "Bad Request", [], []⟩] plainServer
    { plainServer with allowsHttp09 := false }
  revert hbad
  decide

end HttpGarden
