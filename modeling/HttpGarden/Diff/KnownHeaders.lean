import HttpGarden.Diff.NormalForm

/-!
# HttpGarden.Diff.KnownHeaders

**Do known headers influence the verdict?** A header influences it if there is a request that is
judged differently with and without it, whatever else is compared.

`normalize_request` removes the headers that `s1` removes and trashes under the names that are
listed, and the ones that `s1` adds likewise; but what `s1` reports has been translated.
`neverInfluences_iff` says which names never influence the verdict of two servers.
-/

namespace HttpGarden

/-- The header is one that `s1` is known to add, or to remove or trash, under the name by which
`s1` reports it. -/
def KnownTo (s1 : Server) (name : Bytes) : Prop :=
  (∃ k ∈ s1.addedHeaders, lower name = lower k) ∨
    ∃ k ∈ s1.removedHeaders ++ s1.trashedHeaders,
      lower name = lower (translate k s1.headerNameTranslation)

/-- A request with another header between those in `before` and those in `after`. -/
def insertHeader (r : HTTPRequest) (before after : List Header) (h : Header) : HTTPRequest :=
  { r with headers := before ++ h :: after }

/-- Wherever a header of this name is inserted into a request of `s1`, the verdict is the same. -/
def NeverInfluences (s1 s2 : Server) (name : Bytes) : Prop :=
  ∀ (r1 r2 : HTTPRequest) (before after : List Header) (value : Bytes),
    r1.headers = before ++ after → r1.isValid = true → r2.isValid = true →
    (insertHeader r1 before after (name, value)).isValid = true →
    categorizeDiscrepancy [.request (insertHeader r1 before after (name, value))] [.request r2]
      s1 s2 = categorizeDiscrepancy [.request r1] [.request r2] s1 s2

/-- The comparison drops the headers of this name: one of the edits removes them, or equality
leaves them out. -/
def Dropped (s1 s2 : Server) (name : Bytes) : Prop :=
  (∃ k ∈ removedNames s1 s2, lower k = lower name) ∨ lower name ∈ framingHeaders

theorem dropped_iff {s1 s2 : Server} {name : Bytes} :
    Dropped s1 s2 name ↔ kept s1 s2 name = false := by
  rw [Dropped, kept, Bool.and_eq_false_iff, Bool.not_eq_false', Bool.not_eq_false',
    List.contains_iff_mem, List.contains_iff_mem, List.mem_map]

variable {s1 s2 : Server} {name : Bytes}

theorem normalForm_insertHeader (h : Dropped s1 s2 name) {r : HTTPRequest}
    {before after : List Header} (hr : r.headers = before ++ after) (value : Bytes) :
    normalForm (insertHeader r before after (name, value)) s1 s2 = normalForm r s1 s2 := by
  have hfilter : (before ++ (name, value) :: after).filter (fun h => kept s1 s2 h.1) =
      (before ++ after).filter fun h => kept s1 s2 h.1 := by
    rw [List.filter_append, List.filter_append, List.filter_cons_of_neg
      (p := fun h => kept s1 s2 h.1) (a := (name, value)) (Bool.eq_false_iff.mp (dropped_iff.mp h))]
  rw [normalForm, normalForm, insertHeader, hfilter, hr]

/-- A request without headers. -/
def bareRequest : HTTPRequest := ⟨bytes "GET", bytes "/", [], [], bytes "1.1"⟩

theorem isValid_bareRequest : bareRequest.isValid = true := by decide

theorem isValid_insertHeader_bareRequest (hname : HTTPRequest.properTchars name = true) :
    (insertHeader bareRequest [] [] (name, [])).isValid = true := by
  have hmethod : HTTPRequest.properTchars bareRequest.method = true :=
    (Bool.and_eq_true_iff.mp isValid_bareRequest).2
  simp [HTTPRequest.isValid, insertHeader, hname, hmethod]

theorem normalForm_bareRequest (s1 s2 : Server) : normalForm bareRequest s1 s2 = [] := by
  have hjoined : joined s2 [] = [] := by
    unfold joined
    split <;> rfl
  show (joined s2 []).map _ = []
  rw [hjoined]
  rfl

/-- A header that is kept is all there is to be seen of a request that has no other. -/
theorem normalForm_insertHeader_bareRequest (h : kept s1 s2 name = true) (value : Bytes) :
    normalForm (insertHeader bareRequest [] [] (name, value)) s1 s2 =
      [(translate (lower name) s2.headerNameTranslation, value)] := by
  have hjoined : joined s2 [(lower name, value)] = [(lower name, value)] := by
    unfold joined
    split <;> rfl
  have hfilter : [(name, value)].filter (fun h => kept s1 s2 h.1) = [(name, value)] :=
    List.filter_cons_of_pos h
  show (joined s2 (([(name, value)].filter fun h => kept s1 s2 h.1).map lowerName)).map _ = _
  rw [hfilter]
  exact congrArg (List.map _) hjoined

/-- **Which known headers never influence the verdict**: those that the comparison drops under
the very name that they are reported by. -/
theorem neverInfluences_iff (h1 : IsDashTranslation s1.headerNameTranslation)
    (h2 : IsDashTranslation s2.headerNameTranslation)
    (hname : HTTPRequest.properTchars name = true) :
    NeverInfluences s1 s2 name ↔ Dropped s1 s2 name := by
  constructor
  · intro hnever
    -- if the header is kept, a bare request is told apart from itself with the header
    refine dropped_iff.mpr (Bool.eq_false_iff.mpr fun hkept => ?_)
    have hbare := isValid_bareRequest
    have hinserted := isValid_insertHeader_bareRequest hname
    have hverdict := hnever bareRequest bareRequest [] [] [] rfl hbare hbare hinserted
    rw [categorizeDiscrepancy_requests hinserted hbare, categorizeDiscrepancy_requests hbare hbare]
      at hverdict
    have hok : (normalizeRequest bareRequest s1 s2).eqv (normalizeRequest bareRequest s2 s1) =
        true := by
      rw [normalized_eqv_iff _ _ h1 h2, normalForm_bareRequest, normalForm_bareRequest]
      exact ⟨⟨rfl, rfl, rfl, .inl rfl⟩, List.Perm.nil⟩
    have hdiffers : ¬ (normalizeRequest (insertHeader bareRequest [] [] (name, [])) s1 s2).eqv
        (normalizeRequest bareRequest s2 s1) = true := by
      rw [normalized_eqv_iff _ _ h1 h2, normalForm_insertHeader_bareRequest hkept,
        normalForm_bareRequest]
      exact fun h => absurd h.2.length_eq (Nat.succ_ne_zero 0)
    rw [if_pos hok, if_neg hdiffers] at hverdict
    cases hverdict
  · intro hdropped r1 r2 before after value hr hv1 hv2 hinserted
    rw [categorizeDiscrepancy_requests hinserted hv2, categorizeDiscrepancy_requests hv1 hv2]
    -- the header is gone from the normal form, and equality sees nothing else of it
    have heqv : (normalizeRequest (insertHeader r1 before after (name, value)) s1 s2).eqv
        (normalizeRequest r2 s2 s1) =
          (normalizeRequest r1 s1 s2).eqv (normalizeRequest r2 s2 s1) := by
      rw [Bool.eq_iff_iff, normalized_eqv_iff _ _ h1 h2, normalized_eqv_iff _ _ h1 h2,
        normalForm_insertHeader hdropped hr]
      exact Iff.rfl
    rw [heqv]

/-- What is known of `waitress`. -/
def waitress : Server :=
  { plainServer with
    allowsMissingHostHeader := true
    headerNameTranslation := dashTranslation
    removedHeaders := [bytes "X-Forwarded-Proto", bytes "X-Forwarded-For", bytes "Forwarded",
      bytes "X-Forwarded-Host", bytes "X-Forwarded-Port"]
    joinsDuplicateHeaders := true
    duplicateHeaderJoiner := bytes ", " }

theorem neverInfluences_iff_forwarded :
    NeverInfluences waitress plainServer (bytes "Forwarded") :=
  (neverInfluences_iff (.inr rfl) (.inl rfl) (by decide)).mpr
    (.inl ⟨bytes "Forwarded", by decide, rfl⟩)

/-- `waitress` reports the header it removes as `X-Forwarded-For` under the name
`X_FORWARDED_FOR`, and there it is not removed. -/
theorem not_knownHeaders_neverInfluence :
    ¬ ∀ s1 s2 name, IsDashTranslation s1.headerNameTranslation →
      IsDashTranslation s2.headerNameTranslation → KnownTo s1 name → NeverInfluences s1 s2 name := by
  intro h
  have hknown : KnownTo waitress (bytes "X_FORWARDED_FOR") :=
    .inr ⟨bytes "X-Forwarded-For", by decide⟩
  have hwithout : categorizeDiscrepancy [.request bareRequest] [.request bareRequest] waitress
      plainServer = .ok := by decide
  have hwith : categorizeDiscrepancy
      [.request (insertHeader bareRequest [] [] (bytes "X_FORWARDED_FOR", bytes "1"))]
      [.request bareRequest] waitress plainServer = .requestDiscrepancy := by decide
  have hsame := h waitress plainServer _ (.inr rfl) (.inl rfl) hknown bareRequest bareRequest [] []
    (bytes "1") rfl isValid_bareRequest isValid_bareRequest (by decide)
  cases hwith.symm.trans (hsame.trans hwithout)

end HttpGarden
