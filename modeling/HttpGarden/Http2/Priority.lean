import HttpGarden.Http2.Failures

/-!
# HttpGarden.Http2.Priority

**The priority fields of a HEADERS frame**: all of them or none. The encoder writes the block only
if all three are there, so the constructor has to refuse every other combination.

Its check is the chained comparison `a != b != c`, which says that *both* neighbouring pairs differ.
A combination in which only one of them does is accepted, and its fields are not written:
`priorityKept_iff`.
-/

namespace HttpGarden.Http2

open Lib

/-! ### What the constructor accepts -/

theorem checkPriority_eq_ok {e : Option Bool} {d w : Option Int} :
    checkPriority e d w = .ok () ↔ ¬ (e.isNone ≠ w.isNone ∧ w.isNone ≠ d.isNone) ∧
      (∀ w' ∈ w, 0 ≤ w' ∧ w' < 256) ∧ ∀ d' ∈ d, 0 ≤ d' ∧ d' < 2 ^ 31 := by
  unfold checkPriority
  simp only [ite_error_eq_ok, throw_eq_error, error_bind, Bool.and_eq_true, bne_iff_ne]
  refine and_congr_right fun _ => ?_
  cases w with
  | none =>
      cases d with
      | none => simp
      | some d => simp [checkStreamId_eq_ok]
  | some w =>
      rw [ite_error_eq_ok, not_not]
      cases d with
      | none => simp
      | some d => simp [checkStreamId_eq_ok]

/-- What is checked besides. -/
def HeadersInRange (streamId : Int) (streamDependency weight padLength : Option Int) : Prop :=
  (streamId ≠ 0 ∧ 0 ≤ streamId ∧ streamId < 2 ^ 31) ∧ (∀ w ∈ weight, 0 ≤ w ∧ w < 256) ∧
    (∀ d ∈ streamDependency, 0 ≤ d ∧ d < 2 ^ 31) ∧ ∀ p ∈ padLength, 0 ≤ p ∧ p < 256

/-- Both neighbouring pairs differ in being there. -/
def BothDiffer (exclusive : Option Bool) (streamDependency weight : Option Int) : Prop :=
  exclusive.isSome ≠ weight.isSome ∧ weight.isSome ≠ streamDependency.isSome

/-- One of them does, and the other one does not. -/
def OneDiffers (exclusive : Option Bool) (streamDependency weight : Option Int) : Prop :=
  (exclusive.isSome ≠ weight.isSome ∧ weight.isSome = streamDependency.isSome) ∨
    (exclusive.isSome = weight.isSome ∧ weight.isSome ≠ streamDependency.isSome)

theorem postInit_headers_eq_ok {streamId : Int} {e : Option Bool} {d w padLength : Option Int} :
    H2HeadersFrame.postInit streamId e d w padLength = .ok () ↔
      ¬ BothDiffer e d w ∧ HeadersInRange streamId d w padLength := by
  have hpad : checkPadLength padLength = .ok () ↔ ∀ p ∈ padLength, 0 ≤ p ∧ p < 256 := by
    cases padLength with
    | none => simp [checkPadLength]
    | some p => simp [checkPadLength_eq_ok]
  have hdiffer : (e.isNone ≠ w.isNone ∧ w.isNone ≠ d.isNone) ↔ BothDiffer e d w := by
    cases e <;> cases w <;> cases d <;> simp [BothDiffer]
  rw [H2HeadersFrame.postInit, check_bind_eq_ok, check_bind_eq_ok, checkStreamId_eq_ok,
    checkPriority_eq_ok, hpad, hdiffer]
  simp only [HeadersInRange, true_implies, Bool.false_eq_true, false_implies, true_and]
  tauto

/-! ### What is written and read back -/

/-- What `to_generic` returns is read back; it raises an `H2Error` if no frame can carry the
payload. -/
def RoundTrips (x : H2HeadersFrame) : Prop :=
  match x.toGeneric with
  | .ok g => H2HeadersFrame.fromH2Frame g = .ok x
  | .error e => IsH2Error e ∧ ∃ p, x.payload = .ok p ∧ 2 ^ 24 ≤ p.length

theorem new_raises (typ : Int) (flags : H2Flags) (reserved : Bool) (streamId : Int)
    (payload : Bytes) : RaisesH2Error (H2GenericFrame.new typ flags reserved streamId payload) :=
  build_raises ((checkStreamId_raises _ _ _).bind fun _ => raisesH2Error_ite (onlyRaises_ok _))

theorem roundTrips_of_complete {x : H2HeadersFrame} (hc : (TypedFrame.headers x).Complete) :
    RoundTrips x := by
  obtain ⟨p, hp, -⟩ := x.exists_payload hc
  have hgeneric : x.toGeneric = H2GenericFrame.new H2FrameType.HEADERS x.flags false x.streamId p := by
    rw [H2HeadersFrame.toGeneric, hp, ok_bind]
  by_cases hlen : p.length < 2 ^ 24
  · obtain ⟨g, hg, hlayout⟩ := TypedFrame.exists_toGeneric (.headers x) hc fun q hq => by
      have hq : x.payload = .ok q := hq
      rw [hp, Except.ok.injEq] at hq
      rwa [← hq]
    have hg : x.toGeneric = .ok g := hg
    rw [RoundTrips, hg]
    exact headers_layout.mpr hlayout
  · rw [RoundTrips, hgeneric]
    cases hnew : H2GenericFrame.new H2FrameType.HEADERS x.flags false x.streamId p with
    | ok g =>
        obtain ⟨hpost, -⟩ := build_eq_ok.mp hnew
        exact absurd (H2GenericFrame.postInit_eq_ok.mp hpost).2.2 hlen
    | error e => exact ⟨new_raises _ _ _ _ _ e hnew, p, hp, not_lt.mp hlen⟩

/-! ### All or none -/

/-- What should hold of a construction with these arguments: it is refused, or there are no priority
fields, or all of them, and none gets lost. -/
def PriorityKept (endHeaders endStream : Bool) (streamId : Int) (exclusive : Option Bool)
    (streamDependency weight : Option Int) (fieldBlockFragment : Bytes)
    (padLength : Option Int) : Prop :=
  match H2HeadersFrame.new endHeaders endStream streamId exclusive streamDependency weight
      fieldBlockFragment padLength with
  | .error e => IsH2Error e
  | .ok x => (exclusive = none ∧ streamDependency = none ∧ weight = none) ∨
      ∃ e d w, exclusive = some e ∧ streamDependency = some d ∧ weight = some w ∧
        (0 ≤ d ∧ d < 2 ^ 31) ∧ (0 ≤ w ∧ w < 256) ∧ RoundTrips x

section

variable (endHeaders endStream : Bool) (streamId : Int) (exclusive : Option Bool)
  (streamDependency weight : Option Int) (fieldBlockFragment : Bytes) (padLength : Option Int)

/-- **No priority field is lost**, unless one neighbouring pair differs and nothing else is wrong. -/
theorem priorityKept_iff :
    PriorityKept endHeaders endStream streamId exclusive streamDependency weight
        fieldBlockFragment padLength ↔
      ¬ (OneDiffers exclusive streamDependency weight ∧
        HeadersInRange streamId streamDependency weight padLength) := by
  unfold PriorityKept H2HeadersFrame.new
  by_cases hpost : H2HeadersFrame.postInit streamId exclusive streamDependency weight padLength =
      .ok ()
  · obtain ⟨hboth, hrange⟩ := postInit_headers_eq_ok.mp hpost
    rw [build_of_ok hpost, and_iff_left hrange]
    simp only
    rcases exclusive with _ | e <;> rcases streamDependency with _ | d <;> rcases weight with _ | w
    case none.none.none => simp [OneDiffers]
    case some.some.some =>
      refine iff_of_true (.inr ⟨e, d, w, rfl, rfl, rfl, ?_⟩) (by simp [OneDiffers])
      exact ⟨hrange.2.2.1 d rfl, hrange.2.1 w rfl, roundTrips_of_complete (.inl ⟨rfl, rfl, rfl⟩)⟩
    -- in what is left, both pairs differ or one of them does
    all_goals simp [OneDiffers, BothDiffer] at hboth ⊢
  · have hnot : ¬ (OneDiffers exclusive streamDependency weight ∧
        HeadersInRange streamId streamDependency weight padLength) := by
      intro h
      refine hpost (postInit_headers_eq_ok.mpr ⟨fun hboth => ?_, h.2⟩)
      rcases h.1 with hone | hone
      · exact hboth.2 hone.2
      · exact hboth.1 hone.1
    refine iff_of_true ?_ hnot
    cases hnew : build (H2HeadersFrame.postInit streamId exclusive streamDependency weight padLength)
        fun h => (⟨endHeaders, endStream, streamId, exclusive, streamDependency, weight,
          fieldBlockFragment, padLength, h⟩ : H2HeadersFrame) with
    | ok x => exact absurd (build_eq_ok.mp hnew).1 hpost
    | error e =>
        refine build_raises ?_ e hnew
        exact (checkStreamId_raises _ _ _).bind fun _ => (checkPriority_raises _ _ _).bind fun _ =>
          checkPadLength_raises _

end

/-- The weight alone is refused, the exclusive bit alone is not. -/
theorem not_priorityKept : ¬ ∀ (endHeaders endStream : Bool) (streamId : Int)
    (exclusive : Option Bool) (streamDependency weight : Option Int) (fieldBlockFragment : Bytes)
    (padLength : Option Int), PriorityKept endHeaders endStream streamId exclusive streamDependency
      weight fieldBlockFragment padLength := by
  intro h
  have hkept := h true false 1 (some true) none none [] none
  have hpost : H2HeadersFrame.postInit 1 (some true) none none none = .ok () := by decide
  rw [PriorityKept, H2HeadersFrame.new, build_of_ok hpost] at hkept
  rcases hkept with ⟨hnone, -⟩ | ⟨e, d, w, -, hd, -⟩
  · cases hnone
  · cases hd

end HttpGarden.Http2
