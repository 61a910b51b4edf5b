import HttpGarden.Http2.Framing
import HttpGarden.Http2.TypedLayout

/-!
# HttpGarden.Http2.Failures

**Which exceptions leave `specialize`.** A frame that is malformed for its type should stay
generic: `specialize` catches the `H2Error` of `from_h2frame`.

The three padded types subtract the pad length from what is left of the payload, and `bslice`
*asserts* that the length it is given is not negative. So a pad length that is too large leaves
`specialize` as an `AssertionError`; `specialize_iff` says that nothing else does.
-/

namespace HttpGarden.Http2

open Lib Lib.Reader

/-- An `H2Error`, with any message. -/
def IsH2Error (e : PyError) : Prop := ∃ text, e = .h2Error text

/-- An exception that leaves is an `H2Error`. -/
def RaisesH2Error {α : Type} (x : Except PyError α) : Prop := OnlyRaises IsH2Error x

theorem raisesH2Error_error (text : String) {α : Type} :
    RaisesH2Error (.error (.h2Error text) : Except PyError α) :=
  onlyRaises_error.mpr ⟨text, rfl⟩

/-- A test that raises an `H2Error`. -/
theorem raisesH2Error_ite {P : Prop} [Decidable P] {text : String} {α : Type}
    {x : Except PyError α} (h : RaisesH2Error x) :
    RaisesH2Error (if P then .error (.h2Error text) else x) :=
  (raisesH2Error_error text).ite h

/-! ### Checks and constructors -/

theorem checkFrameType_raises (t t' : Int) : RaisesH2Error (checkFrameType t t') :=
  raisesH2Error_ite (onlyRaises_ok _)

theorem checkStreamId_raises (id : Int) (canBeZero mustBeZero : Bool) :
    RaisesH2Error (checkStreamId id canBeZero mustBeZero) :=
  raisesH2Error_ite (onlyRaises_ok _)

theorem checkErrorCode_raises (n : Int) : RaisesH2Error (checkErrorCode n) :=
  raisesH2Error_ite (onlyRaises_ok _)

theorem checkPadLength_raises (padLength : Option Int) : RaisesH2Error (checkPadLength padLength) := by
  cases padLength with
  | none => exact onlyRaises_ok _
  | some n => exact raisesH2Error_ite (onlyRaises_ok _)

theorem checkPadding_raises (padding : Bytes) (n : Int) : RaisesH2Error (checkPadding padding n) :=
  (checkPadLength_raises _).bind fun _ => raisesH2Error_ite (onlyRaises_ok _)

theorem checkPriority_raises (exclusive : Option Bool) (streamDependency weight : Option Int) :
    RaisesH2Error (checkPriority exclusive streamDependency weight) := by
  unfold checkPriority
  rcases weight with _ | w <;> rcases streamDependency with _ | d <;>
    simp only [throw_eq_error, error_bind] <;> repeat' split
  all_goals first
    | exact raisesH2Error_error _
    | exact checkStreamId_raises _ _ _
    | exact onlyRaises_ok _

theorem build_raises {α : Type} {c : Except PyError Unit} {k : c = .ok () → α}
    (h : RaisesH2Error c) : RaisesH2Error (build c k) := h.build k

/-! ### Pieces of payloads -/

theorem bslice_of_neg {n : Int} (h : n < 0) (s : Bytes) : bslice n s = .error .assertionError := by
  rw [bslice, if_pos h]
  rfl

theorem bslice_raises {n : Int} (h0 : 0 ≤ n) (hmax : n ≤ sysMaxsize) (s : Bytes) :
    RaisesH2Error (bslice n s) := by
  rw [bslice, if_neg (by omega)]
  show RaisesH2Error (islice n.toNat s >>= _)
  rw [islice_apply (by omega), ok_bind]
  dsimp only
  split
  · exact raisesH2Error_error _
  · exact onlyRaises_ok _

theorem check_raises {α : Type} {c : Except PyError α} (h : RaisesH2Error c) (s : Bytes) :
    RaisesH2Error (check c s) := by
  cases c with
  | ok a => exact onlyRaises_ok _
  | error e => exact onlyRaises_error.mpr (onlyRaises_error.mp h)

theorem expectEnd_raises (s : Bytes) : RaisesH2Error (expectEnd s) := by
  unfold expectEnd
  rw [bind_apply, rest_apply, ok_bind]
  split
  · exact raisesH2Error_error _
  · exact onlyRaises_ok _

/-- A pad length that was read. -/
theorem padByte_range (pad : UInt8) : 0 ≤ (pad.toNat : Int) ∧ (pad.toNat : Int) ≤ sysMaxsize := by
  have hlt := pad.toNat_lt
  rw [sysMaxsize]
  omega

theorem readBody_raises {n : Int} {padLength : Option Int} (h0 : 0 ≤ n) (hmax : n ≤ sysMaxsize)
    (hpad : ∀ p ∈ padLength, 0 ≤ p ∧ p ≤ sysMaxsize) (s : Bytes) :
    RaisesH2Error (readBody n padLength s) := by
  unfold readBody
  rw [bind_apply]
  refine (bslice_raises h0 hmax s).bind fun m => ?_
  cases padLength with
  | none => exact (expectEnd_raises _).bind fun _ => onlyRaises_ok _
  | some p =>
      obtain ⟨hp0, hpmax⟩ := hpad p rfl
      refine OnlyRaises.bind (bslice_raises hp0 hpmax _) fun m' => ?_
      refine OnlyRaises.bind (check_raises (checkPadding_raises _ _) _) fun _ => ?_
      exact (expectEnd_raises _).bind fun _ => onlyRaises_ok _

/-- With padding, everything depends on what is left for the body. -/
theorem readBody_raises_iff {n : Int} (hmax : n ≤ sysMaxsize) (pad : UInt8) (s : Bytes) :
    RaisesH2Error (readBody n (some pad.toNat) s) ↔ 0 ≤ n := by
  refine ⟨fun h => ?_, fun h0 => readBody_raises h0 hmax (fun p hp => ?_) s⟩
  · by_contra hneg
    unfold readBody at h
    rw [bind_apply, bslice_of_neg (by omega), error_bind] at h
    obtain ⟨text, htext⟩ := onlyRaises_error.mp h
    cases htext
  · cases hp
    exact padByte_range pad

/-! ### The padded types -/

/-- The pad length is larger than what stands behind it and `n` bytes of other fields. -/
def OverPaddedBy (n : Nat) (f : H2GenericFrame) : Prop :=
  f.flags.padded = true ∧ ∃ pad rest, f.payload = pad :: rest ∧
    n ≤ rest.length ∧ rest.length < n + pad.toNat

theorem not_overPaddedBy {n : Nat} {f : H2GenericFrame} (h : f.flags.padded = false) :
    ¬ OverPaddedBy n f := by
  intro hover
  have htrue := hover.1
  rw [h] at htrue
  cases htrue

theorem not_overPaddedBy_of_nil {n : Nat} {f : H2GenericFrame} (h : f.payload = []) :
    ¬ OverPaddedBy n f := by
  intro hover
  obtain ⟨-, pad, rest, hcons, -⟩ := hover
  rw [h] at hcons
  cases hcons

theorem overPaddedBy_iff {n : Nat} {f : H2GenericFrame} {pad : UInt8} {rest : Bytes}
    (h : f.flags.padded = true) (hp : f.payload = pad :: rest) :
    OverPaddedBy n f ↔ n ≤ rest.length ∧ rest.length < n + pad.toNat := by
  refine ⟨fun hover => ?_, fun hover => ⟨h, pad, rest, hp, hover⟩⟩
  obtain ⟨-, pad', rest', hp', hover⟩ := hover
  rw [hp] at hp'
  cases hp'
  exact hover

/-- Whether the payload is padded, and what there is of it, decides. -/
theorem raises_iff_not_overPaddedBy {α : Type} (read : Bool → Bytes → Except PyError α) {n : Nat}
    {f : H2GenericFrame} (hunpadded : RaisesH2Error (read false f.payload))
    (hnil : RaisesH2Error (read true []))
    (hcons : ∀ pad rest, f.payload = pad :: rest → (RaisesH2Error (read true (pad :: rest)) ↔
      ¬ (n ≤ rest.length ∧ rest.length < n + pad.toNat))) :
    RaisesH2Error (read f.flags.padded f.payload) ↔ ¬ OverPaddedBy n f := by
  cases hpad : f.flags.padded with
  | false => exact iff_of_true hunpadded (not_overPaddedBy hpad)
  | true =>
      cases hp : f.payload with
      | nil => exact iff_of_true hnil (not_overPaddedBy_of_nil hp)
      | cons pad rest =>
          rw [overPaddedBy_iff hpad hp]
          exact hcons pad rest hp

theorem H2DataFrame.fromH2Frame_raises_iff {f : H2GenericFrame} (htyp : f.typ = H2FrameType.DATA) :
    RaisesH2Error (fromH2Frame f) ↔ ¬ OverPaddedBy 0 f := by
  have hlt := le_sysMaxsize f.payload_lt
  have hnew (m : (Bytes × Option Int) × List UInt8) :
      RaisesH2Error (new f.flags.endStreamOrAck f.streamId m.1.1 m.1.2) :=
    build_raises ((checkPadLength_raises _).bind fun _ => checkStreamId_raises _ _ _)
  unfold fromH2Frame
  rw [checkFrameType_eq_ok.mpr htyp, ok_bind]
  cases hpad : f.flags.padded with
  | false =>
      refine iff_of_true (OnlyRaises.bind ?_ hnew) (not_overPaddedBy hpad)
      exact (readBody_raises (by simp) (by simp; omega) (by simp) _).bind fun _ => onlyRaises_ok _
  | true =>
      cases hp : f.payload with
      | nil =>
          exact iff_of_true (raisesH2Error_error _) (not_overPaddedBy_of_nil hp)
      | cons pad rest =>
          have hlen : f.payload.length = rest.length + 1 := by rw [hp, List.length_cons]
          rw [overPaddedBy_iff hpad hp]
          have hbody : RaisesH2Error (readFields true (pad :: rest).length (pad :: rest)) ↔
              0 ≤ ((pad :: rest).length : Int) - ((pad.toNat : Int) + 1) := by
            refine Iff.trans ?_ (readBody_raises_iff (by rw [List.length_cons]; omega) pad rest)
            exact onlyRaises_bind.trans (and_iff_left fun _ _ => onlyRaises_ok _)
          refine (onlyRaises_bind.trans (and_iff_left fun m _ => hnew m)).trans (hbody.trans ?_)
          rw [List.length_cons]
          omega

/-- How many bytes of a HEADERS frame the priority fields take. -/
def priorityLen (priority : Bool) : Nat := if priority then 5 else 0

theorem H2HeadersFrame.exists_readPriority {priority : Bool} {s : Bytes}
    (h : priorityLen priority ≤ s.length) : ∃ m, readPriority priority s = .ok m := by
  cases priority with
  | false => exact ⟨_, rfl⟩
  | true =>
      have h5 : 5 ≤ s.length := h
      obtain ⟨block, s', rfl, hblock⟩ : ∃ block s', s = block ++ s' ∧ block.length = 5 :=
        ⟨s.take 5, s.drop 5, (List.take_append_drop 5 s).symm, by rw [List.length_take]; omega⟩
      have hpriority := priorityBlock_iff.mpr ⟨hblock, rfl, rfl, rfl⟩
      exact ⟨_, readPriority_eq_ok (e := some _) (d := some _) (w := some _)|>.mpr
        ⟨rfl, block, hpriority, rfl⟩⟩

/-- Once the priority fields fit, the body decides. -/
theorem H2HeadersFrame.readFragment_raises_iff {priority : Bool} {padLength : Option Int}
    {length : Int} {s : Bytes} {P : Prop} (hfit : priorityLen priority ≤ s.length)
    (hbody : ∀ s', RaisesH2Error (readBody length padLength s') ↔ P) :
    RaisesH2Error ((do
      let priorityFields ← readPriority priority
      let fieldBlockFragment ← readBody length padLength
      return (priorityFields, fieldBlockFragment, padLength) : Reader _ _ _) s) ↔ P := by
  obtain ⟨m, hm⟩ := exists_readPriority hfit
  rw [bind_apply, hm, ok_bind]
  exact (onlyRaises_bind.trans (and_iff_left fun _ _ => onlyRaises_ok _)).trans (hbody m.2)

theorem H2HeadersFrame.readFields_raises_of_unpadded (priority : Bool) {s : Bytes}
    (hmax : s.length ≤ sysMaxsize) : RaisesH2Error (readFields false priority s.length s) := by
  have hnone : readPadLength false s = .ok (none, s) := rfl
  have hguard : (priority && decide ((0 : Int) + (if priority then 5 else 0) > s.length)) =
      decide (s.length < priorityLen priority) := by
    cases priority <;> simp [priorityLen]
  rw [readFields]
  simp only [Bool.false_and, Bool.false_eq_true, if_false, hguard, decide_eq_true_eq]
  rw [bind_apply, hnone, ok_bind]
  by_cases hfit : s.length < priorityLen priority
  · rw [if_pos hfit]
    exact raisesH2Error_error _
  · rw [if_neg hfit]
    refine (readFragment_raises_iff (not_lt.mp hfit) fun s' => iff_true_intro ?_).mpr trivial
    refine readBody_raises ?_ ?_ (by simp) s'
    · cases priority <;> simp [priorityLen] at hfit ⊢
      omega
    · cases priority <;> simp <;> omega

theorem H2HeadersFrame.readFields_raises_iff (priority : Bool) (pad : UInt8) {s : Bytes}
    (hmax : (pad :: s).length ≤ sysMaxsize) :
    RaisesH2Error (readFields true priority (pad :: s).length (pad :: s)) ↔
      ¬ (priorityLen priority ≤ s.length ∧ s.length < priorityLen priority + pad.toNat) := by
  rw [List.length_cons] at hmax ⊢
  have hpad : readPadLength true (pad :: s) = .ok (some (pad.toNat : Int), s) := rfl
  have h1 : ¬ ((1 : Int) > (s.length + 1 : Nat)) := by omega
  have hguard : (priority && decide ((1 : Int) + (if priority then 5 else 0) >
      (s.length + 1 : Nat))) = decide (s.length < priorityLen priority) := by
    cases priority <;> simp [priorityLen]
    omega
  rw [readFields]
  simp only [if_true, Bool.true_and, h1, decide_false, Bool.false_eq_true, if_false, hguard,
    decide_eq_true_eq]
  rw [bind_apply, hpad, ok_bind]
  by_cases hfit : s.length < priorityLen priority
  · rw [if_pos hfit]
    exact iff_of_true (raisesH2Error_error _) fun hover => absurd hover.1 (not_le.mpr hfit)
  · rw [if_neg hfit]
    refine (readFragment_raises_iff (not_lt.mp hfit) fun s' => readBody_raises_iff ?_ pad s').trans ?_
    · cases priority <;> simp <;> omega
    · cases priority <;> simp [priorityLen] at hfit ⊢
      all_goals omega

theorem H2HeadersFrame.fromH2Frame_raises_iff {f : H2GenericFrame}
    (htyp : f.typ = H2FrameType.HEADERS) :
    RaisesH2Error (fromH2Frame f) ↔ ¬ OverPaddedBy (priorityLen f.flags.priority) f := by
  have hlt := le_sysMaxsize f.payload_lt
  unfold fromH2Frame
  rw [checkFrameType_eq_ok.mpr htyp, ok_bind]
  refine (onlyRaises_bind.trans (and_iff_left fun m _ => build_raises ?_)).trans ?_
  · exact (checkStreamId_raises _ _ _).bind fun _ => (checkPriority_raises _ _ _).bind fun _ =>
      checkPadLength_raises _
  · refine raises_iff_not_overPaddedBy
      (fun padded s => readFields padded f.flags.priority s.length s)
      (readFields_raises_of_unpadded _ hlt) (raisesH2Error_error _) fun pad rest hp => ?_
    exact readFields_raises_iff _ pad (hp ▸ hlt)

/-- Once the promised stream is read, the body decides. -/
theorem H2PushPromiseFrame.readFragment_raises_iff {padLength : Option Int} {length : Int}
    {s : Bytes} {P : Prop} (hfit : 4 ≤ s.length)
    (hbody : ∀ s', RaisesH2Error (readBody length padLength s') ↔ P) :
    RaisesH2Error ((do
      let rawPromisedStreamId ← bslice 4
      let fieldBlockFragment ← readBody length padLength
      return (rawPromisedStreamId, fieldBlockFragment, padLength) : Reader _ _ _) s) ↔ P := by
  have hid : bslice 4 s = .ok (s.take 4, s.drop 4) := by
    have hlen : (s.take 4).length = 4 := by rw [List.length_take]; omega
    rw [bslice_eq_ok, hlen]
    exact ⟨rfl, by decide, (List.take_append_drop 4 s).symm⟩
  rw [bind_apply, hid, ok_bind]
  exact (onlyRaises_bind.trans (and_iff_left fun _ _ => onlyRaises_ok _)).trans (hbody _)

theorem H2PushPromiseFrame.readFields_raises_of_unpadded {s : Bytes}
    (hmax : s.length ≤ sysMaxsize) : RaisesH2Error (readFields false s.length s) := by
  have hnone : readPadLength false s = .ok (none, s) := rfl
  rw [readFields]
  simp only [Bool.false_and, Bool.false_eq_true, if_false]
  rw [bind_apply, hnone, ok_bind]
  by_cases hfit : 4 ≤ s.length
  · refine (readFragment_raises_iff hfit fun s' => iff_true_intro ?_).mpr trivial
    exact readBody_raises (by simp; omega) (by simp; omega) (by simp) s'
  · rw [bind_apply, bslice_short (n := 4) (s := s) (by omega) (by decide)]
    exact raisesH2Error_error _

theorem H2PushPromiseFrame.readFields_raises_iff (pad : UInt8) {s : Bytes}
    (hmax : (pad :: s).length ≤ sysMaxsize) :
    RaisesH2Error (readFields true (pad :: s).length (pad :: s)) ↔
      ¬ (4 ≤ s.length ∧ s.length < 4 + pad.toNat) := by
  rw [List.length_cons] at hmax ⊢
  have hpad : readPadLength true (pad :: s) = .ok (some (pad.toNat : Int), s) := rfl
  rw [readFields]
  simp only [if_true, Bool.true_and, decide_eq_true_eq]
  by_cases hfit : 4 ≤ s.length
  · rw [if_neg (by omega), bind_apply, hpad, ok_bind]
    refine (readFragment_raises_iff hfit fun s' => readBody_raises_iff ?_ pad s').trans ?_
    · simp
      omega
    · simp
      omega
  · rw [if_pos (by omega)]
    exact iff_of_true (raisesH2Error_error _) fun hover => hfit hover.1

theorem H2PushPromiseFrame.fromH2Frame_raises_iff {f : H2GenericFrame}
    (htyp : f.typ = H2FrameType.PUSH_PROMISE) :
    RaisesH2Error (fromH2Frame f) ↔ ¬ OverPaddedBy 4 f := by
  have hlt := le_sysMaxsize f.payload_lt
  unfold fromH2Frame
  rw [checkFrameType_eq_ok.mpr htyp, ok_bind]
  refine (onlyRaises_bind.trans (and_iff_left fun m _ => build_raises ?_)).trans ?_
  · exact (checkPadLength_raises _).bind fun _ => (checkStreamId_raises _ _ _).bind fun _ =>
      checkStreamId_raises _ _ _
  · refine raises_iff_not_overPaddedBy (fun padded s => readFields padded s.length s)
      (readFields_raises_of_unpadded hlt) (raisesH2Error_error _) fun pad rest hp => ?_
    exact readFields_raises_iff pad (hp ▸ hlt)

/-! ### The other types -/

theorem H2PriorityFrame.fromH2Frame_raises (f : H2GenericFrame) : RaisesH2Error (fromH2Frame f) := by
  refine (checkFrameType_raises _ _).bind fun _ => raisesH2Error_ite (build_raises ?_)
  exact (checkStreamId_raises _ _ _).bind fun _ => checkPriority_raises _ _ _

theorem H2RstStreamFrame.fromH2Frame_raises (f : H2GenericFrame) :
    RaisesH2Error (fromH2Frame f) := by
  refine (checkFrameType_raises _ _).bind fun _ => raisesH2Error_ite (build_raises ?_)
  exact (checkStreamId_raises _ _ _).bind fun _ => checkErrorCode_raises _

theorem H2SettingsFrame.fromH2Frame_raises (f : H2GenericFrame) : RaisesH2Error (fromH2Frame f) := by
  refine (checkFrameType_raises _ _).bind fun _ => (checkStreamId_raises _ _ _).bind fun _ => ?_
  exact raisesH2Error_ite (build_raises (raisesH2Error_ite (onlyRaises_ok _)))

theorem H2PingFrame.fromH2Frame_raises (f : H2GenericFrame) : RaisesH2Error (fromH2Frame f) := by
  refine (checkFrameType_raises _ _).bind fun _ => (checkStreamId_raises _ _ _).bind fun _ => ?_
  exact build_raises (raisesH2Error_ite (onlyRaises_ok _))

theorem H2GoAwayFrame.fromH2Frame_raises (f : H2GenericFrame) : RaisesH2Error (fromH2Frame f) := by
  refine (checkFrameType_raises _ _).bind fun _ => (checkStreamId_raises _ _ _).bind fun _ => ?_
  refine raisesH2Error_ite (build_raises ?_)
  exact (checkStreamId_raises _ _ _).bind fun _ => checkErrorCode_raises _

theorem H2WindowUpdateFrame.fromH2Frame_raises (f : H2GenericFrame) :
    RaisesH2Error (fromH2Frame f) := by
  refine (checkFrameType_raises _ _).bind fun _ => raisesH2Error_ite (build_raises ?_)
  exact (checkStreamId_raises _ _ _).bind fun _ => raisesH2Error_ite (onlyRaises_ok _)

theorem H2ContinuationFrame.fromH2Frame_raises (f : H2GenericFrame) :
    RaisesH2Error (fromH2Frame f) :=
  (checkFrameType_raises _ _).bind fun _ => build_raises (checkStreamId_raises _ _ _)

/-! ### `specialize` -/

/-- The number of bytes between the pad length and the body, for the types that are padded. -/
def fixedLen (f : H2GenericFrame) : Option Nat :=
  if f.typ = H2FrameType.DATA then some 0
  else if f.typ = H2FrameType.HEADERS then some (priorityLen f.flags.priority)
  else if f.typ = H2FrameType.PUSH_PROMISE then some 4
  else none

/-- The pad length is larger than what is left of the payload for it. -/
def OverPadded (f : H2GenericFrame) : Prop := ∃ n, fixedLen f = some n ∧ OverPaddedBy n f

theorem overPadded_of_fixedLen {f : H2GenericFrame} {n : Nat} (h : fixedLen f = some n) :
    OverPadded f ↔ OverPaddedBy n f := by
  refine ⟨fun hover => ?_, fun hover => ⟨n, h, hover⟩⟩
  obtain ⟨m, hm, hover⟩ := hover
  rw [h, Option.some.injEq] at hm
  rwa [hm]

theorem not_overPadded_of_fixedLen {f : H2GenericFrame} (h : fixedLen f = none) : ¬ OverPadded f := by
  intro hover
  obtain ⟨n, hn, -⟩ := hover
  rw [h] at hn
  cases hn

theorem map_raises {α β : Type} {x : Except PyError α} {g : α → β} :
    RaisesH2Error (g <$> x) ↔ RaisesH2Error x := by
  cases x with
  | ok a => exact iff_of_true (onlyRaises_ok _) (onlyRaises_ok _)
  | error e => exact onlyRaises_error.trans onlyRaises_error.symm

/-- **The function that `specialize` picks** raises an `H2Error` or nothing, unless the frame is
padded too much. -/
theorem fromH2Frame_raises_iff {f : H2GenericFrame} {fn : H2GenericFrame → Except PyError TypedFrame}
    (h : fromH2Frame f.typ = some fn) : RaisesH2Error (fn f) ↔ ¬ OverPadded f := by
  unfold fromH2Frame at h
  split_ifs at h with hdata hheaders hpriority hrst hsettings hpush hping hgoaway hwindow hcont <;>
    cases h <;> rw [map_raises]
  · rw [overPadded_of_fixedLen (if_pos hdata)]
    exact H2DataFrame.fromH2Frame_raises_iff hdata
  · rw [overPadded_of_fixedLen ((if_neg hdata).trans (if_pos hheaders))]
    exact H2HeadersFrame.fromH2Frame_raises_iff hheaders
  · exact iff_of_true (H2PriorityFrame.fromH2Frame_raises f)
      (not_overPadded_of_fixedLen (by rw [fixedLen, hpriority]; rfl))
  · exact iff_of_true (H2RstStreamFrame.fromH2Frame_raises f)
      (not_overPadded_of_fixedLen (by rw [fixedLen, hrst]; rfl))
  · exact iff_of_true (H2SettingsFrame.fromH2Frame_raises f)
      (not_overPadded_of_fixedLen (by rw [fixedLen, hsettings]; rfl))
  · rw [overPadded_of_fixedLen (n := 4) (by rw [fixedLen, hpush]; rfl)]
    exact H2PushPromiseFrame.fromH2Frame_raises_iff hpush
  · exact iff_of_true (H2PingFrame.fromH2Frame_raises f)
      (not_overPadded_of_fixedLen (by rw [fixedLen, hping]; rfl))
  · exact iff_of_true (H2GoAwayFrame.fromH2Frame_raises f)
      (not_overPadded_of_fixedLen (by rw [fixedLen, hgoaway]; rfl))
  · exact iff_of_true (H2WindowUpdateFrame.fromH2Frame_raises f)
      (not_overPadded_of_fixedLen (by rw [fixedLen, hwindow]; rfl))
  · exact iff_of_true (H2ContinuationFrame.fromH2Frame_raises f)
      (not_overPadded_of_fixedLen (by rw [fixedLen, hcont]; rfl))

/-- The frame becomes the typed frame that it carries; if there is none, it stays as it is. -/
def Specialized (f : H2GenericFrame) : Prop :=
  match f.specialize with
  | .ok (.typed x) => x.Layout f
  | .ok (.generic g) => g = f ∧ ∀ x : TypedFrame, ¬ x.Layout f
  | .error _ => False

/-- An exception that leaves is not an `H2Error`, since those are caught. -/
theorem specialize_outcome (f : H2GenericFrame) :
    ¬ OverPadded f ∧ Specialized f ∨
      OverPadded f ∧ ∃ e, f.specialize = .error e ∧ ¬ IsH2Error e := by
  cases hfn : fromH2Frame f.typ with
  | none =>
      have hlen : fixedLen f = none := by
        unfold fromH2Frame at hfn
        unfold fixedLen
        split_ifs at hfn ⊢
        rfl
      have hspecialize : f.specialize = .ok (.generic f) := by
        rw [H2GenericFrame.specialize, hfn]
      refine .inl ⟨not_overPadded_of_fixedLen hlen, ?_⟩
      rw [Specialized, hspecialize]
      refine ⟨rfl, fun x hx => ?_⟩
      obtain ⟨fn, hsome, -⟩ := fromH2Frame_eq_ok.mpr hx
      rw [hfn] at hsome
      cases hsome
  | some fn =>
      have hraises := fromH2Frame_raises_iff hfn
      cases hf : fn f with
      | ok x =>
          rw [hf] at hraises
          have hlayout := fromH2Frame_eq_ok.mp ⟨fn, hfn, hf⟩
          refine .inl ⟨hraises.mp (onlyRaises_ok _), ?_⟩
          rw [Specialized, specialize_of_layout hlayout]
          exact hlayout
      | error e =>
          have hnone (x : TypedFrame) : ¬ x.Layout f := by
            intro hx
            obtain ⟨fn', hfn', hok⟩ := fromH2Frame_eq_ok.mpr hx
            rw [hfn, Option.some.injEq] at hfn'
            rw [← hfn', hf] at hok
            cases hok
          rw [hf, RaisesH2Error, onlyRaises_error] at hraises
          by_cases he : IsH2Error e
          · obtain ⟨text, rfl⟩ := he
            have hspecialize : f.specialize = .ok (.generic f) := by
              rw [H2GenericFrame.specialize, hfn]
              simp only [hf]
            refine .inl ⟨hraises.mp ⟨text, rfl⟩, ?_⟩
            rw [Specialized, hspecialize]
            exact ⟨rfl, hnone⟩
          · refine .inr ⟨not_not.mp (mt hraises.mpr he), e, ?_, he⟩
            rw [H2GenericFrame.specialize, hfn]
            cases e with
            | h2Error text => exact absurd ⟨text, rfl⟩ he
            | _ => simp only [hf]

theorem specialized_iff (f : H2GenericFrame) : Specialized f ↔ ¬ OverPadded f := by
  rcases specialize_outcome f with ⟨hpad, h⟩ | ⟨hpad, e, he, -⟩
  · exact iff_of_true h hpad
  · refine iff_of_false (fun h => ?_) (not_not.mpr hpad)
    rw [Specialized, he] at h
    exact h

/-- Reading a stream stops at the first frame that is padded too much. -/
theorem mapM_specialize_raises_iff (fs : List H2GenericFrame) :
    RaisesH2Error (fs.mapM H2GenericFrame.specialize) ↔ ∀ f ∈ fs, ¬ OverPadded f := by
  induction fs with
  | nil => exact iff_of_true (onlyRaises_ok _) (List.forall_mem_nil _)
  | cons f fs ih =>
      rw [List.mapM_cons, List.forall_mem_cons]
      rcases specialize_outcome f with ⟨hpad, h⟩ | ⟨hpad, e, he, hnot⟩
      · rw [and_iff_right hpad, ← ih]
        cases hf : f.specialize with
        | error e =>
            rw [Specialized, hf] at h
            exact h.elim
        | ok x =>
            rw [ok_bind]
            exact onlyRaises_bind.trans (and_iff_left fun _ _ => onlyRaises_ok _)
      · rw [he, error_bind]
        exact iff_of_false (fun h => hnot (onlyRaises_error.mp h)) fun h => h.1 hpad

theorem parseFrames_raises_iff (data : Bytes) :
    RaisesH2Error (parseFrames data) ↔ ¬ ∃ fs, Layouts fs data ∧ ∃ f ∈ fs, OverPadded f := by
  unfold parseFrames
  rcases parseGenericFrames_cases data with ⟨fs, hfs⟩ | ⟨⟨text, htext⟩, hnot⟩
  · rw [parseGenericFrames_of_layouts hfs, ok_bind, mapM_specialize_raises_iff]
    refine ⟨fun h hover => ?_, fun h f hf hpad => h ⟨fs, hfs, f, hf, hpad⟩⟩
    obtain ⟨fs', hfs', f, hf, hpad⟩ := hover
    have heq := parseGenericFrames_of_layouts hfs'
    rw [parseGenericFrames_of_layouts hfs, Except.ok.injEq] at heq
    exact h f (heq ▸ hf) hpad
  · rw [htext, error_bind]
    refine iff_of_true (raisesH2Error_error text) fun hover => ?_
    obtain ⟨fs, hfs, -⟩ := hover
    exact hnot (isFrames_of_layouts hfs)

/-- **Malformed frames stay generic**, and streams of them are read, unless a frame is padded too
much. -/
theorem specialize_iff (f : H2GenericFrame) (data : Bytes) :
    (Specialized f ↔ ¬ OverPadded f) ∧
      (RaisesH2Error (parseFrames data) ↔ ¬ ∃ fs, Layouts fs data ∧ ∃ f ∈ fs, OverPadded f) :=
  ⟨specialized_iff f, parseFrames_raises_iff data⟩

/-- A DATA frame whose payload is nothing but the pad length `1`. -/
def shortData : H2GenericFrame where
  typ := H2FrameType.DATA
  flags := { padded := true }
  streamId := 1
  payload := [1]
  post_init := rfl

theorem not_specialized :
    ¬ ((∀ f, Specialized f) ∧ ∀ data, RaisesH2Error (parseFrames data)) := by
  intro h
  have hshort : shortData.specialize = .error .assertionError := by decide
  have hspecialized := h.1 shortData
  rw [Specialized, hshort] at hspecialized
  exact hspecialized

end HttpGarden.Http2
