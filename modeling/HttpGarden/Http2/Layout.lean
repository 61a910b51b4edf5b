import HttpGarden.Http2.Types

/-!
# HttpGarden.Http2.Layout

The **payload formats** of the ten typed frames, stated without reference to the
code, and the proof that each `from_h2frame` accepts exactly the payloads of its
format (`fromH2Frame_eq_ok`).

Reading and writing are then compared with the format instead of with each other:
`TypedFrame.Layout x f` says that the generic frame `f` is one way of sending
`x`; the bits it leaves open are the ones that get lost.
-/

namespace HttpGarden.Http2

open Lib Lib.Reader

/-! ### Pieces of payloads -/

/-- A body, with the pad length in front and that many bytes behind if it is padded. -/
def Padded (padLength : Option Int) (body payload : Bytes) : Prop :=
  match padLength with
  | none => payload = body
  | some n => ∃ b padding, payload = b :: (body ++ padding) ∧ n = b.toNat ∧
      padding.length = b.toNat

/-- What is left of a padded payload after its pad length. -/
def PaddedRest (padLength : Option Int) (body s : Bytes) : Prop :=
  match padLength with
  | none => s = body
  | some p => (0 ≤ p ∧ p < 256) ∧ ∃ padding, s = body ++ padding ∧ (padding.length : Int) = p

/-- Four bytes for the exclusive bit and the stream dependency, one for the weight. -/
def PriorityBlock (exclusive : Bool) (streamDependency weight : Int) (block : Bytes) : Prop :=
  ∃ dependency b, block = dependency ++ [b] ∧ dependency.length = 4 ∧
    exclusive = topBit (ofBE dependency) ∧ streamDependency = clearTopBit (ofBE dependency) ∧
    weight = b.toNat

/-- A priority block where all of its fields are present, and nothing where none is. -/
def OptionalPriority (exclusive : Option Bool) (streamDependency weight : Option Int)
    (block : Bytes) : Prop :=
  match exclusive, streamDependency, weight with
  | some e, some d, some w => PriorityBlock e d w block
  | none, none, none => block = []
  | _, _, _ => False

/-- Two bytes for the identifier and four for the value. -/
def SettingBlock (s : Int × Int) (block : Bytes) : Prop :=
  ∃ identifier value, block = identifier ++ value ∧ identifier.length = 2 ∧ value.length = 4 ∧
    s = ((ofBE identifier : Int), (ofBE value : Int))

def SettingsBlock (settings : List (Int × Int)) (payload : Bytes) : Prop :=
  ∃ blocks, List.Forall₂ SettingBlock settings blocks ∧ payload = blocks.flatten

/-! ### Reading the pieces -/

theorem checkFrameType_eq_ok {t t' : Int} : checkFrameType t t' = .ok () ↔ t = t' := by
  rw [checkFrameType, ite_error_eq_ok]
  simp

theorem checkPadLength_eq_ok {n : Int} : checkPadLength (some n) = .ok () ↔ 0 ≤ n ∧ n < 256 := by
  rw [checkPadLength, ite_error_eq_ok]
  simp

theorem checkPadding_eq_ok {padding : Bytes} {n : Int} :
    checkPadding padding n = .ok () ↔ (0 ≤ n ∧ n < 256) ∧ (padding.length : Int) = n := by
  rw [checkPadding, check_bind_eq_ok, checkPadLength_eq_ok, throw_eq_error, ite_error_eq_ok]
  simp

theorem readPadLength_eq_ok {padded : Bool} {s s' : Bytes} {padLength : Option Int} :
    readPadLength padded s = .ok (padLength, s') ↔
      (padded = false ∧ padLength = none ∧ s = s') ∨
        (padded = true ∧ ∃ b : UInt8, s = b :: s' ∧ padLength = some (b.toNat : Int)) := by
  cases padded with
  | false => simp [readPadLength, eq_comm]
  | true =>
      cases s with
      | nil => simp [readPadLength]
      | cons b s =>
          have happ : readPadLength true (b :: s) = .ok (some (b.toNat : Int), s) := rfl
          rw [happ]
          constructor
          · intro h
            cases h
            exact .inr ⟨rfl, b, rfl, rfl⟩
          · rintro (⟨h, -⟩ | ⟨-, c, h, rfl⟩)
            · cases h
            · cases h
              rfl

theorem expectEnd_eq_ok {s s' : Bytes} : expectEnd s = .ok ((), s') ↔ s = [] ∧ s' = [] := by
  cases s with
  | nil => simp [expectEnd, eq_comm]
  | cons b s => simp [expectEnd]

/-- What `readBody` returns, given an input that has at most `sysMaxsize` bytes. -/
theorem readBody_eq_ok {n : Int} {padLength : Option Int} {s s' body : Bytes}
    (hs : s.length ≤ sysMaxsize) :
    readBody n padLength s = .ok (body, s') ↔
      s' = [] ∧ n = body.length ∧ PaddedRest padLength body s := by
  rw [readBody]
  unfold PaddedRest
  cases padLength with
  | none =>
      simp only [bind_ok, pure_apply, Except.ok.injEq, Prod.mk.injEq]
      constructor
      · rintro ⟨b, s₁, hb, ⟨⟩, s₂, hend, rfl, rfl⟩
        obtain ⟨rfl, rfl⟩ := expectEnd_eq_ok.mp hend
        obtain ⟨hn, -, h⟩ := bslice_eq_ok.mp hb
        exact ⟨rfl, hn, by rw [h, List.append_nil]⟩
      · rintro ⟨rfl, hn, rfl⟩
        have hb := bslice_eq_ok.mpr ⟨hn, hs, (List.append_nil s).symm⟩
        exact ⟨s, [], hb, (), [], expectEnd_eq_ok.mpr ⟨rfl, rfl⟩, rfl, rfl⟩
  | some p =>
      simp only [bind_ok, pure_apply, Except.ok.injEq, Prod.mk.injEq, check_eq_ok]
      constructor
      · rintro ⟨b, s₁, hb, padding, s₂, hp, ⟨⟩, s₃, ⟨hc, rfl⟩, ⟨⟩, s₄, hend, rfl, rfl⟩
        obtain ⟨rfl, rfl⟩ := expectEnd_eq_ok.mp hend
        obtain ⟨hn, -, h⟩ := bslice_eq_ok.mp hb
        obtain ⟨-, -, rfl⟩ := bslice_eq_ok.mp hp
        obtain ⟨hrange, hlen⟩ := checkPadding_eq_ok.mp hc
        exact ⟨rfl, hn, hrange, padding, by rw [h, List.append_nil], hlen⟩
      · rintro ⟨rfl, hn, hrange, padding, rfl, hlen⟩
        rw [List.length_append] at hs
        refine ⟨body, padding, bslice_eq_ok.mpr ⟨hn, by omega, rfl⟩, padding, [], ?_, (), [],
          ⟨checkPadding_eq_ok.mpr ⟨hrange, hlen⟩, rfl⟩, (), [],
          expectEnd_eq_ok.mpr ⟨rfl, rfl⟩, rfl, rfl⟩
        exact bslice_eq_ok.mpr ⟨hlen.symm, by omega, (List.append_nil padding).symm⟩

theorem length_of_readPadLength {padded : Bool} {s s' : Bytes} {padLength : Option Int}
    (h : readPadLength padded s = .ok (padLength, s')) :
    (s.length : Int) = s'.length + if padded then 1 else 0 := by
  rcases readPadLength_eq_ok.mp h with ⟨rfl, -, rfl⟩ | ⟨rfl, b, rfl, -⟩
  · simp
  · simp

theorem length_of_paddedRest {padLength : Option Int} {s body : Bytes}
    (h : PaddedRest padLength body s) : (s.length : Int) = body.length + padLength.getD 0 := by
  cases padLength with
  | none => rw [show s = body from h, Option.getD_none, Int.add_zero]
  | some p =>
      obtain ⟨-, padding, rfl, hp⟩ := h
      rw [List.length_append, Option.getD_some, Nat.cast_add, hp]

theorem paddedRest_append {padLength : Option Int} {s body block : Bytes} :
    PaddedRest padLength (block ++ body) (block ++ s) ↔ PaddedRest padLength body s := by
  cases padLength with
  | none => exact List.append_right_inj block
  | some p => simp only [PaddedRest, List.append_assoc, List.append_right_inj]

/-- A rest that starts with its body starts with every front part of it. -/
theorem paddedRest_split {padLength : Option Int} {s body block : Bytes}
    (h : PaddedRest padLength (block ++ body) s) : ∃ s', s = block ++ s' := by
  cases padLength with
  | none => exact ⟨body, h⟩
  | some p =>
      obtain ⟨-, padding, rfl, -⟩ := h
      exact ⟨body ++ padding, List.append_assoc _ _ _⟩

/-- A padded payload is one whose pad length can be read and whose rest fits it. -/
theorem padded_iff {padded : Bool} {padLength : Option Int} {body payload : Bytes} :
    padded = padLength.isSome ∧ Padded padLength body payload ↔
      ∃ s, readPadLength padded payload = .ok (padLength, s) ∧ PaddedRest padLength body s := by
  simp only [readPadLength_eq_ok]
  constructor
  · rintro ⟨rfl, h⟩
    cases padLength with
    | none => exact ⟨payload, .inl ⟨rfl, rfl, rfl⟩, h⟩
    | some n =>
        obtain ⟨b, padding, rfl, rfl, hlen⟩ := h
        have hb := b.toNat_lt
        exact ⟨_, .inr ⟨rfl, b, rfl, rfl⟩, by omega, padding, rfl, by omega⟩
  · rintro ⟨s, ⟨rfl, rfl, rfl⟩ | ⟨rfl, b, rfl, rfl⟩, h⟩
    · exact ⟨rfl, h⟩
    · obtain ⟨-, padding, rfl, hlen⟩ := h
      exact ⟨rfl, b, padding, rfl, rfl, by omega⟩

/-! ### Frame by frame -/

theorem H2DataFrame.readFields_eq_ok {padded : Bool} {payload s' data : Bytes}
    {padLength : Option Int} (hs : payload.length ≤ sysMaxsize) :
    readFields padded payload.length payload = .ok ((data, padLength), s') ↔
      s' = [] ∧ padded = padLength.isSome ∧ Padded padLength data payload := by
  rw [padded_iff, readFields]
  simp only [bind_ok, pure_apply, Except.ok.injEq, Prod.mk.injEq]
  constructor
  · rintro ⟨p, s, hp, d, s₁, hbody, ⟨rfl, rfl⟩, rfl⟩
    have hlen := length_of_readPadLength hp
    obtain ⟨hnil, -, hrest⟩ := (readBody_eq_ok (by omega)).mp hbody
    exact ⟨hnil, s, hp, hrest⟩
  · rintro ⟨rfl, s, hp, hrest⟩
    have hlen := length_of_readPadLength hp
    have hlen' := length_of_paddedRest hrest
    refine ⟨padLength, s, hp, data, [], (readBody_eq_ok (by omega)).mpr ⟨rfl, ?_, hrest⟩,
      ⟨rfl, rfl⟩, rfl⟩
    rcases readPadLength_eq_ok.mp hp with ⟨rfl, rfl, -⟩ | ⟨rfl, b, -, rfl⟩
    · simp only [Option.elim, Option.getD_none, Bool.false_eq_true, if_false] at hlen hlen' ⊢
      omega
    · simp only [Option.elim, Option.getD_some, if_true] at hlen hlen' ⊢
      omega

theorem H2DataFrame.fromH2Frame_eq_ok {f : H2GenericFrame} {x : H2DataFrame} :
    fromH2Frame f = .ok x ↔ f.typ = H2FrameType.DATA ∧ f.streamId = x.streamId ∧
      f.flags.endStreamOrAck = x.endStream ∧ f.flags.padded = x.padLength.isSome ∧
      Padded x.padLength x.data f.payload := by
  rw [fromH2Frame, check_bind_eq_ok, checkFrameType_eq_ok]
  dsimp only
  rw [throw_eq_error, error_bind, ite_error_eq_ok]
  simp only [bind_eq_ok, Prod.exists, readFields_eq_ok (le_sysMaxsize f.payload_lt), new,
    build_eq_ok]
  constructor
  · rintro ⟨htyp, -, data, padLength, _, ⟨rfl, hpad, hlay⟩, hpost, rfl⟩
    exact ⟨htyp, rfl, rfl, hpad, hlay⟩
  · obtain ⟨endStream, streamId, data, padLength, hpost⟩ := x
    rintro ⟨htyp, rfl, rfl, hpad, hlay⟩
    refine ⟨htyp, ?_, data, padLength, [], ⟨rfl, hpad, hlay⟩, hpost, rfl⟩
    -- a padded payload has at least the byte with its pad length
    cases padLength with
    | none => simp [hpad]
    | some n =>
        obtain ⟨b, padding, hp, -⟩ := hlay
        simp [hp]

theorem PriorityBlock.length_eq {e : Bool} {d w : Int} {block : Bytes}
    (h : PriorityBlock e d w block) : block.length = 5 := by
  obtain ⟨dependency, b, rfl, hlen, -⟩ := h
  simp [hlen]

theorem OptionalPriority.length_eq {e : Option Bool} {d w : Option Int} {block : Bytes}
    (h : OptionalPriority e d w block) : block.length = if e.isSome then 5 else 0 := by
  rcases e with _ | e <;> rcases d with _ | d <;> rcases w with _ | w
  · rw [show block = [] from h]
    rfl
  all_goals first | exact h.elim | skip
  exact PriorityBlock.length_eq h

theorem H2HeadersFrame.readPriority_eq_ok {priority : Bool} {e : Option Bool} {d w : Option Int}
    {s s' : Bytes} :
    readPriority priority s = .ok ((d, e, w), s') ↔
      priority = e.isSome ∧ ∃ block, OptionalPriority e d w block ∧ s = block ++ s' := by
  cases priority with
  | false =>
      simp only [readPriority, Bool.false_eq_true, if_false, pure_apply, Except.ok.injEq,
        Prod.mk.injEq]
      constructor
      · intro ⟨⟨rfl, rfl, rfl⟩, rfl⟩
        exact ⟨rfl, [], rfl, rfl⟩
      · rintro ⟨he, block, h, rfl⟩
        cases e with
        | some e => cases he
        | none =>
            rcases d with _ | d <;> rcases w with _ | w
            · rw [show block = [] from h]
              exact ⟨⟨rfl, rfl, rfl⟩, rfl⟩
            all_goals exact h.elim
  | true =>
      simp only [readPriority, if_true, bind_ok, pure_apply, Except.ok.injEq, Prod.mk.injEq,
        bslice_eq_ok, next_eq_ok]
      constructor
      · rintro ⟨dependency, s₁, ⟨hlen, -, rfl⟩, b, s₂, rfl, ⟨rfl, rfl, rfl⟩, rfl⟩
        exact ⟨rfl, dependency ++ [b], ⟨dependency, b, rfl, by omega, rfl, rfl, rfl⟩, by simp⟩
      · rintro ⟨he, block, h, rfl⟩
        cases e with
        | none => cases he
        | some e =>
            rcases d with _ | d <;> rcases w with _ | w
            all_goals first | exact h.elim | skip
            obtain ⟨dependency, b, rfl, hlen, rfl, rfl, rfl⟩ := h
            exact ⟨dependency, b :: s', ⟨by omega, le_sysMaxsize (by omega), by simp⟩, b, s',
              rfl, ⟨rfl, rfl, rfl⟩, rfl⟩

theorem H2HeadersFrame.readFields_eq_ok {padded priority : Bool} {payload s' fragment : Bytes}
    {e : Option Bool} {d w padLength : Option Int} (hs : payload.length ≤ sysMaxsize) :
    readFields padded priority payload.length payload =
        .ok (((d, e, w), fragment, padLength), s') ↔
      s' = [] ∧ padded = padLength.isSome ∧ priority = e.isSome ∧
        ∃ block, OptionalPriority e d w block ∧ Padded padLength (block ++ fragment) payload := by
  rw [readFields]
  dsimp only
  simp only [bind_ok, ite_throw_ok, pure_apply, Except.ok.injEq, Prod.mk.injEq, Prod.exists,
    readPriority_eq_ok]
  constructor
  · rintro ⟨-, p, s, hp, -, d', e', w', s₁, ⟨hpri, block, hblock, rfl⟩, body, s₂, hbody,
      ⟨⟨rfl, rfl, rfl⟩, rfl, rfl⟩, rfl⟩
    have hlen := length_of_readPadLength hp
    rw [List.length_append] at hlen
    obtain ⟨hnil, -, hrest⟩ := (readBody_eq_ok (by omega)).mp hbody
    obtain ⟨hpad, hlay⟩ := padded_iff.mpr ⟨_, hp, paddedRest_append.mpr hrest⟩
    exact ⟨hnil, hpad, hpri, block, hblock, hlay⟩
  · rintro ⟨rfl, hpad, hpri, block, hblock, hlay⟩
    obtain ⟨s, hp, hrest⟩ := padded_iff.mp ⟨hpad, hlay⟩
    obtain ⟨s, rfl⟩ := paddedRest_split hrest
    have hlen := length_of_readPadLength hp
    have hlen' := length_of_paddedRest (paddedRest_append.mp hrest)
    have hblen := hblock.length_eq
    rw [List.length_append] at hlen
    have h5 : (block.length : Int) = if priority then 5 else 0 := by
      rw [hblen, hpri]
      split <;> rfl
    refine ⟨?_, padLength, block ++ s, hp, ?_, d, e, w, s, ⟨hpri, block, hblock, rfl⟩, fragment,
      [], (readBody_eq_ok (by omega)).mpr ⟨rfl, ?_, paddedRest_append.mp hrest⟩,
      ⟨⟨rfl, rfl, rfl⟩, rfl, rfl⟩, rfl⟩
    · simp only [Bool.and_eq_true, decide_eq_true_eq, not_and]
      intro _
      omega
    · simp only [Bool.and_eq_true, decide_eq_true_eq, not_and]
      intro _
      omega
    · omega

theorem H2HeadersFrame.fromH2Frame_eq_ok {f : H2GenericFrame} {x : H2HeadersFrame} :
    fromH2Frame f = .ok x ↔ f.typ = H2FrameType.HEADERS ∧ f.streamId = x.streamId ∧
      f.flags.endHeaders = x.endHeaders ∧ f.flags.endStreamOrAck = x.endStream ∧
      f.flags.padded = x.padLength.isSome ∧ f.flags.priority = x.exclusive.isSome ∧
      ∃ block, OptionalPriority x.exclusive x.streamDependency x.weight block ∧
        Padded x.padLength (block ++ x.fieldBlockFragment) f.payload := by
  rw [fromH2Frame, check_bind_eq_ok, checkFrameType_eq_ok]
  dsimp only
  simp only [bind_eq_ok, Prod.exists, readFields_eq_ok (le_sysMaxsize f.payload_lt), new,
    build_eq_ok]
  constructor
  · rintro ⟨htyp, d, e, w, fragment, padLength, _, ⟨rfl, hpad, hpri, hlay⟩, hpost, rfl⟩
    exact ⟨htyp, rfl, rfl, rfl, hpad, hpri, hlay⟩
  · obtain ⟨endHeaders, endStream, streamId, e, d, w, fragment, padLength, hpost⟩ := x
    rintro ⟨htyp, rfl, rfl, rfl, hpad, hpri, hlay⟩
    exact ⟨htyp, d, e, w, fragment, padLength, [], ⟨rfl, hpad, hpri, hlay⟩, hpost, rfl⟩

theorem H2PushPromiseFrame.readFields_eq_ok {padded : Bool} {payload s' id fragment : Bytes}
    {padLength : Option Int} (hs : payload.length ≤ sysMaxsize) :
    readFields padded payload.length payload = .ok ((id, fragment, padLength), s') ↔
      s' = [] ∧ padded = padLength.isSome ∧ id.length = 4 ∧
        Padded padLength (id ++ fragment) payload := by
  rw [readFields]
  dsimp only
  simp only [bind_ok, ite_throw_ok, pure_apply, Except.ok.injEq, Prod.mk.injEq, bslice_eq_ok]
  constructor
  · rintro ⟨-, p, s, hp, id', s₁, ⟨hid, -, rfl⟩, body, s₂, hbody, ⟨rfl, rfl, rfl⟩, rfl⟩
    have hlen := length_of_readPadLength hp
    rw [List.length_append] at hlen
    obtain ⟨hnil, -, hrest⟩ := (readBody_eq_ok (by omega)).mp hbody
    obtain ⟨hpad, hlay⟩ := padded_iff.mpr ⟨_, hp, paddedRest_append.mpr hrest⟩
    exact ⟨hnil, hpad, by omega, hlay⟩
  · rintro ⟨rfl, hpad, hid, hlay⟩
    obtain ⟨s, hp, hrest⟩ := padded_iff.mp ⟨hpad, hlay⟩
    obtain ⟨s, rfl⟩ := paddedRest_split hrest
    have hlen := length_of_readPadLength hp
    have hlen' := length_of_paddedRest (paddedRest_append.mp hrest)
    rw [List.length_append] at hlen
    refine ⟨?_, padLength, id ++ s, hp, id, s, ⟨by omega, le_sysMaxsize (by omega), rfl⟩, fragment,
      [], (readBody_eq_ok (by omega)).mpr ⟨rfl, ?_, paddedRest_append.mp hrest⟩, ⟨rfl, rfl, rfl⟩,
      rfl⟩
    · simp only [Bool.and_eq_true, decide_eq_true_eq, not_and]
      intro hpadded
      rw [if_pos hpadded] at hlen ⊢
      omega
    · cases padded
      · simp only [Bool.false_eq_true, if_false] at hlen ⊢
        omega
      · simp only [if_true] at hlen ⊢
        omega

theorem H2PushPromiseFrame.fromH2Frame_eq_ok {f : H2GenericFrame} {x : H2PushPromiseFrame} :
    fromH2Frame f = .ok x ↔ f.typ = H2FrameType.PUSH_PROMISE ∧ f.streamId = x.streamId ∧
      f.flags.endHeaders = x.endHeaders ∧ f.flags.padded = x.padLength.isSome ∧
      ∃ id : Bytes, id.length = 4 ∧ x.promisedStreamId = clearTopBit (ofBE id) ∧
        Padded x.padLength (id ++ x.fieldBlockFragment) f.payload := by
  rw [fromH2Frame, check_bind_eq_ok, checkFrameType_eq_ok]
  dsimp only
  simp only [bind_eq_ok, Prod.exists, readFields_eq_ok (le_sysMaxsize f.payload_lt), new,
    build_eq_ok]
  constructor
  · rintro ⟨htyp, id, fragment, padLength, _, ⟨rfl, hpad, hid, hlay⟩, hpost, rfl⟩
    exact ⟨htyp, rfl, rfl, hpad, id, hid, rfl, hlay⟩
  · obtain ⟨endHeaders, streamId, promised, fragment, padLength, hpost⟩ := x
    rintro ⟨htyp, rfl, rfl, hpad, id, hid, rfl, hlay⟩
    exact ⟨htyp, id, fragment, padLength, [], ⟨rfl, hpad, hid, hlay⟩, hpost, rfl⟩

theorem topBit_ofBE (a b c d : UInt8) : topBit (ofBE [a, b, c, d]) = (a.toNat >>> 7 != 0) := by
  have ha := a.toNat_lt
  have hb := b.toNat_lt
  have hc := c.toNat_lt
  have hd := d.toNat_lt
  have heq : ofBE [a, b, c, d] >>> 31 = a.toNat >>> 7 := by
    rw [Nat.shiftRight_eq_div_pow, Nat.shiftRight_eq_div_pow]
    simp only [ofBE, List.foldl_cons, List.foldl_nil]
    omega
  rw [topBit, heq]

theorem priorityBlock_iff {e : Bool} {d w : Int} {payload : Bytes} :
    PriorityBlock e d w payload ↔ payload.length = 5 ∧
      ((payload.getD 0 0).toNat >>> 7 != 0) = e ∧ (clearTopBit (ofBE (payload.take 4)) : Int) = d ∧
      ((payload.getD 4 0).toNat : Int) = w := by
  constructor
  · intro h
    refine ⟨h.length_eq, ?_⟩
    obtain ⟨dependency, b, rfl, hdep, rfl, rfl, rfl⟩ := h
    match dependency, hdep with
    | [p, q, r, t], _ => exact ⟨(topBit_ofBE p q r t).symm, rfl, rfl⟩
  · intro ⟨hlen, rfl, rfl, rfl⟩
    match payload, hlen with
    | [p, q, r, t, b], _ =>
        exact ⟨[p, q, r, t], b, rfl, rfl, (topBit_ofBE p q r t).symm, rfl, rfl⟩

theorem H2PriorityFrame.fromH2Frame_eq_ok {f : H2GenericFrame} {x : H2PriorityFrame} :
    fromH2Frame f = .ok x ↔ f.typ = H2FrameType.PRIORITY ∧ f.streamId = x.streamId ∧
      PriorityBlock x.exclusive x.streamDependency x.weight f.payload := by
  rw [fromH2Frame, check_bind_eq_ok, checkFrameType_eq_ok, priorityBlock_iff]
  dsimp only
  rw [throw_eq_error, error_bind, ite_error_eq_ok, new, build_eq_ok, not_not]
  constructor
  · rintro ⟨htyp, hlen, hpost, rfl⟩
    exact ⟨htyp, rfl, hlen, rfl, rfl, rfl⟩
  · obtain ⟨streamId, e, d, w, hpost⟩ := x
    rintro ⟨htyp, rfl, hlen, rfl, rfl, rfl⟩
    exact ⟨htyp, hlen, hpost, rfl⟩

theorem H2RstStreamFrame.fromH2Frame_eq_ok {f : H2GenericFrame} {x : H2RstStreamFrame} :
    fromH2Frame f = .ok x ↔ f.typ = H2FrameType.RST_STREAM ∧ f.streamId = x.streamId ∧
      f.payload.length = 4 ∧ x.errorCode = ofBE f.payload := by
  rw [fromH2Frame, check_bind_eq_ok, checkFrameType_eq_ok]
  dsimp only
  rw [throw_eq_error, error_bind, ite_error_eq_ok, new, build_eq_ok, not_not]
  constructor
  · rintro ⟨htyp, hlen, hpost, rfl⟩
    exact ⟨htyp, rfl, hlen, rfl⟩
  · obtain ⟨streamId, errorCode, hpost⟩ := x
    rintro ⟨htyp, rfl, hlen, rfl⟩
    exact ⟨htyp, hlen, hpost, rfl⟩

theorem H2SettingsFrame.readSettings_append {identifier value : Bytes} (s : Bytes)
    (hi : identifier.length = 2) (hv : value.length = 4) :
    readSettings (identifier ++ value ++ s) =
      ((ofBE identifier : Int), (ofBE value : Int)) :: readSettings s := by
  have hlen : (identifier ++ value ++ s).length / 6 = s.length / 6 + 1 := by
    simp only [List.length_append]
    omega
  have hblock : (identifier ++ value).length = 6 := by
    rw [List.length_append]
    omega
  rw [readSettings, hlen, List.range'_succ, List.map_cons, readSettings]
  congr 1
  · have h0 : ((identifier ++ value ++ s).drop 0).take 2 = identifier := by
      rw [List.drop_zero, List.append_assoc, ← hi, List.take_left]
    have h2 : ((identifier ++ value ++ s).drop (0 + 2)).take 4 = value := by
      rw [Nat.zero_add, List.append_assoc, ← hi, List.drop_left, ← hv, List.take_left]
    rw [h0, h2]
  · rw [Nat.add_comm, ← List.map_add_range', List.map_map]
    refine List.map_congr_left fun i _ => ?_
    have hdrop : ∀ j, (identifier ++ value ++ s).drop (6 + j) = s.drop j := by
      intro j
      rw [← hblock, ← List.drop_drop, List.drop_left]
    simp only [Function.comp_apply, Nat.add_assoc, hdrop]

theorem H2SettingsFrame.readSettings_eq {settings : List (Int × Int)} {payload : Bytes} :
    payload.length % 6 = 0 ∧ readSettings payload = settings ↔ SettingsBlock settings payload := by
  constructor
  · intro ⟨hmod, rfl⟩
    induction hn : payload.length using Nat.strong_induction_on generalizing payload with
    | _ n ih =>
        by_cases hnil : payload = []
        · subst hnil
          exact ⟨[], .nil, rfl⟩
        · have hpos := List.length_pos_iff.mpr hnil
          obtain ⟨i, v, s, rfl, hi, hv⟩ : ∃ i v s, payload = i ++ v ++ s ∧ i.length = 2 ∧
              v.length = 4 := by
            refine ⟨payload.take 2, (payload.drop 2).take 4, payload.drop 6, ?_, ?_, ?_⟩
            · rw [List.append_assoc, show payload.drop 6 = (payload.drop 2).drop 4 by
                rw [List.drop_drop], List.take_append_drop, List.take_append_drop]
            · rw [List.length_take]
              omega
            · rw [List.length_take, List.length_drop]
              omega
          simp only [List.length_append] at hn hmod
          obtain ⟨blocks, hblocks, hs⟩ := ih s.length (by omega) (by omega : s.length % 6 = 0) rfl
          refine ⟨(i ++ v) :: blocks, ?_, by rw [List.flatten_cons, ← hs]⟩
          rw [readSettings_append s hi hv]
          exact .cons ⟨i, v, rfl, hi, hv, rfl⟩ hblocks
  · rintro ⟨blocks, hblocks, rfl⟩
    induction hblocks with
    | nil => exact ⟨rfl, rfl⟩
    | cons hb _ ih =>
        obtain ⟨i, v, rfl, hi, hv, rfl⟩ := hb
        rw [List.flatten_cons, readSettings_append _ hi hv, ih.2]
        refine ⟨?_, rfl⟩
        have := ih.1
        simp only [List.length_append] at this ⊢
        omega

theorem H2SettingsFrame.fromH2Frame_eq_ok {f : H2GenericFrame} {x : H2SettingsFrame} :
    fromH2Frame f = .ok x ↔ f.typ = H2FrameType.SETTINGS ∧ f.streamId = 0 ∧
      f.flags.endStreamOrAck = x.ack ∧ SettingsBlock x.settings f.payload := by
  rw [fromH2Frame, check_bind_eq_ok, checkFrameType_eq_ok, check_bind_eq_ok, checkStreamId_eq_ok]
  dsimp only
  rw [throw_eq_error, error_bind, ite_error_eq_ok, new, build_eq_ok, not_not,
    ← H2SettingsFrame.readSettings_eq]
  constructor
  · rintro ⟨htyp, hid, hmod, hpost, rfl⟩
    exact ⟨htyp, hid.2.1 rfl, rfl, hmod, rfl⟩
  · obtain ⟨ack, settings, hpost⟩ := x
    rintro ⟨htyp, hid, rfl, hmod, rfl⟩
    exact ⟨htyp, by simp [hid], hmod, hpost, rfl⟩

theorem H2PingFrame.fromH2Frame_eq_ok {f : H2GenericFrame} {x : H2PingFrame} :
    fromH2Frame f = .ok x ↔ f.typ = H2FrameType.PING ∧ f.streamId = 0 ∧
      f.flags.endStreamOrAck = x.ack ∧ f.payload = x.opaqueData := by
  rw [fromH2Frame, check_bind_eq_ok, checkFrameType_eq_ok, check_bind_eq_ok, checkStreamId_eq_ok,
    new, build_eq_ok]
  constructor
  · rintro ⟨htyp, hid, hpost, rfl⟩
    exact ⟨htyp, hid.2.1 rfl, rfl, rfl⟩
  · obtain ⟨ack, opaqueData, hpost⟩ := x
    rintro ⟨htyp, hid, rfl, rfl⟩
    exact ⟨htyp, by simp [hid], hpost, rfl⟩

theorem H2GoAwayFrame.fromH2Frame_eq_ok {f : H2GenericFrame} {x : H2GoAwayFrame} :
    fromH2Frame f = .ok x ↔ f.typ = H2FrameType.GOAWAY ∧ f.streamId = 0 ∧
      ∃ id code : Bytes, f.payload = id ++ (code ++ x.additionalDebugData) ∧ id.length = 4 ∧
        code.length = 4 ∧ x.lastStreamId = clearTopBit (ofBE id) ∧ x.errorCode = ofBE code := by
  rw [fromH2Frame, check_bind_eq_ok, checkFrameType_eq_ok, check_bind_eq_ok, checkStreamId_eq_ok]
  dsimp only
  rw [throw_eq_error, error_bind, ite_error_eq_ok, new, build_eq_ok]
  constructor
  · rintro ⟨htyp, hid, hlen, hpost, rfl⟩
    refine ⟨htyp, hid.2.1 rfl, f.payload.take 4, (f.payload.drop 4).take 4, ?_, ?_, ?_, rfl, rfl⟩
    · rw [show f.payload.drop 8 = (f.payload.drop 4).drop 4 by rw [List.drop_drop],
        List.take_append_drop, List.take_append_drop]
    · rw [List.length_take]
      omega
    · rw [List.length_take, List.length_drop]
      omega
  · obtain ⟨lastStreamId, errorCode, debug, hpost⟩ := x
    rintro ⟨htyp, hid, id, code, hp, hidl, hcode, rfl, rfl⟩
    have h4 : f.payload.drop 4 = code ++ debug := by rw [hp, ← hidl, List.drop_left]
    have h8 : f.payload.drop 8 = debug := by
      rw [show f.payload.drop 8 = (f.payload.drop 4).drop 4 by rw [List.drop_drop], h4, ← hcode,
        List.drop_left]
    have hlen : 8 ≤ f.payload.length := by
      rw [hp, List.length_append, List.length_append]
      omega
    obtain rfl : f.payload.take 4 = id := by rw [hp, ← hidl, List.take_left]
    obtain rfl : (f.payload.drop 4).take 4 = code := by rw [h4, ← hcode, List.take_left]
    obtain rfl := h8
    exact ⟨htyp, by simp [hid], by omega, hpost, rfl⟩

theorem H2WindowUpdateFrame.fromH2Frame_eq_ok {f : H2GenericFrame} {x : H2WindowUpdateFrame} :
    fromH2Frame f = .ok x ↔ f.typ = H2FrameType.WINDOW_UPDATE ∧ f.streamId = x.streamId ∧
      f.payload.length = 4 ∧ x.windowSizeIncrement = clearTopBit (ofBE f.payload) := by
  rw [fromH2Frame, check_bind_eq_ok, checkFrameType_eq_ok]
  dsimp only
  rw [throw_eq_error, error_bind, ite_error_eq_ok, new, build_eq_ok, not_not]
  constructor
  · rintro ⟨htyp, hlen, hpost, rfl⟩
    exact ⟨htyp, rfl, hlen, rfl⟩
  · obtain ⟨streamId, increment, hpost⟩ := x
    rintro ⟨htyp, rfl, hlen, rfl⟩
    exact ⟨htyp, hlen, hpost, rfl⟩

theorem H2ContinuationFrame.fromH2Frame_eq_ok {f : H2GenericFrame} {x : H2ContinuationFrame} :
    fromH2Frame f = .ok x ↔ f.typ = H2FrameType.CONTINUATION ∧ f.streamId = x.streamId ∧
      f.flags.endHeaders = x.endHeaders ∧ f.payload = x.fieldBlockFragment := by
  rw [fromH2Frame, check_bind_eq_ok, checkFrameType_eq_ok, new, build_eq_ok]
  constructor
  · rintro ⟨htyp, hpost, rfl⟩
    exact ⟨htyp, rfl, rfl, rfl⟩
  · obtain ⟨endHeaders, streamId, fragment, hpost⟩ := x
    rintro ⟨htyp, rfl, rfl, rfl⟩
    exact ⟨htyp, hpost, rfl⟩

end HttpGarden.Http2
