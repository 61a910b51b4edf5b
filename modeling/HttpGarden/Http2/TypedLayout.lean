import HttpGarden.Http2.Layout

/-!
# HttpGarden.Http2.TypedLayout

One **format for all typed frames**: `TypedFrame.Layout x f` relates a typed frame
to the generic frames that carry it. The function that `specialize` picks for a
frame returns `x` exactly when this relation holds (`fromH2Frame_eq_ok`), and
`to_generic` produces a frame that satisfies it (`exists_toGeneric`).
-/

namespace HttpGarden.Http2

open Lib Lib.Reader

/-! ### Flags by frame type -/

/-- The flags that are defined for a frame type. -/
def definedFlags (typ : Int) : H2Flags :=
  if typ = H2FrameType.DATA then { endStreamOrAck := true, padded := true }
  else if typ = H2FrameType.HEADERS then
    { endStreamOrAck := true, endHeaders := true, padded := true, priority := true }
  else if typ = H2FrameType.SETTINGS then { endStreamOrAck := true }
  else if typ = H2FrameType.PUSH_PROMISE then { endHeaders := true, padded := true }
  else if typ = H2FrameType.PING then { endStreamOrAck := true }
  else if typ = H2FrameType.CONTINUATION then { endHeaders := true }
  else {}

section

open H2FrameType

@[simp] theorem definedFlags_data :
    definedFlags DATA = { endStreamOrAck := true, padded := true } := rfl

@[simp] theorem definedFlags_headers :
    definedFlags HEADERS =
      { endStreamOrAck := true, endHeaders := true, padded := true, priority := true } := rfl

@[simp] theorem definedFlags_priority : definedFlags PRIORITY = {} := rfl

@[simp] theorem definedFlags_rstStream : definedFlags RST_STREAM = {} := rfl

@[simp] theorem definedFlags_settings : definedFlags SETTINGS = { endStreamOrAck := true } := rfl

@[simp] theorem definedFlags_pushPromise :
    definedFlags PUSH_PROMISE = { endHeaders := true, padded := true } := rfl

@[simp] theorem definedFlags_ping : definedFlags PING = { endStreamOrAck := true } := rfl

@[simp] theorem definedFlags_goAway : definedFlags GOAWAY = {} := rfl

@[simp] theorem definedFlags_windowUpdate : definedFlags WINDOW_UPDATE = {} := rfl

@[simp] theorem definedFlags_continuation :
    definedFlags CONTINUATION = { endHeaders := true } := rfl

end

/-- The flags of `f` that are among those of `mask`. -/
def H2Flags.restrict (f mask : H2Flags) : H2Flags :=
  ⟨f.unused7 && mask.unused7, f.unused6 && mask.unused6, f.priority && mask.priority,
    f.unused4 && mask.unused4, f.padded && mask.padded, f.endHeaders && mask.endHeaders,
    f.unused1 && mask.unused1, f.endStreamOrAck && mask.endStreamOrAck⟩

namespace TypedFrame

def typ : TypedFrame → Int
  | data _ => H2FrameType.DATA
  | headers _ => H2FrameType.HEADERS
  | priority _ => H2FrameType.PRIORITY
  | rstStream _ => H2FrameType.RST_STREAM
  | settings _ => H2FrameType.SETTINGS
  | pushPromise _ => H2FrameType.PUSH_PROMISE
  | ping _ => H2FrameType.PING
  | goAway _ => H2FrameType.GOAWAY
  | windowUpdate _ => H2FrameType.WINDOW_UPDATE
  | continuation _ => H2FrameType.CONTINUATION

def flags : TypedFrame → H2Flags
  | data x => x.flags
  | headers x => x.flags
  | settings x => x.flags
  | pushPromise x => x.flags
  | ping x => x.flags
  | continuation x => x.flags
  | priority _ | rstStream _ | goAway _ | windowUpdate _ => {}

def streamId : TypedFrame → Int
  | data x => x.streamId
  | headers x => x.streamId
  | priority x => x.streamId
  | rstStream x => x.streamId
  | pushPromise x => x.streamId
  | windowUpdate x => x.streamId
  | continuation x => x.streamId
  | settings _ | ping _ | goAway _ => 0

def payload : TypedFrame → Except PyError Bytes
  | data x => x.payload
  | headers x => x.payload
  | priority x => x.payload
  | rstStream x => x.payload
  | settings x => x.payload
  | pushPromise x => x.payload
  | ping x => x.payload
  | goAway x => x.payload
  | windowUpdate x => x.payload
  | continuation x => x.payload

/-- The bytes `p` are a payload that carries `x`. -/
def PayloadIs (p : Bytes) : TypedFrame → Prop
  | data x => Padded x.padLength x.data p
  | headers x => ∃ block, OptionalPriority x.exclusive x.streamDependency x.weight block ∧
      Padded x.padLength (block ++ x.fieldBlockFragment) p
  | priority x => PriorityBlock x.exclusive x.streamDependency x.weight p
  | rstStream x => p.length = 4 ∧ x.errorCode = ofBE p
  | settings x => SettingsBlock x.settings p
  | pushPromise x => ∃ id : Bytes, id.length = 4 ∧ x.promisedStreamId = clearTopBit (ofBE id) ∧
      Padded x.padLength (id ++ x.fieldBlockFragment) p
  | ping x => p = x.opaqueData
  | goAway x => ∃ id code : Bytes, p = id ++ (code ++ x.additionalDebugData) ∧ id.length = 4 ∧
      code.length = 4 ∧ x.lastStreamId = clearTopBit (ofBE id) ∧ x.errorCode = ofBE code
  | windowUpdate x => p.length = 4 ∧ x.windowSizeIncrement = clearTopBit (ofBE p)
  | continuation x => p = x.fieldBlockFragment

/-- The generic frame `f` carries `x`. -/
def Layout (x : TypedFrame) (f : H2GenericFrame) : Prop :=
  f.typ = x.typ ∧ f.streamId = x.streamId ∧ f.flags.restrict (definedFlags x.typ) = x.flags ∧
    x.PayloadIs f.payload

end TypedFrame

/-! ### Reading -/

/-- The members of the format in which the flags take part. -/
theorem restrict_eq_iff {f mask g : H2Flags} : f.restrict mask = g ↔
    ((f.unused7 && mask.unused7) = g.unused7 ∧ (f.unused6 && mask.unused6) = g.unused6 ∧
      (f.priority && mask.priority) = g.priority ∧ (f.unused4 && mask.unused4) = g.unused4 ∧
      (f.padded && mask.padded) = g.padded ∧ (f.endHeaders && mask.endHeaders) = g.endHeaders ∧
      (f.unused1 && mask.unused1) = g.unused1 ∧
      (f.endStreamOrAck && mask.endStreamOrAck) = g.endStreamOrAck) := by
  cases g
  simp only [H2Flags.restrict, H2Flags.mk.injEq]

theorem OptionalPriority.isSome_eq {e : Option Bool} {d w : Option Int} {block : Bytes}
    (h : OptionalPriority e d w block) : (e.isSome && d.isSome && w.isSome) = e.isSome := by
  rcases e with _ | e <;> rcases d with _ | d <;> rcases w with _ | w
  all_goals first | rfl | exact h.elim

section

variable {f : H2GenericFrame}

theorem data_layout {x : H2DataFrame} :
    H2DataFrame.fromH2Frame f = .ok x ↔ (TypedFrame.data x).Layout f := by
  simp [H2DataFrame.fromH2Frame_eq_ok, TypedFrame.Layout, TypedFrame.typ, TypedFrame.streamId,
    TypedFrame.flags, TypedFrame.PayloadIs, restrict_eq_iff, H2DataFrame.flags, and_left_comm,
    and_assoc]

theorem headers_layout {x : H2HeadersFrame} :
    H2HeadersFrame.fromH2Frame f = .ok x ↔ (TypedFrame.headers x).Layout f := by
  have hflags : ∀ block, OptionalPriority x.exclusive x.streamDependency x.weight block →
      (f.flags.restrict (definedFlags H2FrameType.HEADERS) = x.flags ↔
        f.flags.endHeaders = x.endHeaders ∧ f.flags.endStreamOrAck = x.endStream ∧
          f.flags.padded = x.padLength.isSome ∧ f.flags.priority = x.exclusive.isSome) := by
    intro block hblock
    simp [restrict_eq_iff, H2HeadersFrame.flags, H2HeadersFrame.priority, hblock.isSome_eq]
    tauto
  rw [H2HeadersFrame.fromH2Frame_eq_ok]
  simp only [TypedFrame.Layout, TypedFrame.typ, TypedFrame.streamId, TypedFrame.flags,
    TypedFrame.PayloadIs]
  constructor
  · intro ⟨htyp, hid, heh, hes, hpad, hpri, block, hblock, hp⟩
    exact ⟨htyp, hid, (hflags block hblock).mpr ⟨heh, hes, hpad, hpri⟩, block, hblock, hp⟩
  · intro ⟨htyp, hid, hf, block, hblock, hp⟩
    obtain ⟨heh, hes, hpad, hpri⟩ := (hflags block hblock).mp hf
    exact ⟨htyp, hid, heh, hes, hpad, hpri, block, hblock, hp⟩

theorem priority_layout {x : H2PriorityFrame} :
    H2PriorityFrame.fromH2Frame f = .ok x ↔ (TypedFrame.priority x).Layout f := by
  simp [H2PriorityFrame.fromH2Frame_eq_ok, TypedFrame.Layout, TypedFrame.typ, TypedFrame.streamId,
    TypedFrame.flags, TypedFrame.PayloadIs, restrict_eq_iff]

theorem rstStream_layout {x : H2RstStreamFrame} :
    H2RstStreamFrame.fromH2Frame f = .ok x ↔ (TypedFrame.rstStream x).Layout f := by
  simp [H2RstStreamFrame.fromH2Frame_eq_ok, TypedFrame.Layout, TypedFrame.typ, TypedFrame.streamId,
    TypedFrame.flags, TypedFrame.PayloadIs, restrict_eq_iff]

theorem settings_layout {x : H2SettingsFrame} :
    H2SettingsFrame.fromH2Frame f = .ok x ↔ (TypedFrame.settings x).Layout f := by
  simp [H2SettingsFrame.fromH2Frame_eq_ok, TypedFrame.Layout, TypedFrame.typ, TypedFrame.streamId,
    TypedFrame.flags, TypedFrame.PayloadIs, restrict_eq_iff, H2SettingsFrame.flags]

theorem pushPromise_layout {x : H2PushPromiseFrame} :
    H2PushPromiseFrame.fromH2Frame f = .ok x ↔ (TypedFrame.pushPromise x).Layout f := by
  simp [H2PushPromiseFrame.fromH2Frame_eq_ok, TypedFrame.Layout, TypedFrame.typ,
    TypedFrame.streamId, TypedFrame.flags, TypedFrame.PayloadIs, restrict_eq_iff,
    H2PushPromiseFrame.flags, and_left_comm, and_assoc]

theorem ping_layout {x : H2PingFrame} :
    H2PingFrame.fromH2Frame f = .ok x ↔ (TypedFrame.ping x).Layout f := by
  simp [H2PingFrame.fromH2Frame_eq_ok, TypedFrame.Layout, TypedFrame.typ, TypedFrame.streamId,
    TypedFrame.flags, TypedFrame.PayloadIs, restrict_eq_iff, H2PingFrame.flags]

theorem goAway_layout {x : H2GoAwayFrame} :
    H2GoAwayFrame.fromH2Frame f = .ok x ↔ (TypedFrame.goAway x).Layout f := by
  simp [H2GoAwayFrame.fromH2Frame_eq_ok, TypedFrame.Layout, TypedFrame.typ, TypedFrame.streamId,
    TypedFrame.flags, TypedFrame.PayloadIs, restrict_eq_iff]

theorem windowUpdate_layout {x : H2WindowUpdateFrame} :
    H2WindowUpdateFrame.fromH2Frame f = .ok x ↔ (TypedFrame.windowUpdate x).Layout f := by
  simp [H2WindowUpdateFrame.fromH2Frame_eq_ok, TypedFrame.Layout, TypedFrame.typ,
    TypedFrame.streamId, TypedFrame.flags, TypedFrame.PayloadIs, restrict_eq_iff]

theorem continuation_layout {x : H2ContinuationFrame} :
    H2ContinuationFrame.fromH2Frame f = .ok x ↔ (TypedFrame.continuation x).Layout f := by
  simp [H2ContinuationFrame.fromH2Frame_eq_ok, TypedFrame.Layout, TypedFrame.typ,
    TypedFrame.streamId, TypedFrame.flags, TypedFrame.PayloadIs, restrict_eq_iff,
    H2ContinuationFrame.flags]

/-- **The function that `specialize` picks** returns the frames that `f` carries. -/
theorem fromH2Frame_eq_ok {x : TypedFrame} :
    (∃ fn, fromH2Frame f.typ = some fn ∧ fn f = .ok x) ↔ x.Layout f := by
  constructor
  · intro ⟨fn, hfn, h⟩
    unfold fromH2Frame at hfn
    split_ifs at hfn <;> cases hfn <;> obtain ⟨y, hy, rfl⟩ := map_eq_ok.mp h
    · exact data_layout.mp hy
    · exact headers_layout.mp hy
    · exact priority_layout.mp hy
    · exact rstStream_layout.mp hy
    · exact settings_layout.mp hy
    · exact pushPromise_layout.mp hy
    · exact ping_layout.mp hy
    · exact goAway_layout.mp hy
    · exact windowUpdate_layout.mp hy
    · exact continuation_layout.mp hy
  · intro h
    rw [h.1]
    cases x with
    | data x => exact ⟨_, rfl, map_eq_ok.mpr ⟨x, data_layout.mpr h, rfl⟩⟩
    | headers x => exact ⟨_, rfl, map_eq_ok.mpr ⟨x, headers_layout.mpr h, rfl⟩⟩
    | priority x => exact ⟨_, rfl, map_eq_ok.mpr ⟨x, priority_layout.mpr h, rfl⟩⟩
    | rstStream x => exact ⟨_, rfl, map_eq_ok.mpr ⟨x, rstStream_layout.mpr h, rfl⟩⟩
    | settings x => exact ⟨_, rfl, map_eq_ok.mpr ⟨x, settings_layout.mpr h, rfl⟩⟩
    | pushPromise x => exact ⟨_, rfl, map_eq_ok.mpr ⟨x, pushPromise_layout.mpr h, rfl⟩⟩
    | ping x => exact ⟨_, rfl, map_eq_ok.mpr ⟨x, ping_layout.mpr h, rfl⟩⟩
    | goAway x => exact ⟨_, rfl, map_eq_ok.mpr ⟨x, goAway_layout.mpr h, rfl⟩⟩
    | windowUpdate x => exact ⟨_, rfl, map_eq_ok.mpr ⟨x, windowUpdate_layout.mpr h, rfl⟩⟩
    | continuation x => exact ⟨_, rfl, map_eq_ok.mpr ⟨x, continuation_layout.mpr h, rfl⟩⟩

theorem specialize_of_layout {x : TypedFrame} (h : x.Layout f) : f.specialize = .ok (.typed x) := by
  obtain ⟨fn, hfn, hx⟩ := fromH2Frame_eq_ok.mpr h
  rw [H2GenericFrame.specialize, hfn]
  simp only [hx]

end

/-! ### Writing -/

section

variable {p body : Bytes} {padLength : Option Int}

theorem checkErrorCode_eq_ok {n : Int} : checkErrorCode n = .ok () ↔ 0 ≤ n ∧ n < 2 ^ 32 := by
  rw [checkErrorCode, ite_error_eq_ok]
  simp

theorem checkPriority_range {e : Option Bool} {d w : Option Int}
    (h : checkPriority e d w = .ok ()) :
    (∀ w' ∈ w, 0 ≤ w' ∧ w' < 256) ∧ ∀ d' ∈ d, 0 ≤ d' ∧ d' < 2 ^ 31 := by
  unfold checkPriority at h
  simp only [ite_error_eq_ok, throw_eq_error, error_bind] at h
  obtain ⟨-, h⟩ := h
  cases w with
  | none =>
      cases d with
      | none => exact ⟨by simp, by simp⟩
      | some d => exact ⟨by simp, by simpa using (checkStreamId_eq_ok.mp h).2.2⟩
  | some w =>
      obtain ⟨hw, h⟩ := ite_error_eq_ok.mp h
      cases d with
      | none => exact ⟨by simpa using hw, by simp⟩
      | some d => exact ⟨by simpa using hw, by simpa using (checkStreamId_eq_ok.mp h).2.2⟩

/-- Padding is written in the padded format. -/
theorem exists_addPadding (h : checkPadLength padLength = .ok ()) (body : Bytes) :
    ∃ p, addPadding padLength body = .ok p ∧ Padded padLength body p := by
  cases padLength with
  | none => exact ⟨body, rfl, rfl⟩
  | some n =>
      obtain ⟨h0, hn⟩ := checkPadLength_eq_ok.mp h
      have hbyte : toBE 1 n.toNat = [UInt8.ofNat n.toNat] := rfl
      have hval : (UInt8.ofNat n.toNat).toNat = n.toNat := by
        rw [UInt8.toNat_ofNat']
        omega
      refine ⟨UInt8.ofNat n.toNat :: (body ++ zeros n.toNat), ?_, UInt8.ofNat n.toNat,
        zeros n.toNat, rfl, by omega, by rw [hval, zeros, List.length_replicate]⟩
      rw [addPadding, intToBytes_of_lt h0 (by omega), ok_bind, hbyte, bytesOfLength,
        if_neg (by omega), ok_bind, pure_eq_ok, List.append_assoc]
      rfl

/-- A priority block is written from the fields in range. -/
theorem exists_priorityBlock {d w : Int} (e : Bool) (hd : 0 ≤ d ∧ d < 2 ^ 31)
    (hw : 0 ≤ w ∧ w < 256) :
    ∃ dependency b, intToBytes (withTopBit e d) 4 = .ok dependency ∧
      intToBytes w 1 = .ok [b] ∧ bytesOfByte w = .ok [b] ∧
      PriorityBlock e d w (dependency ++ [b]) := by
  obtain ⟨hr0, hr⟩ := withTopBit_range e hd.1 hd.2
  obtain ⟨he, hd'⟩ := topBit_withTopBit e hd.1 hd.2
  have hraw : ofBE (toBE 4 (withTopBit e d).toNat) = (withTopBit e d).toNat :=
    ofBE_toBE (by omega)
  have hval : (UInt8.ofNat w.toNat).toNat = w.toNat := by
    rw [UInt8.toNat_ofNat']
    omega
  refine ⟨toBE 4 (withTopBit e d).toNat, UInt8.ofNat w.toNat, intToBytes_of_lt hr0 hr,
    intToBytes_of_lt hw.1 (by omega), if_pos hw, _, _, rfl, length_toBE _ _, ?_, ?_, by omega⟩
  · rw [hraw, he]
  · rw [hraw, hd']

theorem exists_int32 {n : Int} (h0 : 0 ≤ n) (h : n < 2 ^ 32) :
    ∃ s, intToBytes n 4 = .ok s ∧ s.length = 4 ∧ n = ofBE s := by
  refine ⟨_, intToBytes_of_lt h0 (by omega), length_toBE _ _, ?_⟩
  rw [ofBE_toBE (by omega)]
  omega

/-- A stream id is written with its reserved bit clear. -/
theorem exists_streamId {n : Int} (h0 : 0 ≤ n) (h : n < 2 ^ 31) :
    ∃ s, intToBytes n 4 = .ok s ∧ s.length = 4 ∧ n = clearTopBit (ofBE s) := by
  obtain ⟨s, hs, hlen, hn⟩ := exists_int32 h0 (by omega)
  refine ⟨s, hs, hlen, ?_⟩
  rw [clearTopBit_eq (by omega)]
  omega

end

namespace TypedFrame

/-- Priority fields all present or all absent, and settings that fit their bytes. -/
def Complete : TypedFrame → Prop
  | headers x => (x.exclusive.isSome ∧ x.streamDependency.isSome ∧ x.weight.isSome) ∨
      (x.exclusive = none ∧ x.streamDependency = none ∧ x.weight = none)
  | settings x => ∀ s ∈ x.settings, (0 ≤ s.1 ∧ s.1 < 2 ^ 16) ∧ 0 ≤ s.2 ∧ s.2 < 2 ^ 32
  | _ => True

end TypedFrame

theorem H2HeadersFrame.exists_payload (x : H2HeadersFrame) (hc : (TypedFrame.headers x).Complete) :
    ∃ p, x.payload = .ok p ∧ (TypedFrame.headers x).PayloadIs p := by
  have hpost := x.post_init
  rw [postInit, check_bind_eq_ok, check_bind_eq_ok] at hpost
  obtain ⟨-, hpri, hpad⟩ := hpost
  obtain ⟨hw, hd⟩ := checkPriority_range hpri
  have hbody : ∃ block, OptionalPriority x.exclusive x.streamDependency x.weight block ∧
      x.body = .ok (block ++ x.fieldBlockFragment) := by
    rcases hc with ⟨he, hd', hw'⟩ | ⟨he, hd', hw'⟩
    · obtain ⟨e, he⟩ := Option.isSome_iff_exists.mp he
      obtain ⟨d, hd'⟩ := Option.isSome_iff_exists.mp hd'
      obtain ⟨w, hw'⟩ := Option.isSome_iff_exists.mp hw'
      obtain ⟨dependency, b, h1, h2, -, hblock⟩ :=
        exists_priorityBlock e (hd d hd') (hw w hw')
      rw [he, hd', hw', body, he, hd', hw']
      refine ⟨dependency ++ [b], hblock, ?_⟩
      simp only [h1, h2, ok_bind, pure_eq_ok]
    · rw [he, hd', hw', body, he, hd', hw']
      exact ⟨[], rfl, rfl⟩
  obtain ⟨block, hblock, hb⟩ := hbody
  obtain ⟨p, hp, hlay⟩ := exists_addPadding hpad (block ++ x.fieldBlockFragment)
  exact ⟨p, by rw [payload, hb, ok_bind, hp], block, hblock, hlay⟩

theorem exists_settingBlock {s : Int × Int}
    (h : (0 ≤ s.1 ∧ s.1 < 2 ^ 16) ∧ 0 ≤ s.2 ∧ s.2 < 2 ^ 32) :
    ∃ block, H2SettingsFrame.settingToBytes s = .ok block ∧ SettingBlock s block := by
  obtain ⟨⟨hk0, hk⟩, hv0, hv⟩ := h
  refine ⟨toBE 2 s.1.toNat ++ toBE 4 s.2.toNat, ?_, _, _, rfl, length_toBE _ _,
    length_toBE _ _, ?_⟩
  · rw [H2SettingsFrame.settingToBytes, intToBytes_of_lt hk0 (by omega), ok_bind,
      intToBytes_of_lt hv0 (by omega), ok_bind, pure_eq_ok]
  · rw [ofBE_toBE (by omega), ofBE_toBE (by omega)]
    ext <;> simp only <;> omega

theorem H2SettingsFrame.exists_payload (x : H2SettingsFrame)
    (hc : (TypedFrame.settings x).Complete) :
    ∃ p, x.payload = .ok p ∧ (TypedFrame.settings x).PayloadIs p := by
  have hblocks : ∀ ss : List (Int × Int),
      (∀ s ∈ ss, (0 ≤ s.1 ∧ s.1 < 2 ^ 16) ∧ 0 ≤ s.2 ∧ s.2 < 2 ^ 32) →
      ∃ blocks, ss.mapM settingToBytes = .ok blocks ∧ List.Forall₂ SettingBlock ss blocks := by
    intro ss hss
    induction ss with
    | nil => exact ⟨[], rfl, .nil⟩
    | cons s ss ih =>
        obtain ⟨block, hset, hblock⟩ := exists_settingBlock (hss s (by simp))
        obtain ⟨blocks, hmap, hf⟩ := ih fun t ht => hss t (by simp [ht])
        refine ⟨block :: blocks, ?_, .cons hblock hf⟩
        rw [List.mapM_cons, hset, ok_bind, hmap, ok_bind, pure_eq_ok]
  obtain ⟨blocks, hmap, hf⟩ := hblocks x.settings hc
  exact ⟨blocks.flatten, by rw [payload, hmap, ok_bind, pure_eq_ok], blocks, hf, rfl⟩

/-- Every complete typed frame has a payload, in the format of its type. -/
theorem exists_payload (x : TypedFrame) (hc : x.Complete) : ∃ p, x.payload = .ok p ∧ x.PayloadIs p := by
  cases x with
  | headers x => exact x.exists_payload hc
  | settings x => exact x.exists_payload hc
  | data x =>
      have hpost := x.post_init
      rw [H2DataFrame.postInit, check_bind_eq_ok] at hpost
      exact exists_addPadding hpost.1 x.data
  | priority x =>
      have hpost := x.post_init
      rw [H2PriorityFrame.postInit, check_bind_eq_ok] at hpost
      obtain ⟨hw, hd⟩ := checkPriority_range hpost.2
      obtain ⟨dependency, b, h1, -, h2, hblock⟩ :=
        exists_priorityBlock x.exclusive (hd _ rfl) (hw _ rfl)
      exact ⟨_, by rw [TypedFrame.payload, H2PriorityFrame.payload, h1, ok_bind, h2]; rfl, hblock⟩
  | rstStream x =>
      have hpost := x.post_init
      rw [H2RstStreamFrame.postInit, check_bind_eq_ok, checkErrorCode_eq_ok] at hpost
      obtain ⟨s, hs, hlen, hn⟩ := exists_int32 hpost.2.1 hpost.2.2
      exact ⟨s, hs, hlen, hn⟩
  | pushPromise x =>
      have hpost := x.post_init
      rw [H2PushPromiseFrame.postInit, check_bind_eq_ok, check_bind_eq_ok, checkStreamId_eq_ok,
        checkStreamId_eq_ok] at hpost
      obtain ⟨hpad, -, hid⟩ := hpost
      obtain ⟨s, hs, hlen, hn⟩ := exists_streamId hid.2.2.1 hid.2.2.2
      obtain ⟨p, hp, hlay⟩ := exists_addPadding hpad (s ++ x.fieldBlockFragment)
      refine ⟨p, ?_, s, hlen, hn, hlay⟩
      rw [TypedFrame.payload, H2PushPromiseFrame.payload, hs, ok_bind, hp]
  | ping x => exact ⟨x.opaqueData, rfl, rfl⟩
  | goAway x =>
      have hpost := x.post_init
      rw [H2GoAwayFrame.postInit, check_bind_eq_ok, checkErrorCode_eq_ok, checkStreamId_eq_ok]
        at hpost
      obtain ⟨hid, hcode⟩ := hpost
      obtain ⟨s, hs, hlen, hn⟩ := exists_streamId hid.2.2.1 hid.2.2.2
      obtain ⟨t, ht, hlen', hn'⟩ := exists_int32 hcode.1 hcode.2
      refine ⟨s ++ t ++ x.additionalDebugData, ?_, s, t, by simp, hlen, hlen', hn, hn'⟩
      rw [TypedFrame.payload, H2GoAwayFrame.payload, hs, ok_bind, ht, ok_bind, pure_eq_ok]
  | windowUpdate x =>
      have hpost := x.post_init
      rw [H2WindowUpdateFrame.postInit, check_bind_eq_ok, throw_eq_error, ite_error_eq_ok,
        not_not] at hpost
      obtain ⟨-, ⟨h0, h⟩, -⟩ := hpost
      obtain ⟨s, hs, hlen, hn⟩ := exists_streamId h0.le (by simpa using h)
      exact ⟨s, hs, hlen, hn⟩
  | continuation x => exact ⟨x.fieldBlockFragment, rfl, rfl⟩

theorem TypedFrame.streamId_range (x : TypedFrame) : 0 ≤ x.streamId ∧ x.streamId < 2 ^ 31 := by
  cases x with
  | settings _ | ping _ | goAway _ => simp [streamId]
  | data x =>
      have h := x.post_init
      rw [H2DataFrame.postInit, check_bind_eq_ok, checkStreamId_eq_ok] at h
      exact h.2.2.2
  | headers x =>
      have h := x.post_init
      rw [H2HeadersFrame.postInit, check_bind_eq_ok, checkStreamId_eq_ok] at h
      exact h.1.2.2
  | priority x =>
      have h := x.post_init
      rw [H2PriorityFrame.postInit, check_bind_eq_ok, checkStreamId_eq_ok] at h
      exact h.1.2.2
  | rstStream x =>
      have h := x.post_init
      rw [H2RstStreamFrame.postInit, check_bind_eq_ok, checkStreamId_eq_ok] at h
      exact h.1.2.2
  | pushPromise x =>
      have h := x.post_init
      rw [H2PushPromiseFrame.postInit, check_bind_eq_ok, check_bind_eq_ok, checkStreamId_eq_ok]
        at h
      exact h.2.1.2.2
  | windowUpdate x =>
      have h := x.post_init
      rw [H2WindowUpdateFrame.postInit, check_bind_eq_ok, checkStreamId_eq_ok] at h
      exact h.1.2.2
  | continuation x =>
      have h := x.post_init
      rw [H2ContinuationFrame.postInit, checkStreamId_eq_ok] at h
      exact h.2.2

theorem TypedFrame.toGeneric_eq (x : TypedFrame) :
    x.toGeneric = x.payload >>= H2GenericFrame.new x.typ x.flags false x.streamId := by
  cases x <;> rfl

theorem TypedFrame.restrict_flags (x : TypedFrame) :
    x.flags.restrict (definedFlags x.typ) = x.flags := by
  cases x <;> simp [TypedFrame.flags, TypedFrame.typ, restrict_eq_iff, H2DataFrame.flags,
    H2HeadersFrame.flags, H2SettingsFrame.flags, H2PushPromiseFrame.flags, H2PingFrame.flags,
    H2ContinuationFrame.flags]

/-- A payload that is not too long is carried by a generic frame. -/
theorem TypedFrame.toGeneric_of_payload {x : TypedFrame} {p : Bytes} (hp : x.payload = .ok p)
    (hlen : p.length < 2 ^ 24) :
    ∃ hpost, x.toGeneric = .ok ⟨x.typ, x.flags, false, x.streamId, p, hpost⟩ := by
  have hid := x.streamId_range
  have hpost : H2GenericFrame.postInit x.streamId p = .ok () :=
    H2GenericFrame.postInit_eq_ok.mpr ⟨hid.1, hid.2, hlen⟩
  refine ⟨hpost, ?_⟩
  rw [toGeneric_eq, hp, ok_bind]
  exact build_of_ok hpost

/-- Every complete typed frame whose payload is not too long is written as a
generic frame that carries it. -/
theorem TypedFrame.exists_toGeneric (x : TypedFrame) (hc : x.Complete)
    (hlen : ∀ p, x.payload = .ok p → p.length < 2 ^ 24) :
    ∃ g, x.toGeneric = .ok g ∧ x.Layout g := by
  obtain ⟨p, hp, hlay⟩ := exists_payload x hc
  obtain ⟨hpost, hgeneric⟩ := toGeneric_of_payload hp (hlen p hp)
  exact ⟨_, hgeneric, rfl, rfl, x.restrict_flags, hlay⟩

end HttpGarden.Http2
