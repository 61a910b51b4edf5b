import HttpGarden.Http2.Framing
import HttpGarden.Http2.TypedLayout

/-!
# HttpGarden.Http2.RoundTrip

What is lost between typed frames and bytes.

* **Nothing**, from typed frames to bytes and back
  (`parseFrames_joinTypedFrames`).
* **Only ignorable bits**, from a generic frame to a typed one and back
  (`specialize_loses_only_ignorable`): which bits those are is spelled out by
  `definedFlags` and `H2GenericFrame.significant`, and the proof is that two
  payloads of one typed frame agree on all others (`body_agree`, `padded_agree`).
-/

namespace HttpGarden.Http2

open Lib Lib.Reader

/-! ### From typed frames to bytes and back -/

theorem TypedFrame.typ_range (x : TypedFrame) : 0 ≤ x.typ ∧ x.typ ≤ 255 := by
  cases x <;> simp [TypedFrame.typ, H2FrameType.DATA, H2FrameType.HEADERS, H2FrameType.PRIORITY,
    H2FrameType.RST_STREAM, H2FrameType.SETTINGS, H2FrameType.PUSH_PROMISE, H2FrameType.PING,
    H2FrameType.GOAWAY, H2FrameType.WINDOW_UPDATE, H2FrameType.CONTINUATION]

/-- Frames that the generic frames `gs` carry are written as these. -/
theorem joinTypedFrames_eq {xs : List TypedFrame} {gs : List H2GenericFrame}
    (h : List.Forall₂ (fun x g => TypedFrame.toGeneric x = .ok g) xs gs) :
    joinTypedFrames xs = joinFrames gs := by
  have hmap : xs.mapM TypedFrame.toBytes = gs.mapM H2GenericFrame.toBytes := by
    induction h with
    | nil => rfl
    | cons hx _ ih => rw [List.mapM_cons, List.mapM_cons, TypedFrame.toBytes, hx, ok_bind, ih]
  rw [joinTypedFrames, joinFrames, hmap]

theorem mapM_specialize {xs : List TypedFrame} {gs : List H2GenericFrame}
    (h : List.Forall₂ TypedFrame.Layout xs gs) :
    gs.mapM H2GenericFrame.specialize = .ok (xs.map .typed) := by
  induction h with
  | nil => rfl
  | cons hx _ ih =>
      rw [List.mapM_cons, specialize_of_layout hx, ok_bind, ih, ok_bind, pure_eq_ok, List.map_cons]

theorem exists_carriers {xs : List TypedFrame}
    (h : ∀ x ∈ xs, x.Complete ∧ ∀ p, x.payload = .ok p → p.length < 2 ^ 24) :
    ∃ gs, List.Forall₂ (fun x g => TypedFrame.toGeneric x = .ok g) xs gs ∧
      List.Forall₂ TypedFrame.Layout xs gs := by
  induction xs with
  | nil => exact ⟨[], .nil, .nil⟩
  | cons x xs ih =>
      obtain ⟨hc, hlen⟩ := h x (by simp)
      obtain ⟨g, hg, hlay⟩ := x.exists_toGeneric hc hlen
      obtain ⟨gs, hgs, hlays⟩ := ih fun y hy => h y (by simp [hy])
      exact ⟨g :: gs, .cons hg hgs, .cons hlay hlays⟩

/-- **Typed frames round-trip**, in any number, whatever padding, priority and
flags they have. -/
theorem parseFrames_joinTypedFrames (xs : List TypedFrame)
    (h : ∀ x ∈ xs, x.Complete ∧ ∀ p, x.payload = .ok p → p.length < 2 ^ 24) :
    ∃ b, joinTypedFrames xs = .ok b ∧ parseFrames b = .ok (xs.map .typed) := by
  obtain ⟨gs, hgs, hlays⟩ := exists_carriers h
  have htyp : ∀ g ∈ gs, 0 ≤ g.typ ∧ g.typ ≤ 255 := by
    clear h hgs
    induction hlays with
    | nil => simp
    | cons hx _ ih => exact List.forall_mem_cons.mpr ⟨hx.1 ▸ TypedFrame.typ_range _, ih⟩
  obtain ⟨b, hb⟩ := exists_layouts htyp
  refine ⟨b, ?_, ?_⟩
  · rw [joinTypedFrames_eq hgs, joinFrames_of_layouts hb]
  · rw [parseFrames, parseGenericFrames_of_layouts hb, ok_bind, mapM_specialize hlays]

/-- A HEADERS frame with a priority block and padding. -/
def paddedHeaders : TypedFrame :=
  .headers ⟨true, false, 1, some true, some 3, some 16, [0x82, 0x86], some 2, by decide⟩

theorem parseFrames_joinTypedFrames_paddedHeaders :
    ∃ b, joinTypedFrames [paddedHeaders] = .ok b ∧ parseFrames b = .ok [.typed paddedHeaders] := by
  refine parseFrames_joinTypedFrames [paddedHeaders] fun x hx => ?_
  rw [List.mem_singleton.mp hx]
  refine ⟨.inl (by decide), fun p hp => ?_⟩
  have hval : paddedHeaders.payload = .ok [2, 0x80, 0, 0, 3, 16, 0x82, 0x86, 0, 0] := by
    decide
  rw [hval, Except.ok.injEq] at hp
  simp [← hp]

/-! ### Ignorable bits -/

/-- Is the first field of the payload a stream id or an increment, of which the
top bit is reserved? -/
def reservesTopBit (typ : Int) : Bool :=
  typ == H2FrameType.PUSH_PROMISE || typ == H2FrameType.GOAWAY || typ == H2FrameType.WINDOW_UPDATE

namespace H2GenericFrame

/-- The `PADDED` flag, for the types that have one. -/
def isPadded (f : H2GenericFrame) : Bool := f.flags.padded && (definedFlags f.typ).padded

/-- How many bytes at the end of the payload are padding. -/
def padding (f : H2GenericFrame) : Nat :=
  if f.isPadded then (f.payload.headD 0).toNat else 0

/-- The bits of byte `i` of the payload that have a meaning. -/
def significant (f : H2GenericFrame) (i : Nat) : UInt8 :=
  if f.payload.length ≤ i + f.padding then 0x00
  else if reservesTopBit f.typ && i == f.isPadded.toNat then 0x7F
  else 0xFF

end H2GenericFrame

/-- `g` differs from `f` in ignorable bits at most: the reserved bit, undefined
flags, the contents of padding and the reserved top bits in the payload. -/
structure SameUpToIgnorable (f g : H2GenericFrame) : Prop where
  typ : g.typ = f.typ
  streamId : g.streamId = f.streamId
  length : g.payload.length = f.payload.length
  flags : g.flags.restrict (definedFlags f.typ) = f.flags.restrict (definedFlags f.typ)
  payload : ∀ i, g.payload.getD i 0 &&& f.significant i = f.payload.getD i 0 &&& f.significant i

/-- The bits of byte `i` of a body, the part without pad length and padding. -/
def bodyMask (reserved : Bool) (i : Nat) : UInt8 := if reserved && i == 0 then 0x7F else 0xFF

/-- Two bodies of the same length agree on the bits that have a meaning. -/
def BodyAgree (reserved : Bool) (s t : Bytes) : Prop :=
  t.length = s.length ∧
    ∀ i, t.getD i 0 &&& bodyMask reserved i = s.getD i 0 &&& bodyMask reserved i

theorem BodyAgree.refl (reserved : Bool) (s : Bytes) : BodyAgree reserved s s :=
  ⟨rfl, fun _ => rfl⟩

theorem and_7F_eq {a b : UInt8} (h : a.toNat % 128 = b.toNat % 128) : a &&& 0x7F = b &&& 0x7F := by
  apply UInt8.toNat_inj.mp
  rw [UInt8.toNat_and, UInt8.toNat_and]
  exact (Nat.and_two_pow_sub_one_eq_mod _ 7).trans
    (h.trans (Nat.and_two_pow_sub_one_eq_mod _ 7).symm)

/-- Stream ids are read from 31 of their 32 bits. -/
theorem bodyAgree_of_clearTopBit {id id' : Bytes} (s : Bytes) (hl : id.length = 4)
    (hl' : id'.length = 4) (h : clearTopBit (ofBE id) = clearTopBit (ofBE id')) :
    BodyAgree true (id ++ s) (id' ++ s) := by
  have hlt : ofBE id < 256 ^ 4 := ofBE_lt_of_length hl
  have hlt' : ofBE id' < 256 ^ 4 := ofBE_lt_of_length hl'
  rw [clearTopBit_eq hlt, clearTopBit_eq hlt'] at h
  match id, hl, id', hl' with
  | [a, b, c, d], _, [a', b', c', d'], _ =>
      have ht : ofBE [b, c, d] < 256 ^ 3 := ofBE_lt _
      have ht' : ofBE [b', c', d'] < 256 ^ 3 := ofBE_lt _
      have hval : ofBE [a, b, c, d] = a.toNat * 2 ^ 24 + ofBE [b, c, d] := by
        simp only [ofBE, List.foldl_cons, List.foldl_nil]
        omega
      have hval' : ofBE [a', b', c', d'] = a'.toNat * 2 ^ 24 + ofBE [b', c', d'] := by
        simp only [ofBE, List.foldl_cons, List.foldl_nil]
        omega
      rw [hval, hval'] at h
      obtain ⟨rfl, rfl, rfl⟩ : b = b' ∧ c = c' ∧ d = d' := by
        simpa using ofBE_inj (s := [b, c, d]) (t := [b', c', d']) rfl (by omega)
      refine ⟨rfl, fun i => ?_⟩
      cases i with
      | zero =>
          have htop : a.toNat % 128 = a'.toNat % 128 := by omega
          exact (and_7F_eq htop).symm
      | succ i => rfl

/-- Two padded payloads agree as far as their bodies do. -/
theorem padded_agree {padLength : Option Int} {reserved : Bool} {s t p q : Bytes}
    (hp : Padded padLength s p) (hq : Padded padLength t q) (h : BodyAgree reserved s t) :
    q.length = p.length ∧ ∀ i (m : UInt8),
      m = (if p.length ≤ i + (padLength.getD 0).toNat then 0x00
        else if reserved && i == padLength.isSome.toNat then 0x7F else 0xFF) →
      q.getD i 0 &&& m = p.getD i 0 &&& m := by
  obtain ⟨hlen, hbits⟩ := h
  cases padLength with
  | none =>
      rw [show p = s from hp, show q = t from hq]
      refine ⟨hlen, ?_⟩
      rintro i m rfl
      split
      · rw [UInt8.and_zero, UInt8.and_zero]
      · exact hbits i
  | some n =>
      obtain ⟨b, pad, rfl, hn, hpad⟩ := hp
      obtain ⟨b', pad', rfl, hn', hpad'⟩ := hq
      obtain rfl : b = b' := UInt8.toNat_inj.mp (by omega)
      refine ⟨by simp only [List.length_cons, List.length_append]; omega, ?_⟩
      rintro i m rfl
      split
      · rw [UInt8.and_zero, UInt8.and_zero]
      · rename_i hi
        simp only [List.length_cons, List.length_append, Option.getD_some, not_le] at hi
        cases i with
        | zero => rfl
        | succ i =>
            have h1 : i < s.length := by omega
            have hmask : (if (reserved && i + 1 == (some n).isSome.toNat) = true then (0x7F : UInt8)
                else 0xFF) = bodyMask reserved i := by
              simp [bodyMask]
            rw [hmask, List.getD_cons_succ, List.getD_cons_succ,
              List.getD_append _ _ _ _ (by omega), List.getD_append _ _ _ _ h1]
            exact hbits i

/-! ### What a payload determines -/

namespace TypedFrame

def padLength : TypedFrame → Option Int
  | data x => x.padLength
  | headers x => x.padLength
  | pushPromise x => x.padLength
  | _ => none

/-- The bytes `s` are a payload of `x` without its pad length and padding. -/
def BodyIs (s : Bytes) : TypedFrame → Prop
  | data x => s = x.data
  | headers x => ∃ block, OptionalPriority x.exclusive x.streamDependency x.weight block ∧
      s = block ++ x.fieldBlockFragment
  | pushPromise x => ∃ id : Bytes, id.length = 4 ∧ x.promisedStreamId = clearTopBit (ofBE id) ∧
      s = id ++ x.fieldBlockFragment
  | x => x.PayloadIs s

theorem exists_body {x : TypedFrame} {p : Bytes} (h : x.PayloadIs p) :
    ∃ s, x.BodyIs s ∧ Padded x.padLength s p := by
  cases x with
  | data x => exact ⟨_, rfl, h⟩
  | headers x =>
      obtain ⟨block, hblock, hp⟩ := h
      exact ⟨_, ⟨block, hblock, rfl⟩, hp⟩
  | pushPromise x =>
      obtain ⟨id, hlen, hid, hp⟩ := h
      exact ⟨_, ⟨id, hlen, hid, rfl⟩, hp⟩
  | priority _ | rstStream _ | settings _ | ping _ | goAway _ | windowUpdate _ | continuation _ =>
      exact ⟨p, h, rfl⟩

end TypedFrame

theorem PriorityBlock.unique {e : Bool} {d w : Int} {s t : Bytes} (hs : PriorityBlock e d w s)
    (ht : PriorityBlock e d w t) : s = t := by
  obtain ⟨id, b, rfl, hl, he, hd, hw⟩ := hs
  obtain ⟨id', b', rfl, hl', he', hd', hw'⟩ := ht
  have hlt : ofBE id < 2 ^ 32 := ofBE_lt_of_length hl
  have hlt' : ofBE id' < 2 ^ 32 := ofBE_lt_of_length hl'
  have hval : (ofBE id : Int) = ofBE id' := by
    rw [← withTopBit_topBit hlt, ← withTopBit_topBit hlt', ← he, ← he', ← hd, ← hd']
  rw [ofBE_inj (hl.trans hl'.symm) (by omega), UInt8.toNat_inj.mp (by omega : b.toNat = b'.toNat)]

theorem OptionalPriority.unique {e : Option Bool} {d w : Option Int} {s t : Bytes}
    (hs : OptionalPriority e d w s) (ht : OptionalPriority e d w t) : s = t := by
  rcases e with _ | e <;> rcases d with _ | d <;> rcases w with _ | w
  · rw [show s = [] from hs, show t = [] from ht]
  all_goals first | exact hs.elim | skip
  exact PriorityBlock.unique hs ht

theorem SettingBlock.unique {s : Int × Int} {p q : Bytes} (hp : SettingBlock s p)
    (hq : SettingBlock s q) : p = q := by
  obtain ⟨k, v, rfl, hk, hv, rfl⟩ := hp
  obtain ⟨k', v', rfl, hk', hv', heq⟩ := hq
  rw [Prod.mk.injEq] at heq
  rw [ofBE_inj (hk.trans hk'.symm) (by omega), ofBE_inj (hv.trans hv'.symm) (by omega)]

theorem SettingsBlock.unique {ss : List (Int × Int)} {p q : Bytes} (hp : SettingsBlock ss p)
    (hq : SettingsBlock ss q) : p = q := by
  obtain ⟨bs, hbs, rfl⟩ := hp
  obtain ⟨cs, hcs, rfl⟩ := hq
  have heq : bs = cs := by
    induction hbs generalizing cs with
    | nil =>
        cases hcs
        rfl
    | cons hb _ ih =>
        cases hcs with
        | cons hc hcs => rw [hb.unique hc, ih _ hcs]
  rw [heq]

/-- Two bodies of a frame agree, but for the reserved top bit. -/
theorem body_agree {x : TypedFrame} {s t : Bytes} (hs : x.BodyIs s) (ht : x.BodyIs t) :
    BodyAgree (reservesTopBit x.typ) s t := by
  cases x with
  | pushPromise x =>
      obtain ⟨id, hl, hid, rfl⟩ := hs
      obtain ⟨id', hl', hid', rfl⟩ := ht
      exact bodyAgree_of_clearTopBit _ hl hl' (by omega)
  | goAway x =>
      obtain ⟨id, code, rfl, hl, hcode, hid, herr⟩ := hs
      obtain ⟨id', code', rfl, hl', hcode', hid', herr'⟩ := ht
      rw [ofBE_inj (hcode'.trans hcode.symm) (by omega)]
      exact bodyAgree_of_clearTopBit _ hl hl' (by omega)
  | windowUpdate x =>
      have h := bodyAgree_of_clearTopBit [] hs.1 ht.1 (by have := hs.2; have := ht.2; omega)
      rwa [List.append_nil, List.append_nil] at h
  | data x => exact hs.trans ht.symm ▸ BodyAgree.refl _ _
  | headers x =>
      obtain ⟨block, hblock, rfl⟩ := hs
      obtain ⟨block', hblock', rfl⟩ := ht
      rw [hblock'.unique hblock]
      exact BodyAgree.refl _ _
  | priority x => exact hs.unique ht ▸ BodyAgree.refl _ _
  | rstStream x =>
      have heq : s = t := ofBE_inj (hs.1.trans ht.1.symm) (by have := hs.2; have := ht.2; omega)
      exact heq ▸ BodyAgree.refl _ _
  | settings x => exact hs.unique ht ▸ BodyAgree.refl _ _
  | ping x => exact (hs.trans ht.symm : s = t) ▸ BodyAgree.refl _ _
  | continuation x => exact (hs.trans ht.symm : s = t) ▸ BodyAgree.refl _ _

theorem payload_length_eq {x : TypedFrame} {p q : Bytes} (hp : x.PayloadIs p)
    (hq : x.PayloadIs q) : q.length = p.length := by
  obtain ⟨s, hs, hp⟩ := TypedFrame.exists_body hp
  obtain ⟨t, ht, hq⟩ := TypedFrame.exists_body hq
  exact (padded_agree hp hq (body_agree hs ht)).1

theorem TypedFrame.Layout.isPadded {x : TypedFrame} {f : H2GenericFrame} (h : x.Layout f) :
    f.isPadded = x.padLength.isSome := by
  have hpad : f.isPadded = x.flags.padded := by
    rw [H2GenericFrame.isPadded, h.1, ← h.2.2.1]
    rfl
  rw [hpad]
  cases x <;> rfl

theorem TypedFrame.Layout.padding {x : TypedFrame} {f : H2GenericFrame} (h : x.Layout f) :
    f.padding = (x.padLength.getD 0).toNat := by
  obtain ⟨s, -, hp⟩ := TypedFrame.exists_body h.2.2.2
  rw [H2GenericFrame.padding, h.isPadded]
  cases hx : x.padLength with
  | none => rfl
  | some n =>
      rw [hx] at hp
      obtain ⟨b, padding, hf, rfl, -⟩ := hp
      rw [hf]
      rfl

/-- Two frames that carry the same typed frame differ in ignorable bits at most. -/
theorem sameUpToIgnorable_of_layout {x : TypedFrame} {f g : H2GenericFrame} (hf : x.Layout f)
    (hg : x.Layout g) : SameUpToIgnorable f g := by
  obtain ⟨s, hs, hp⟩ := TypedFrame.exists_body hf.2.2.2
  obtain ⟨t, ht, hq⟩ := TypedFrame.exists_body hg.2.2.2
  obtain ⟨hlen, hbits⟩ := padded_agree hp hq (body_agree hs ht)
  refine ⟨hg.1.trans hf.1.symm, hg.2.1.trans hf.2.1.symm, hlen, ?_, fun i => hbits i _ ?_⟩
  · rw [hf.1, hf.2.2.1, hg.2.2.1]
  · rw [H2GenericFrame.significant, hf.padding, hf.isPadded, hf.1]

theorem TypedFrame.Layout.complete {x : TypedFrame} {f : H2GenericFrame} (h : x.Layout f) :
    x.Complete := by
  have hp := h.2.2.2
  cases x with
  | headers x =>
      obtain ⟨block, hblock, -⟩ := hp
      revert hblock
      simp only [Complete]
      rcases x.exclusive with _ | e <;> rcases x.streamDependency with _ | d <;>
        rcases x.weight with _ | w
      all_goals first | exact fun hblock => hblock.elim | simp
  | settings x =>
      obtain ⟨blocks, hf, -⟩ := hp
      simp only [Complete]
      generalize x.settings = ss at hf ⊢
      induction hf with
      | nil => simp
      | cons hb _ ih =>
          obtain ⟨k, v, -, hk, hv, rfl⟩ := hb
          have hklt : ofBE k < 256 ^ 2 := ofBE_lt_of_length hk
          have hvlt : ofBE v < 256 ^ 4 := ofBE_lt_of_length hv
          exact List.forall_mem_cons.mpr ⟨by simp only; omega, ih⟩
  | data _ | priority _ | rstStream _ | pushPromise _ | ping _ | goAway _ | windowUpdate _
  | continuation _ => trivial

/-- **Specialising loses only ignorable bits.** When the `from_h2frame` that belongs
to a frame returns a typed frame, that frame can be turned back into a generic
one, which has the type, stream id and payload length of the original, is
specialised to the same typed frame, and differs from the original in ignorable
bits at most. -/
theorem specialize_loses_only_ignorable {f : H2GenericFrame} {x : TypedFrame}
    {fn : H2GenericFrame → Except PyError TypedFrame} (hfn : fromH2Frame f.typ = some fn)
    (hx : fn f = .ok x) :
    ∃ g, x.toGeneric = .ok g ∧ g.specialize = .ok (.typed x) ∧ SameUpToIgnorable f g := by
  have hf := fromH2Frame_eq_ok.mp ⟨fn, hfn, hx⟩
  obtain ⟨p, hp, hlay⟩ := exists_payload x hf.complete
  have hlen : p.length < 2 ^ 24 := payload_length_eq hf.2.2.2 hlay ▸ f.payload_lt
  obtain ⟨g, hg, hlayg⟩ := x.exists_toGeneric hf.complete fun q hq => by
    rw [hp, Except.ok.injEq] at hq
    exact hq ▸ hlen
  exact ⟨g, hg, specialize_of_layout hlayg, sameUpToIgnorable_of_layout hf hlayg⟩

/-- A padded DATA frame with its reserved bit, an undefined flag and a byte of
padding set. -/
def noisyData : H2GenericFrame :=
  ⟨H2FrameType.DATA, { padded := true, unused6 := true }, true, 1, [1, 0x68, 0x69, 0xFF], by decide⟩

theorem specialize_loses_only_ignorable_noisyData :
    ∃ g, (TypedFrame.data ⟨false, 1, [0x68, 0x69], some 1, by decide⟩).toGeneric = .ok g ∧
      g.specialize = .ok (.typed (.data ⟨false, 1, [0x68, 0x69], some 1, by decide⟩)) ∧
      SameUpToIgnorable noisyData g :=
  specialize_loses_only_ignorable (f := noisyData) rfl (by decide)

end HttpGarden.Http2
