import HttpGarden.Http2.Frame

/-!
# HttpGarden.Http2.Framing

The generic framing layer is a **bijection** between lists of frames and the byte
strings it accepts.

`Layout f enc` is the nine-byte header format, stated without reference to the
parser or the serialiser. Both are shown to follow it, and a byte string that
starts with something else makes the parser raise an `H2Error`
(`parse_of_not_frame`); from there the results about whole streams are
inductions over the frames.
-/

namespace HttpGarden.Http2

open Lib Lib.Reader

/-- A complete frame: nine header bytes, the first three of which say how many
payload bytes follow them. -/
def IsFrame (b : Bytes) : Prop := 9 ≤ b.length ∧ b.length = 9 + ofBE (b.take 3)

/-- A concatenation of complete frames. -/
def IsFrames (b : Bytes) : Prop := ∃ cs : List Bytes, (∀ c ∈ cs, IsFrame c) ∧ b = cs.flatten

/-- The first frame of a byte string is determined by its length field. -/
theorem IsFrame.append_inj {c c' s s' : Bytes} (h : IsFrame c) (h' : IsFrame c')
    (heq : c ++ s = c' ++ s') : c = c' ∧ s = s' := by
  have htake : c.take 3 = c'.take 3 := by
    have hc : (c ++ s).take 3 = c.take 3 :=
      List.take_append_of_le_length (le_trans (by decide) h.1)
    have hc' : (c' ++ s').take 3 = c'.take 3 :=
      List.take_append_of_le_length (le_trans (by decide) h'.1)
    rw [← hc, heq, hc']
  exact List.append_inj heq (by rw [h.2, h'.2, htake])

theorem IsFrames.of_append {c s : Bytes} (hc : IsFrame c) (h : IsFrames (c ++ s)) : IsFrames s := by
  obtain ⟨cs, hcs, heq⟩ := h
  cases cs with
  | nil =>
      have := hc.1
      simp only [List.flatten_nil, List.append_eq_nil_iff] at heq
      simp [heq.1] at this
  | cons c' cs =>
      obtain ⟨-, rfl⟩ := hc.append_inj (hcs c' (by simp)) heq
      exact ⟨cs, fun d hd => hcs d (by simp [hd]), rfl⟩

/-- Complete frames are left when complete frames are taken off the front. -/
theorem IsFrames.of_append_frames {a b : Bytes} (ha : IsFrames a) (h : IsFrames (a ++ b)) :
    IsFrames b := by
  obtain ⟨cs, hcs, rfl⟩ := ha
  induction cs with
  | nil => exact h
  | cons c cs ih =>
      obtain ⟨hc, hcs⟩ := List.forall_mem_cons.mp hcs
      rw [List.flatten_cons, List.append_assoc] at h
      exact ih hcs (h.of_append hc)

namespace H2GenericFrame

/-- The bytes `enc` are the frame `f`. -/
def Layout (f : H2GenericFrame) (enc : Bytes) : Prop :=
  ∃ length typ flags id, enc = length ++ typ :: flags :: (id ++ f.payload) ∧
    length.length = 3 ∧ ofBE length = f.payload.length ∧
    f.typ = typ.toNat ∧ f.flags = H2Flags.ofByte flags ∧
    id.length = 4 ∧ f.reserved = topBit (ofBE id) ∧ f.streamId = clearTopBit (ofBE id)

/-! ### The parser follows the layout -/

/-- What is left to do once the first five bytes are read. -/
theorem parse_apply {l : Bytes} (hl : l.length = 3) (typ flags : UInt8) (s : Bytes) :
    parse (l ++ typ :: flags :: s) =
      (bslice 4 s >>= fun id => bslice (ofBE l) id.2 >>= fun payload =>
        check (new typ.toNat (H2Flags.ofByte flags) (topBit (ofBE id.1))
          (clearTopBit (ofBE id.1)) payload.1) payload.2) := by
  have hread := reads_bslice l (n := 3) (by omega) (le_sysMaxsize (by omega)) (typ :: flags :: s)
  obtain ⟨b, bs, rfl⟩ := List.exists_cons_of_length_pos (l := l) (by omega)
  simp only [parse, bind_apply, List.cons_append] at hread ⊢
  rw [peek_cons, ok_bind, hread, ok_bind, reraise]
  simp only [bind_apply, next_cons, ok_bind, H2Flags.parse_byte, check_ok, pure_apply]

theorem reads_of_layout {f : H2GenericFrame} {enc : Bytes} (h : Layout f enc) :
    Reads parse enc f := by
  obtain ⟨length, typ, flags, id, rfl, hl, hlen, htyp, hflags, hid, hres, hsid⟩ := h
  intro s
  have hid4 := reads_bslice id (n := 4) (by omega) (le_sysMaxsize (by omega))
    (f.payload ++ s)
  have hpay := reads_bslice f.payload (n := f.payload.length) rfl (le_sysMaxsize f.payload_lt) s
  have hnew := new_self f
  rw [htyp, hflags, hres, hsid] at hnew
  simp only [List.append_assoc, List.cons_append]
  rw [parse_apply hl, hid4, ok_bind, hlen, hpay, ok_bind, hnew, check_ok]

theorem exists_layout {enc : Bytes} (h : IsFrame enc) : ∃ f, Layout f enc := by
  obtain ⟨h9, hlen⟩ := h
  obtain ⟨l₀, l₁, l₂, typ, flags, i₀, i₁, i₂, i₃, payload, rfl⟩ :
      ∃ l₀ l₁ l₂ typ flags i₀ i₁ i₂ i₃ payload,
        enc = l₀ :: l₁ :: l₂ :: typ :: flags :: i₀ :: i₁ :: i₂ :: i₃ :: payload := by
    match enc, h9 with
    | l₀ :: l₁ :: l₂ :: typ :: flags :: i₀ :: i₁ :: i₂ :: i₃ :: payload, _ =>
        exact ⟨_, _, _, _, _, _, _, _, _, _, rfl⟩
  have hpay : ofBE [l₀, l₁, l₂] = payload.length := by
    simp only [List.take, List.length_cons] at hlen
    omega
  have hlt : ofBE [l₀, l₁, l₂] < 256 ^ 3 := ofBE_lt _
  have hid : ofBE [i₀, i₁, i₂, i₃] < 256 ^ 4 := ofBE_lt _
  have hpost : postInit (clearTopBit (ofBE [i₀, i₁, i₂, i₃])) payload = .ok () := by
    rw [postInit_eq_ok, clearTopBit_eq hid]
    omega
  exact ⟨⟨typ.toNat, H2Flags.ofByte flags, topBit (ofBE [i₀, i₁, i₂, i₃]), _, payload, hpost⟩,
    [l₀, l₁, l₂], typ, flags, [i₀, i₁, i₂, i₃], rfl, rfl, hpay, rfl, rfl, rfl, rfl, rfl⟩

theorem parse_nil : parse [] = .error .stopIteration := rfl

/-- What an `H2Error` says about input that ends within a frame. -/
def IsFramingMessage (msg : String) : Prop :=
  msg = "Frame incomplete" ∨ ∃ s, msg = "Not enough data in iterator! Got " ++ reprBytes s

/-- Input that does not start with a complete frame ends within one. -/
theorem parse_of_not_frame_message {s : Bytes} (hne : s ≠ [])
    (h : ∀ enc s', s = enc ++ s' → ¬ IsFrame enc) :
    ∃ msg, IsFramingMessage msg ∧ parse s = .error (.h2Error msg) := by
  match s, hne with
  | [_], _ | [_, _], _ =>
      simp only [parse, bind_apply, peek_cons, ok_bind]
      rw [bslice_short (by simp) (by decide), error_bind]
      exact ⟨_, .inr ⟨_, rfl⟩, rfl⟩
  | l₀ :: l₁ :: l₂ :: s, _ =>
      have hread := reads_bslice [l₀, l₁, l₂] (n := 3) rfl (le_sysMaxsize (by simp))
      match s with
      | [] =>
          refine ⟨"Frame incomplete", .inl rfl, ?_⟩
          have hr := hread []
          simp only [List.cons_append, List.nil_append] at hr
          simp only [parse, bind_apply, peek_cons, ok_bind, hr, reraise, next_nil, error_bind]
          rfl
      | [typ] =>
          refine ⟨"Frame incomplete", .inl rfl, ?_⟩
          have hr := hread [typ]
          simp only [List.cons_append, List.nil_append] at hr
          simp only [parse, bind_apply, peek_cons, ok_bind, hr, reraise, next_nil, next_cons,
            error_bind]
          rfl
      | typ :: flags :: s =>
          have hparse := parse_apply (l := [l₀, l₁, l₂]) rfl typ flags s
          simp only [List.cons_append, List.nil_append] at hparse
          have hlt : ofBE [l₀, l₁, l₂] < 256 ^ 3 := ofBE_lt _
          by_cases h4 : s.length < 4
          · rw [hparse, bslice_short (by omega) (by decide), error_bind]
            exact ⟨_, .inr ⟨_, rfl⟩, rfl⟩
          · obtain ⟨id, s, rfl, hid⟩ : ∃ id s', s = id ++ s' ∧ id.length = 4 :=
              ⟨s.take 4, s.drop 4, (List.take_append_drop 4 s).symm, by
                rw [List.length_take]; omega⟩
            have hread4 := reads_bslice id (n := 4) (by omega)
              (le_sysMaxsize (by omega)) s
            by_cases hpay : s.length < ofBE [l₀, l₁, l₂]
            · rw [hparse, hread4, ok_bind,
                bslice_short (by exact_mod_cast hpay) (by exact_mod_cast le_sysMaxsize hlt),
                error_bind]
              exact ⟨_, .inr ⟨_, rfl⟩, rfl⟩
            · refine absurd ?_ (h ([l₀, l₁, l₂, typ, flags] ++ id ++ s.take (ofBE [l₀, l₁, l₂]))
                (s.drop (ofBE [l₀, l₁, l₂])) ?_)
              · have htake : List.take 3 ([l₀, l₁, l₂, typ, flags] ++ id ++
                    s.take (ofBE [l₀, l₁, l₂])) = [l₀, l₁, l₂] := rfl
                rw [IsFrame, htake]
                simp only [List.length_append, List.length_cons, List.length_nil,
                  List.length_take, hid]
                omega
              · simp

/-- Input that does not start with a complete frame is an `H2Error`. -/
theorem parse_of_not_frame {s : Bytes} (hne : s ≠ [])
    (h : ∀ enc s', s = enc ++ s' → ¬ IsFrame enc) : ∃ msg, parse s = .error (.h2Error msg) := by
  obtain ⟨msg, -, hmsg⟩ := parse_of_not_frame_message hne h
  exact ⟨msg, hmsg⟩

/-! ### The serialiser follows the layout -/

theorem isFrame_of_layout {f : H2GenericFrame} {enc : Bytes} (h : Layout f enc) : IsFrame enc := by
  obtain ⟨length, typ, flags, id, rfl, hl, hlen, -, -, hid, -, -⟩ := h
  have htake : (length ++ typ :: flags :: (id ++ f.payload)).take 3 = length := by
    rw [← hl, List.take_left]
  rw [IsFrame, htake]
  simp only [List.length_append, List.length_cons]
  omega

theorem toBytes_of_layout {f : H2GenericFrame} {enc : Bytes} (h : Layout f enc) :
    f.toBytes = .ok enc := by
  obtain ⟨length, typ, flags, id, rfl, hl, hlen, htyp, hflags, hid, hres, hsid⟩ := h
  have hlt := f.payload_lt
  have hidlt : ofBE id < 256 ^ 4 := ofBE_lt_of_length hid
  have htypb := typ.toNat_lt
  have hraw : withTopBit f.reserved f.streamId = ofBE id := by
    rw [hres, hsid, withTopBit_topBit hidlt]
  have htyp1 : toBE 1 typ.toNat = [typ] := by simp [toBE]
  rw [toBytes, htyp, hraw, intToBytes_of_lt (by omega) (by omega), ok_bind,
    intToBytes_of_lt (by omega) (by omega), ok_bind,
    intToBytes_of_lt (by omega) (by exact_mod_cast hidlt), ok_bind, pure_eq_ok]
  simp only [Int.toNat_natCast]
  rw [← hlen, ← hl, toBE_ofBE, htyp1, ← hid, toBE_ofBE, H2Flags.toBytes, hflags,
    H2Flags.toByte_ofByte]
  simp

theorem layout_of_typ {f : H2GenericFrame} (h0 : 0 ≤ f.typ) (h : f.typ ≤ 255) :
    ∃ enc, Layout f enc := by
  have hid := f.streamId_range
  have hlt := f.payload_lt
  obtain ⟨hr0, hr⟩ := withTopBit_range f.reserved hid.1 hid.2
  obtain ⟨hres, hsid⟩ := topBit_withTopBit f.reserved hid.1 hid.2
  have hraw : ofBE (toBE 4 (withTopBit f.reserved f.streamId).toNat) =
      (withTopBit f.reserved f.streamId).toNat := ofBE_toBE (by omega)
  refine ⟨_, toBE 3 f.payload.length, UInt8.ofNat f.typ.toNat, f.flags.toByte,
    toBE 4 (withTopBit f.reserved f.streamId).toNat, rfl, length_toBE _ _,
    ofBE_toBE (by omega), ?_, (H2Flags.ofByte_toByte _).symm, length_toBE _ _, ?_, ?_⟩
  · rw [UInt8.toNat_ofNat']
    omega
  · rw [hraw, hres]
  · rw [hraw, hsid]

end H2GenericFrame

/-! ### Streams of frames -/

open H2GenericFrame

theorem joinFrames_eq_ok {fs : List H2GenericFrame} {b : Bytes} :
    joinFrames fs = .ok b ↔
      ∃ encs, List.Forall₂ (fun f enc => f.toBytes = .ok enc) fs encs ∧ b = encs.flatten := by
  simp only [joinFrames, bind_eq_ok, mapM_eq_ok, pure_eq_ok, Except.ok.injEq, eq_comm (b := b)]

/-- The bytes `b` are the frames `fs`, one after the other. -/
def Layouts (fs : List H2GenericFrame) (b : Bytes) : Prop :=
  ∃ encs, List.Forall₂ Layout fs encs ∧ b = encs.flatten

theorem joinFrames_of_layouts {fs : List H2GenericFrame} {b : Bytes} (h : Layouts fs b) :
    joinFrames fs = .ok b := by
  obtain ⟨encs, hl, rfl⟩ := h
  exact joinFrames_eq_ok.mpr ⟨encs, hl.imp fun _ _ => toBytes_of_layout, rfl⟩

theorem parseGenericFrames_of_layouts {fs : List H2GenericFrame} {b : Bytes} (h : Layouts fs b) :
    parseGenericFrames b = .ok fs := by
  obtain ⟨encs, hl, rfl⟩ := h
  rw [parseGenericFrames, readAll_eq_ok]
  induction hl with
  | nil => exact .done parse_nil
  | cons hf _ ih => exact .more (reads_of_layout hf _) ih

theorem isFrames_of_layouts {fs : List H2GenericFrame} {b : Bytes} (h : Layouts fs b) :
    IsFrames b := by
  obtain ⟨encs, hl, rfl⟩ := h
  refine ⟨encs, ?_, rfl⟩
  induction hl with
  | nil => simp
  | cons hf _ ih => exact List.forall_mem_cons.mpr ⟨isFrame_of_layout hf, ih⟩

/-- Frames are parsed piece by piece, if the pieces are complete. -/
theorem parseGenericFrames_append {a b : Bytes} {fs gs : List H2GenericFrame} (ha : Layouts fs a)
    (hb : Layouts gs b) : parseGenericFrames (a ++ b) = .ok (fs ++ gs) := by
  obtain ⟨encs, hl, rfl⟩ := ha
  obtain ⟨encs', hl', rfl⟩ := hb
  refine parseGenericFrames_of_layouts ⟨encs ++ encs', List.rel_append hl hl', ?_⟩
  rw [List.flatten_append]

/-- Every byte string is the bytes of some frames, or an `H2Error`. -/
theorem parseGenericFrames_cases (b : Bytes) :
    (∃ fs, Layouts fs b) ∨ (∃ msg, parseGenericFrames b = .error (.h2Error msg)) ∧ ¬ IsFrames b := by
  induction hn : b.length using Nat.strong_induction_on generalizing b with
  | _ n ih =>
      by_cases hnil : b = []
      · subst hnil
        exact .inl ⟨[], [], .nil, rfl⟩
      · by_cases hframe : ∃ enc s, b = enc ++ s ∧ IsFrame enc
        · obtain ⟨enc, s, rfl, henc⟩ := hframe
          obtain ⟨f, hf⟩ := exists_layout henc
          have hlt : s.length < n := by
            have := henc.1
            rw [← hn, List.length_append]
            omega
          rcases ih s.length hlt s rfl with ⟨fs, encs, hl, rfl⟩ | ⟨⟨msg, hmsg⟩, hnot⟩
          · exact .inl ⟨f :: fs, enc :: encs, .cons hf hl, rfl⟩
          · refine .inr ⟨⟨msg, ?_⟩, ?_⟩
            · rw [parseGenericFrames] at hmsg ⊢
              rw [readAll_of_ok (reads_of_layout hf s), hmsg]
              rfl
            · intro hcs
              exact hnot (hcs.of_append henc)
        · have hno : ∀ enc s, b = enc ++ s → ¬ IsFrame enc := fun enc s hb h =>
            hframe ⟨enc, s, hb, h⟩
          obtain ⟨msg, hmsg⟩ := parse_of_not_frame hnil hno
          refine .inr ⟨⟨msg, ?_⟩, ?_⟩
          · rw [parseGenericFrames, readAll_of_error hmsg]
            rfl
          · rintro ⟨cs, hcs, rfl⟩
            cases cs with
            | nil => exact hnil rfl
            | cons c cs => exact hno c cs.flatten rfl (hcs c (by simp))

theorem layouts_of_isFrames {b : Bytes} (h : IsFrames b) : ∃ fs, Layouts fs b :=
  (parseGenericFrames_cases b).resolve_right fun hnot => hnot.2 h

/-- An `H2Error` says that the input ends within a frame. -/
theorem parseGenericFrames_message {b : Bytes} {msg : String}
    (h : parseGenericFrames b = .error (.h2Error msg)) : IsFramingMessage msg := by
  induction hn : b.length using Nat.strong_induction_on generalizing b with
  | _ n ih =>
      rw [parseGenericFrames] at h
      by_cases hnil : b = []
      · rw [hnil, readAll_of_error parse_nil] at h
        cases h
      by_cases hframe : ∃ enc s, b = enc ++ s ∧ IsFrame enc
      · obtain ⟨enc, s, rfl, henc⟩ := hframe
        obtain ⟨f, hf⟩ := exists_layout henc
        rw [readAll_of_ok (reads_of_layout hf s)] at h
        have hlt : s.length < n := by
          have := henc.1
          rw [← hn, List.length_append]
          omega
        refine ih s.length hlt ?_ rfl
        rw [parseGenericFrames]
        cases hs : readAll .stopIteration parse consumes_parse s with
        | ok fs =>
            rw [hs] at h
            cases h
        | error e =>
            rw [hs] at h
            cases h
            rfl
      · obtain ⟨msg', hmsg', hparse⟩ := parse_of_not_frame_message hnil fun enc s hb henc =>
          hframe ⟨enc, s, hb, henc⟩
        rw [readAll_of_error hparse] at h
        cases h
        exact hmsg'

theorem exists_layouts {fs : List H2GenericFrame} (h : ∀ f ∈ fs, 0 ≤ f.typ ∧ f.typ ≤ 255) :
    ∃ b, Layouts fs b := by
  induction fs with
  | nil => exact ⟨[], [], .nil, rfl⟩
  | cons f fs ih =>
      obtain ⟨h0, h255⟩ := h f (by simp)
      obtain ⟨enc, henc⟩ := layout_of_typ h0 h255
      obtain ⟨_, encs, hl, -⟩ := ih fun g hg => h g (by simp [hg])
      exact ⟨_, enc :: encs, .cons henc hl, rfl⟩

theorem typ_range_of_toBytes {f : H2GenericFrame} {b : Bytes} (h : f.toBytes = .ok b) :
    0 ≤ f.typ ∧ f.typ ≤ 255 := by
  obtain ⟨length, -, h⟩ := bind_eq_ok.mp h
  obtain ⟨typ, htyp, -⟩ := bind_eq_ok.mp h
  unfold intToBytes at htyp
  split at htyp
  · cases htyp
  · split at htyp
    · cases htyp
    · omega

/-- Frames that are written are read back. -/
theorem parseGenericFrames_of_joinFrames {fs : List H2GenericFrame} {b : Bytes}
    (h : joinFrames fs = .ok b) : parseGenericFrames b = .ok fs := by
  have htyp : ∀ f ∈ fs, 0 ≤ f.typ ∧ f.typ ≤ 255 := by
    obtain ⟨encs, hencs, -⟩ := joinFrames_eq_ok.mp h
    clear h
    induction hencs with
    | nil => exact List.forall_mem_nil _
    | cons henc _ ih => exact List.forall_mem_cons.mpr ⟨typ_range_of_toBytes henc, ih⟩
  obtain ⟨b', hlayouts⟩ := exists_layouts htyp
  have hjoin := joinFrames_of_layouts hlayouts
  rw [h] at hjoin
  cases hjoin
  exact parseGenericFrames_of_layouts hlayouts

/-- **The framing layer is a bijection.** Frames that are written are read back;
what is read writes back as the input, bit by bit; and the input is refused, with
an `H2Error`, exactly when it is not a concatenation of complete frames. -/
theorem parseGenericFrames_bijective :
    (∀ fs : List H2GenericFrame, (∀ f ∈ fs, 0 ≤ f.typ ∧ f.typ ≤ 255) →
      ∃ b, joinFrames fs = .ok b ∧ parseGenericFrames b = .ok fs) ∧
    (∀ b, (∃ fs, parseGenericFrames b = .ok fs ∧ joinFrames fs = .ok b) ∨
      ∃ msg, parseGenericFrames b = .error (.h2Error msg)) ∧
    ∀ b, (∃ msg, parseGenericFrames b = .error (.h2Error msg)) ↔ ¬ IsFrames b := by
  refine ⟨?_, ?_, ?_⟩
  · intro fs h
    obtain ⟨b, hb⟩ := exists_layouts h
    exact ⟨b, joinFrames_of_layouts hb, parseGenericFrames_of_layouts hb⟩
  · intro b
    rcases parseGenericFrames_cases b with ⟨fs, hb⟩ | ⟨hmsg, -⟩
    · exact .inl ⟨fs, parseGenericFrames_of_layouts hb, joinFrames_of_layouts hb⟩
    · exact .inr hmsg
  · intro b
    rcases parseGenericFrames_cases b with ⟨fs, hb⟩ | ⟨hmsg, hnot⟩
    · constructor
      · intro ⟨msg, hmsg⟩
        rw [parseGenericFrames_of_layouts hb] at hmsg
        cases hmsg
      · intro hnot
        exact absurd (isFrames_of_layouts hb) hnot
    · exact ⟨fun _ => hnot, fun _ => hmsg⟩

end HttpGarden.Http2
