import HttpGarden.Http1.Composition
import HttpGarden.Http1.Failures

/-!
# HttpGarden.Http1.Cut

**Streams that are cut off** at some byte: what `parse_request_stream` makes of the beginning of a
stream, against what it makes of the whole.

No request comes out of the beginning that is not in the whole (`parseRequestStream_of_cut`). The last
one may have a shorter body, as `Content-Length` is not checked against what there is; and a compressed
body that is cut may be an exception that `parse_request_stream` does not catch.
-/

namespace HttpGarden

open Lib Pattern

variable {gunzip : Bytes → Except GzipError Bytes}

/-! ### Faults stay -/

theorem LargeChunkHeader.append {rest : Bytes} (h : LargeChunkHeader rest) (b : Bytes) :
    LargeChunkHeader (rest ++ b) := by
  obtain ⟨length, rest', hfirst, hlarge⟩ := h
  exact ⟨length, rest' ++ b, chunkHeader_append hfirst b, hlarge⟩

theorem ReachesLargeChunk.append {rest : Bytes} (h : ReachesLargeChunk rest) (b : Bytes) :
    ReachesLargeChunk (rest ++ b) := by
  induction h with
  | here hlarge => exact .here (hlarge.append b)
  | later hchunk hn _ ih => exact .later (parseChunk_append hchunk b) hn ih

/-! ### One body -/

/-- What has been decompressed does not change when more of the file comes. -/
def GunzipExtends (gunzip : Bytes → Except GzipError Bytes) : Prop :=
  ∀ s b d d', gunzip s = .ok d → gunzip (s ++ b) = .ok d' → d <+: d'

/-- What reading a body comes to when only the beginning is there: the same, a body that is cut, or
one of the exceptions. -/
inductive BodyCut (gunzip : Bytes → Except GzipError Bytes) (f : Framing) (s b : Bytes) : Prop
  | same {body rest : Bytes} (h : readBody gunzip f s false = .ok (body, rest))
      (hwhole : readBody gunzip f (s ++ b) false = .ok (body, rest ++ b))
  | short {body body' rest : Bytes} (h : readBody gunzip f s false = .ok (body, []))
      (hwhole : readBody gunzip f (s ++ b) false = .ok (body', rest)) (hbody : body <+: body')
  | rejected {e : PyError} (h : readBody gunzip f s false = .error e) (he : e.isValueError = true)
  | gzip {e : GzipError} (h : readBody gunzip f s false = .error (.gzip e))

/-- **A body that is cut**, where the whole is at no fault. -/
theorem bodyCut (hgunzip : GunzipExtends gunzip) (f : Framing) (s b : Bytes)
    (hwhole : RaisesValueError (readBody gunzip f (s ++ b) false)) : BodyCut gunzip f s b := by
  cases hread : readBody gunzip f s false with
  | error e =>
      by_cases he : e.isValueError = true
      · exact .rejected hread he
      · -- a large chunk would be in the whole as well
        have hfault : BodyFault gunzip f s := by
          by_contra hno
          exact he ((readBody_raises_iff gunzip f s false).mpr hno e hread)
        rcases hfault with ⟨hchunked, hgzipped, hlarge⟩ | ⟨hchunked, hgzipped, cl, e', hcl, hbad⟩
        · exact absurd (.inl ⟨hchunked, hgzipped, hlarge.append b⟩)
            ((readBody_raises_iff gunzip f (s ++ b) false).mp hwhole)
        · refine .gzip (e := e') ?_
          unfold readBody
          simp [hchunked, hgzipped, hcl, gzipDecompress, hbad]
  | ok m =>
      obtain ⟨body, rest⟩ := m
      by_cases hlong : f.chunked = false → ∀ cl ∈ f.cl, cl ≤ s.length
      · exact .same hread (readBody_append hread hlong b)
      · push Not at hlong
        obtain ⟨hchunked, cl, hcl, hlt⟩ := hlong
        rw [Option.mem_def] at hcl
        have htake : s.take cl = s := List.take_of_length_le hlt.le
        have hdrop : s.drop cl = [] := List.drop_eq_nil_of_le hlt.le
        have hprefix : (s ++ b).take cl = s ++ b.take (cl - s.length) := by
          rw [List.take_append, htake]
        cases hgzipped : f.gzipped with
        | false =>
            have hshort : readBody gunzip f s false = .ok (s, []) := by
              unfold readBody
              simp [hchunked, hgzipped, hcl, htake, hdrop]
            have hwhole : readBody gunzip f (s ++ b) false =
                .ok (s ++ b.take (cl - s.length), (s ++ b).drop cl) := by
              unfold readBody
              simp only [hchunked, hgzipped, hcl, hprefix]
              rfl
            exact .short hshort hwhole (List.prefix_append _ _)
        | true =>
            have hgz (t : Bytes) : readBody gunzip f t false =
                (gzipDecompress gunzip (t.take cl)).map fun body => (body, t.drop cl) := by
              unfold readBody
              simp only [hchunked, hgzipped, hcl]
              cases gzipDecompress gunzip (t.take cl) <;> rfl
            rw [hgz, htake, gzipDecompress] at hread
            rw [hgz, hprefix, gzipDecompress] at hwhole
            cases hs : gunzip s with
            | error e =>
                rw [hs] at hread
                cases hread
            | ok d =>
                cases hsb : gunzip (s ++ b.take (cl - s.length)) with
                | error e =>
                    rw [hsb] at hwhole
                    exact absurd (hwhole (.gzip e) rfl) Bool.false_ne_true
                | ok d' =>
                    have hcut : readBody gunzip f s false = .ok (d, []) := by
                      rw [hgz, htake, gzipDecompress, hs, hdrop]
                      rfl
                    have hcomplete : readBody gunzip f (s ++ b) false = .ok (d', (s ++ b).drop cl) := by
                      rw [hgz, hprefix, gzipDecompress, hsb]
                      rfl
                    exact .short hcut hcomplete (hgunzip s _ d d' hs hsb)

/-! ### One request -/

/-- Behind a head that is read, the body decides. -/
theorem parseRequest_of_head {raw rest₁ rest₂ : Bytes} {m : Bytes × Bytes × Option Bytes}
    {headers : List Header} {f : Framing} (hline : requestLine.first raw = some (m, rest₁))
    (hheaders : parseHeaders rest₁ = .ok (headers, rest₂)) (hscan : scanHeaders headers = .ok f) :
    parseRequest gunzip raw = (readBody gunzip f rest₂ false).map fun t =>
      (⟨m.1, m.2.1, headers, t.1, m.2.2.getD (bytes "0.9")⟩, t.2) := by
  obtain ⟨method, uri, version⟩ := m
  unfold parseRequest parseBody
  rw [hline]
  simp only [hheaders, hscan, ok_bind]
  cases readBody gunzip f rest₂ false <;> rfl

/-- What parsing the beginning `p` of a request comes to. -/
inductive RequestCut (gunzip : Bytes → Except GzipError Bytes) (p b : Bytes) : Prop
  | same {r : HTTPRequest} {rest : Bytes} (h : parseRequest gunzip p = .ok (r, rest))
      (hwhole : parseRequest gunzip (p ++ b) = .ok (r, rest ++ b))
  | short {r : HTTPRequest} {body rest : Bytes}
      (h : parseRequest gunzip p = .ok ({ r with body }, []))
      (hwhole : parseRequest gunzip (p ++ b) = .ok (r, rest)) (hbody : body <+: r.body)
  | rejected {e : PyError} (h : parseRequest gunzip p = .error e) (he : e.isValueError = true)
  | gzip {e : GzipError} (h : parseRequest gunzip p = .error (.gzip e))

/-- **A request that is cut.** -/
theorem requestCut (hgunzip : GunzipExtends gunzip) (p b : Bytes)
    (hwhole : RaisesValueError (parseRequest gunzip (p ++ b))) : RequestCut gunzip p b := by
  cases hline : requestLine.first p with
  | none => exact .rejected (by rw [parseRequest, hline]) rfl
  | some m =>
      obtain ⟨m, rest₁⟩ := m
      cases hheaders : parseHeaders rest₁ with
      | error e =>
          refine .rejected (e := e) ?_ (parseHeaders_raises rest₁ e hheaders)
          rw [parseRequest, hline]
          show (parseHeaders rest₁ >>= _) = _
          rw [hheaders]
          rfl
      | ok t =>
          obtain ⟨headers, rest₂⟩ := t
          cases hscan : scanHeaders headers with
          | error e =>
              refine .rejected (e := e) ?_ (scanHeaders_raises headers e hscan)
              rw [parseRequest, hline]
              simp only [hheaders, ok_bind, parseBody, hscan, error_bind]
          | ok f =>
              -- the whole has the same head
              have hp : parseRequest gunzip p = (readBody gunzip f rest₂ false).map _ :=
                parseRequest_of_head hline hheaders hscan
              have hpb : parseRequest gunzip (p ++ b) = (readBody gunzip f (rest₂ ++ b) false).map _ :=
                parseRequest_of_head (requestLine_append hline (lf_mem_of_parseHeaders hheaders) b)
                  (parseHeaders_append hheaders b) hscan
              have hbody : RaisesValueError (readBody gunzip f (rest₂ ++ b) false) := by
                intro e he
                refine hwhole e ?_
                rw [hpb, he]
                rfl
              cases bodyCut hgunzip f rest₂ b hbody with
              | same h hwhole =>
                  rw [h] at hp
                  rw [hwhole] at hpb
                  exact .same hp hpb
              | @short body body' _ h hwhole hprefix =>
                  rw [h] at hp
                  rw [hwhole] at hpb
                  exact .short (r := ⟨m.1, m.2.1, headers, body', m.2.2.getD (bytes "0.9")⟩) hp hpb
                    hprefix
              | rejected h he =>
                  rw [h] at hp
                  exact .rejected hp he
              | gzip h =>
                  rw [h] at hp
                  exact .gzip hp

/-! ### Streams -/

/-- What the requests of the beginning are, against those of the whole. -/
def CutOf (rs rs' : List HTTPRequest) (rest' : Bytes) : Prop :=
  rs' <+: rs ∨ ∃ before r body, before ++ [r] <+: rs ∧ body <+: r.body ∧
    rs' = before ++ [{ r with body }] ∧ rest' = []

theorem CutOf.cons {rs rs' : List HTTPRequest} {rest' : Bytes} (h : CutOf rs rs' rest')
    (r : HTTPRequest) : CutOf (r :: rs) (r :: rs') rest' := by
  rcases h with h | ⟨before, r', body, hbefore, hbody, rfl, hrest⟩
  · exact .inl (List.cons_prefix_cons.mpr ⟨rfl, h⟩)
  · exact .inr ⟨r :: before, r', body, List.cons_prefix_cons.mpr ⟨rfl, hbefore⟩, hbody, rfl, hrest⟩

theorem parseRequestStream_of_rejected {p : Bytes} {e : PyError}
    (h : parseRequest gunzip p = .error e) (he : e.isValueError = true) :
    ∃ rest, parseRequestStream gunzip p = .ok ([], rest) := by
  by_cases hp : p = []
  · exact ⟨[], by rw [hp, parseRequestStream_nil]⟩
  · exact ⟨p, by rw [parseRequestStream_of_error hp h, if_pos he]⟩

theorem parseRequestStream_of_gzip {p : Bytes} {e : GzipError}
    (h : parseRequest gunzip p = .error (.gzip e)) :
    parseRequestStream gunzip p = .error (.gzip e) := by
  have hp : p ≠ [] := by
    rintro rfl
    cases h
  rw [parseRequestStream_of_error hp h]
  rfl

/-- **A stream that is cut off** gives requests of the whole stream, but for the body of the last one.
The only exception that it can raise is one about a compressed body. -/
theorem parseRequestStream_of_cut {payload rest : Bytes} {rs : List HTTPRequest}
    (hgunzip : GunzipExtends gunzip) (h : parseRequestStream gunzip payload = .ok (rs, rest))
    {p : Bytes} (hp : p <+: payload) :
    (∃ rs' rest', parseRequestStream gunzip p = .ok (rs', rest') ∧ CutOf rs rs' rest') ∨
      ∃ e, parseRequestStream gunzip p = .error (.gzip e) := by
  have hstream := parseRequestStream_eq_ok.mp h
  clear h
  induction hstream generalizing p with
  | done =>
      rw [List.prefix_nil.mp hp]
      exact .inl ⟨[], [], parseRequestStream_nil, .inl List.prefix_rfl⟩
  | stop _ h he =>
      obtain ⟨b, rfl⟩ := hp
      have hwhole : RaisesValueError (parseRequest gunzip (p ++ b)) := by
        intro e' he'
        cases h.symm.trans he'
        exact he
      cases requestCut hgunzip p b hwhole with
      | same _ hwhole => cases h.symm.trans hwhole
      | short _ hwhole _ => cases h.symm.trans hwhole
      | rejected hcut he =>
          obtain ⟨rest', hrest⟩ := parseRequestStream_of_rejected hcut he
          exact .inl ⟨[], rest', hrest, .inl List.prefix_rfl⟩
      | gzip hcut => exact .inr ⟨_, parseRequestStream_of_gzip hcut⟩
  | @more s s' rest r rs h _ ih =>
      obtain ⟨b, rfl⟩ := hp
      have hwhole : RaisesValueError (parseRequest gunzip (p ++ b)) := by
        intro e' he'
        cases h.symm.trans he'
      cases requestCut hgunzip p b hwhole with
      | same hcut hwhole =>
          cases h.symm.trans hwhole
          rw [parseRequestStream_of_ok hcut]
          rcases ih (List.prefix_append _ b) with ⟨rs', rest', hrest, hcutOf⟩ | ⟨e, he⟩
          · exact .inl ⟨r :: rs', rest', by rw [hrest]; rfl, hcutOf.cons r⟩
          · exact .inr ⟨e, by rw [he]; rfl⟩
      | @short r' body _ hcut hwhole hbody =>
          cases h.symm.trans hwhole
          refine .inl ⟨[{ r with body }], [], ?_, .inr ⟨[], r, body, ?_, hbody, rfl, rfl⟩⟩
          · rw [parseRequestStream_of_ok hcut, parseRequestStream_nil]
            rfl
          · exact List.cons_prefix_cons.mpr ⟨rfl, List.nil_prefix⟩
      | rejected hcut he =>
          obtain ⟨rest', hrest⟩ := parseRequestStream_of_rejected hcut he
          exact .inl ⟨[], rest', hrest, .inl List.nil_prefix⟩
      | gzip hcut => exact .inr ⟨_, parseRequestStream_of_gzip hcut⟩

/-- Two requests, cut in the second one. -/
theorem parseRequestStream_of_cut_pipelined :
    (∃ rs' rest', parseRequestStream (fun _ => .error .badGzipFile)
        (bytes "GET /a HTTP/1.1\r\n\r\nGET /b HT") = .ok (rs', rest') ∧
      CutOf [⟨bytes "GET", bytes "/a", [], [], bytes "1.1"⟩,
        ⟨bytes "GET", bytes "/b", [], [], bytes "1.1"⟩] rs' rest') ∨
    ∃ e, parseRequestStream (fun _ => .error .badGzipFile)
      (bytes "GET /a HTTP/1.1\r\n\r\nGET /b HT") = .error (.gzip e) := by
  have hfirst : parseRequest (fun _ => .error .badGzipFile)
      (bytes "GET /a HTTP/1.1\r\n\r\nGET /b HTTP/1.1\r\n\r\n") =
        .ok (⟨bytes "GET", bytes "/a", [], [], bytes "1.1"⟩, bytes "GET /b HTTP/1.1\r\n\r\n") := by
    decide
  have hsecond : parseRequest (fun _ => .error .badGzipFile) (bytes "GET /b HTTP/1.1\r\n\r\n") =
      .ok (⟨bytes "GET", bytes "/b", [], [], bytes "1.1"⟩, []) := by
    decide
  refine parseRequestStream_of_cut ?_
    (parseRequestStream_eq_ok.mpr (.more hfirst (.more hsecond .done))) ?_
  · intro s b d d' h
    cases h
  · exact ⟨bytes "TP/1.1\r\n\r\n", by decide⟩

end HttpGarden
