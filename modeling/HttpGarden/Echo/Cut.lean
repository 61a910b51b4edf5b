import HttpGarden.Echo.H1
import HttpGarden.Http1.Composition
import HttpGarden.Http1.Failures

/-!
# HttpGarden.Echo.Cut

**Echoed responses that are cut off**, as they are when a connection ends or the tools stop waiting.

`parse_response` takes a body that is shorter than its `Content-Length`, and nothing of a response
whose head is not complete. The collector of `targets.py` then gives the bodies up to the cut, or,
behind a complete response, does not end: `collectLoop_cut`.
-/

namespace HttpGarden

open Lib Pattern

variable {gunzip : Bytes → Except GzipError Bytes}

/-- What stands in front of `n` bytes that are echoed. -/
def echoHead (n : Nat) : Bytes :=
  bytes "HTTP/1.1 200 OK\r\nCache-Control: public, max-age=2592000\r\nServer: echo-python\r\nContent-Length: " ++
    digitBytes 10 n ++ bytes "\r\n\r\n"

theorem echoResponse_eq_append (b : Bytes) : echoResponse b = echoHead b.length ++ b := rfl

theorem echoHead_eq (n : Nat) :
    echoHead n = bytes "HTTP/1.1" ++ (bytes " " ++ (bytes "200" ++ (bytes " " ++ (bytes "OK" ++
      (crlf ++ ((echoHeaders n).flatMap unparseHeader ++ crlf)))))) := by
  have h := echoResponse_eq (zeros n)
  rw [echoResponse_eq_append, zeros, List.length_replicate] at h
  simp only [← List.append_assoc] at h ⊢
  exact List.append_cancel_right h

/-! ### One response -/

/-- The line of an echoed response, whatever comes after it. -/
theorem responseLine_echo (s : Bytes) :
    responseLine.first (bytes "HTTP/1.1" ++ (bytes " " ++ (bytes "200" ++ (bytes " " ++
      (bytes "OK" ++ (crlf ++ s)))))) =
      some ((bytes "HTTP/1.1", bytes "200", bytes "OK"), s) := by
  obtain ⟨hcode, hreason, hstop⟩ := status_ok
  exact responseLine_first (by simp [IsToken, bytes, isSpace]) hcode hreason hstop s

/-- **A body that is cut off** is taken as it is. -/
theorem parseResponse_echoHead {n : Nat} (hn : n ≤ sysMaxsize) (t : Bytes) :
    parseResponse gunzip (echoHead n ++ t) =
      .ok (⟨bytes "1.1", bytes "200", bytes "OK", echoHeaders n, t.take n⟩, t.drop n) := by
  obtain ⟨hcode, hreason, hstop⟩ := status_ok
  have hbody : parseBody gunzip (echoHeaders n) t true = .ok (t.take n, t.drop n) := by
    rw [parseBody, scanHeaders_echoHeaders hn, ok_bind]
    rfl
  rw [echoHead_eq]
  simp only [List.append_assoc]
  exact parseResponse_of_parts hcode hreason hstop (isHeader_echoHeaders n) hbody

/-- A line feed ends the first line of a response. -/
theorem lf_mem_of_responseLine {s s' : Bytes} {m : Bytes × Bytes × Bytes}
    (h : responseLine.Matches s m s') : lf ∈ s := by
  simp only [responseLine, matches_bind, matches_many1, matches_lazyMany, matches_pure] at h
  obtain ⟨v, s₁, ⟨-, rfl, -⟩, b₁, s₂, ⟨-, rfl, -⟩, c, s₃, ⟨-, rfl, -⟩, b₂, s₄, ⟨-, rfl, -⟩,
    r, s₅, ⟨rfl, -⟩, u, s₆, hn, -, rfl⟩ := h
  have hlf := lf_mem_of_newline hn
  simp [hlf]

/-- Headers without their blank line are rejected. -/
theorem parseHeaders_of_cut {raw : Bytes} {headers : List Header}
    (h : parseHeaders raw = .ok (headers, [])) {t : Bytes} (ht : t <+: raw) (hne : t ≠ raw) :
    ∃ e, parseHeaders t = .error e ∧ e.isValueError = true := by
  obtain ⟨u, rfl⟩ := ht
  cases hparse : parseHeaders t with
  | error e => exact ⟨e, rfl, parseHeaders_raises t e hparse⟩
  | ok m =>
      obtain ⟨headers', rest⟩ := m
      have happend := parseHeaders_append hparse u
      rw [h, Except.ok.injEq, Prod.mk.injEq] at happend
      have hu : u = [] := (List.append_eq_nil_iff.mp happend.2.symm).2
      exact absurd (by rw [hu, List.append_nil]) hne

/-- A prefix ends in the first part, or goes on into the second. -/
theorem prefix_append_cases {α : Type} {p a b : List α} (h : p <+: a ++ b) :
    p <+: a ∨ ∃ t, p = a ++ t ∧ t <+: b := by
  rcases List.prefix_or_prefix_of_prefix h (List.prefix_append a b) with hpa | ⟨t, rfl⟩
  · exact .inl hpa
  · exact .inr ⟨t, rfl, (List.prefix_append_right_inj a).mp h⟩

/-- **A head that is cut off** is rejected. -/
theorem parseResponse_of_cut {n : Nat} {p : Bytes} (hp : p <+: echoHead n) (hne : p ≠ echoHead n) :
    ∃ e, parseResponse gunzip p = .error e ∧ e.isValueError = true := by
  have hassoc : echoHead n = (bytes "HTTP/1.1 200 OK\r" ++ [lf]) ++
      ((echoHeaders n).flatMap unparseHeader ++ crlf) := by
    rw [echoHead_eq]
    simp only [← List.append_assoc]
    rfl
  rw [hassoc] at hp hne
  rw [List.append_assoc] at hp
  rcases prefix_append_cases hp with hline | ⟨t, rfl, ht⟩
  · -- there is no line
    have hnone : responseLine.first p = none := by
      rw [first_eq_none_iff]
      intro m s' hm
      exact absurd (hline.subset (lf_mem_of_responseLine hm)) (by decide)
    exact ⟨_, by rw [parseResponse, hnone], rfl⟩
  · cases t with
    | nil =>
        have hnone : responseLine.first (bytes "HTTP/1.1 200 OK\r" ++ []) = none := by
          rw [first_eq_none_iff]
          intro m s' hm
          exact absurd (lf_mem_of_responseLine hm) (by decide)
        exact ⟨_, by rw [parseResponse, hnone], rfl⟩
    | cons c t =>
        rw [List.singleton_append, List.cons_prefix_cons] at ht
        obtain ⟨rfl, ht⟩ := ht
        have hline : responseLine.first (bytes "HTTP/1.1 200 OK\r" ++ lf :: t) =
            some ((bytes "HTTP/1.1", bytes "200", bytes "OK"), t) := responseLine_echo t
        have hheaders : parseHeaders ((echoHeaders n).flatMap unparseHeader ++ crlf) =
            .ok (echoHeaders n, []) := by
          have := parseHeaders_unparse (isHeader_echoHeaders n) []
          rwa [List.append_nil] at this
        obtain ⟨e, he, hvalue⟩ := parseHeaders_of_cut hheaders ht fun heq => hne (by rw [heq]; simp)
        refine ⟨e, ?_, hvalue⟩
        rw [parseResponse, hline]
        show (parseHeaders t >>= _) = _
        rw [he]
        rfl

/-! ### The collector -/

theorem collectLoop_again_echo {b : Bytes} (hb : b.length ≤ sysMaxsize) {st : CollectState} {s : Bytes}
    (hs : st.remaining = echoResponse b ++ s) :
    ∃ r, collectLoop gunzip st = .again ⟨s, some (r, s), st.pieces ++ [b]⟩ := by
  have hparse : parseResponse gunzip st.remaining =
      .ok (⟨bytes "1.1", bytes "200", bytes "OK", echoHeaders b.length, b⟩, s) := by
    rw [hs]
    exact parseResponse_echoResponse hb s
  refine ⟨⟨bytes "1.1", bytes "200", bytes "OK", echoHeaders b.length, b⟩, ?_⟩
  rw [collectLoop_of_ok gunzip st hparse, CollectState.append, collectPiece, if_pos rfl]

/-- After complete responses, the collector has their bodies, and has kept the last of them. -/
theorem collectLoop_reaches_tail {bs : List Bytes} (hbs : ∀ b ∈ bs, b.length ≤ sysMaxsize) (p : Bytes) :
    ∃ response, (collectLoop gunzip).Reaches (.init (bs.flatMap echoResponse ++ p)) ⟨p, response, bs⟩ ∧
      (bs ≠ [] → ∃ r, response = some (r, p)) := by
  induction bs using List.reverseRecOn generalizing p with
  | nil => exact ⟨none, .refl _ _, fun h => absurd rfl h⟩
  | append_singleton bs b ih =>
      have hb : b.length ≤ sysMaxsize := hbs b (List.mem_append_right bs (List.mem_singleton_self b))
      obtain ⟨response, hreach, -⟩ := ih (fun a ha => hbs a (List.mem_append_left [b] ha))
        (echoResponse b ++ p)
      rw [List.flatMap_append, List.flatMap_singleton, List.append_assoc]
      obtain ⟨r, hagain⟩ : ∃ r, collectLoop gunzip ⟨echoResponse b ++ p, response, bs⟩ =
          .again ⟨p, some (r, p), bs ++ [b]⟩ := collectLoop_again_echo hb rfl
      exact ⟨some (r, p), hreach.step hagain, fun _ => ⟨r, rfl⟩⟩

/-- A tail that is rejected after a response is taken for another one, again and again. -/
theorem collectLoop_not_terminates {p : Bytes} {e : PyError} {r : HTTPResponse} {pieces : List Bytes}
    (hne : p ≠ []) (hparse : parseResponse gunzip p = .error e) (he : e.isValueError = true) :
    ¬ (collectLoop gunzip).Terminates ⟨p, some (r, p), pieces⟩ :=
  Loop.not_terminates_of_invariant
    (I := fun st => st.remaining = p ∧ ∃ r, st.response = some (r, p))
    (fun st hst => by
      obtain ⟨hremaining, r, hresponse⟩ := hst
      exact ⟨_, collectLoop_of_stale gunzip (hremaining ▸ hne) (hremaining ▸ hparse) he hresponse,
        rfl, r, rfl⟩)
    ⟨rfl, r, rfl⟩

/-- What the collector comes to on responses to `bs` and the beginning `p` of another one. -/
def CollectsCut (gunzip : Bytes → Except GzipError Bytes) (bs : List Bytes) (p : Bytes) : Prop :=
  (bs = [] → (collectLoop gunzip).Returns (.init p) (.ok [stripHttp09Headers p])) ∧
    (bs ≠ [] → ¬ (collectLoop gunzip).Terminates (.init (bs.flatMap echoResponse ++ p)))

/-- **Where the echoed bytes are cut off** in a response to `b`: behind its head the collector gives
what there is of `b`; in its head, all but the first response makes the collector go on without end. -/
theorem collectLoop_cut {bs : List Bytes} {b p : Bytes} (hbs : ∀ a ∈ bs, a.length ≤ sysMaxsize)
    (hb : b.length ≤ sysMaxsize) (hp : p <+: echoResponse b) :
    (p = [] ∧ (collectLoop gunzip).Returns (.init (bs.flatMap echoResponse ++ p)) (.ok bs)) ∨
    (∃ b', b' <+: b ∧ p = echoHead b.length ++ b' ∧
      (collectLoop gunzip).Returns (.init (bs.flatMap echoResponse ++ p)) (.ok (bs ++ [b']))) ∨
    (p ≠ [] ∧ p <+: echoHead b.length ∧ p ≠ echoHead b.length ∧ CollectsCut gunzip bs p) := by
  obtain ⟨response, hreach, hlater⟩ : ∃ response, (collectLoop gunzip).Reaches
      (.init (bs.flatMap echoResponse ++ p)) ⟨p, response, bs⟩ ∧
      (bs ≠ [] → ∃ r, response = some (r, p)) := collectLoop_reaches_tail hbs p
  have hbody {b' : Bytes} (hb' : b' <+: b) (hpb : p = echoHead b.length ++ b') :
      (collectLoop gunzip).Returns (.init (bs.flatMap echoResponse ++ p)) (.ok (bs ++ [b'])) := by
    have hparse : parseResponse gunzip p =
        .ok (⟨bytes "1.1", bytes "200", bytes "OK", echoHeaders b.length, b'⟩, []) := by
      rw [hpb, parseResponse_echoHead hb, List.take_of_length_le hb'.length_le,
        List.drop_eq_nil_of_le hb'.length_le]
    exact ⟨_, hreach.step (collectLoop_of_ok gunzip _ hparse), rfl⟩
  by_cases hnil : p = []
  · refine .inl ⟨hnil, ?_⟩
    refine ⟨_, hreach, ?_⟩
    rw [collectLoop, if_pos hnil]
  · rw [echoResponse_eq_append] at hp
    rcases prefix_append_cases hp with hhead | ⟨b', rfl, hb'⟩
    · by_cases hwhole : p = echoHead b.length
      · exact .inr (.inl ⟨[], List.nil_prefix, by rw [hwhole, List.append_nil],
          hbody List.nil_prefix (by rw [hwhole, List.append_nil])⟩)
      · refine .inr (.inr ⟨hnil, hhead, hwhole, ?_⟩)
        obtain ⟨e, hparse, he⟩ : ∃ e, parseResponse gunzip p = .error e ∧ e.isValueError = true :=
          parseResponse_of_cut hhead hwhole
        refine ⟨fun _ => ⟨_, .refl _ _, ?_⟩, fun hbs => ?_⟩
        · rw [collectLoop, CollectState.init, if_neg hnil, hparse]
          simp only [he, if_true, List.nil_append]
        · obtain ⟨r, rfl⟩ := hlater hbs
          intro hterminates
          obtain ⟨result, hreturns⟩ := hterminates
          exact collectLoop_not_terminates hnil hparse he ⟨result, hreturns.at_reached hreach⟩
    · exact .inr (.inl ⟨b', hb', rfl, hbody hb' rfl⟩)

end HttpGarden
