import HttpGarden.Http1.Chunked
import HttpGarden.Lib.Settled

/-!
# HttpGarden.Http1.Composition

**Parsing a stream composes**: what `parse_request` takes off the front of a stream is the
same whatever follows, if the stream holds the whole body that was announced.

Every pattern of the parsers is settled on the input it was matched on. The line feeds of
the headers are what settles the request line: its last `\s+` may run over any number of
line ends, but not over the first header.
-/

namespace HttpGarden

open Lib Pattern

/-! ### Line breaks -/

/-- No line feed. -/
abbrev notLf : UInt8 → Bool := (· != lf)

theorem leaves_notLf {s : Bytes} : Leaves [notLf] s ↔ lf ∈ s := by
  rw [leaves_singleton]
  constructor
  · intro ⟨t, ht, hlf⟩
    have heq : t = lf := by simpa using hlf
    exact heq ▸ ht
  · intro h
    exact ⟨lf, h, rfl⟩

theorem newline_settled {s : Bytes} (hs : lf ∈ s) : newline.Settled s := by
  refine (settled_one (List.ne_nil_of_mem hs)).opt.bind fun o s' hm => ?_
  -- a carriage return at the very end could still become a line break
  have hs' : s' ≠ [] := by
    rcases matches_opt.mp hm with ⟨c, -, hone⟩ | ⟨-, rfl⟩
    · obtain ⟨rfl, hcr⟩ := matches_one.mp hone
      have hc : c = cr := beq_iff_eq.mp hcr
      rcases List.mem_cons.mp hs with h | h
      · rw [hc] at h
        exact absurd h (by decide)
      · exact List.ne_nil_of_mem h
    · exact List.ne_nil_of_mem hs
  exact (settled_one hs').bind fun _ _ _ => settled_pure _ _

/-- A line break takes one line feed. -/
theorem leaves_after_newline {cs : List (UInt8 → Bool)} {s s' : Bytes} {u : Unit}
    (hs : Leaves (notLf :: cs) s) (h : newline.Matches s u s') : Leaves cs s' := by
  rcases matches_newline.mp h with rfl | rfl
  · exact hs.tail_of_cons
  · have hcr : ∀ t ∈ [cr], notLf t = true := by
      intro t ht
      rw [List.mem_singleton.mp ht]
      rfl
    exact (Leaves.of_run (r := [cr]) hcr hs).tail_of_cons

theorem leaves_newline {cs : List (UInt8 → Bool)} {s s' : Bytes} {u : Unit}
    (h : newline.Matches s u s') (hs : Leaves cs s') : Leaves (notLf :: cs) s := by
  rcases matches_newline.mp h with rfl | rfl
  · exact ⟨[], lf, s', rfl, rfl, hs⟩
  · exact ⟨[cr], lf, s', rfl, rfl, hs⟩

theorem lf_mem_of_newline {s s' : Bytes} {u : Unit} (h : newline.Matches s u s') : lf ∈ s :=
  leaves_notLf.mp (leaves_newline h trivial)

theorem headerTerminator_settled {s : Bytes} (hs : Leaves [notLf, notLf] s) :
    headerTerminator.Settled s := by
  refine (newline_settled (leaves_notLf.mp ?_)).bind fun u s' hm => ?_
  · obtain ⟨x, y, z, rfl, hy, -⟩ := hs
    exact ⟨x, y, z, rfl, hy, trivial⟩
  · exact newline_settled (leaves_notLf.mp (leaves_after_newline hs hm))

theorem leaves_headerTerminator {s s' : Bytes} {u : Unit} (h : headerTerminator.Matches s u s') :
    Leaves [notLf, notLf] s := by
  obtain ⟨_, s₁, h₁, h₂⟩ := matches_bind.mp h
  exact leaves_newline h₁ (leaves_newline h₂ trivial)

/-! ### Headers -/

/-- **The headers** end at the same blank line. -/
theorem parseHeaders_append {raw rest : Bytes} {headers : List Header}
    (h : parseHeaders raw = .ok (headers, rest)) (b : Bytes) :
    parseHeaders (raw ++ b) = .ok (headers, rest ++ b) := by
  unfold parseHeaders at h ⊢
  by_cases hblank : [cr, lf] <+: raw
  · rw [if_pos hblank] at h
    cases h
    obtain ⟨t, rfl⟩ := hblank
    rw [if_pos ⟨t ++ b, (List.append_assoc _ t b).symm⟩]
    rfl
  · rw [if_neg hblank] at h
    cases hs : headerTerminator.search raw with
    | none =>
        rw [hs] at h
        cases h
    | some m =>
        obtain ⟨rawHeaders, u, rest₁⟩ := m
        rw [hs] at h
        obtain ⟨mid, rfl, hf⟩ := search_sound hs
        have hleaves := leaves_headerTerminator (matches_of_first hf)
        -- the blank line is long enough to tell that the input does not begin with one
        have hlen : [cr, lf].length ≤ (rawHeaders ++ mid).length := by
          obtain ⟨x, y, z, rfl, -, x', y', z', rfl, -⟩ := hleaves
          simp only [List.length_append, List.length_cons, List.length_nil]
          omega
        have hblank' : ¬ [cr, lf] <+: rawHeaders ++ mid ++ b := by
          intro hpre
          exact hblank (List.prefix_of_prefix_length_le hpre (List.prefix_append _ b) hlen)
        have hsearch := search_append hs ?_ b
        · rw [if_neg hblank', hsearch]
          obtain ⟨headers', hlines, hpair⟩ := bind_eq_ok.mp h
          cases hpair
          exact bind_eq_ok.mpr ⟨headers, hlines, rfl⟩
        · -- up to the blank line, the blank line is still to come
          intro x y hxy hx
          obtain ⟨w, rfl⟩ := hx
          rw [List.append_assoc] at hxy
          rw [← List.append_cancel_left hxy]
          exact headerTerminator_settled (hleaves.append_left w)

theorem lf_mem_of_parseHeaders {raw rest : Bytes} {headers : List Header}
    (h : parseHeaders raw = .ok (headers, rest)) : lf ∈ raw := by
  unfold parseHeaders at h
  split at h
  · rename_i hblank
    obtain ⟨t, rfl⟩ := hblank
    exact List.mem_append_left t (by decide)
  · split at h
    · cases h
    · rename_i hs
      obtain ⟨mid, rfl, hf⟩ := search_sound hs
      exact List.mem_append_right _
        (leaves_notLf.mp (leaves_headerTerminator (matches_of_first hf)).tail)

/-! ### The request line -/

abbrev notSpace : UInt8 → Bool := (!isSpace ·)

/-- The classes of the runs of a request line, and the line feed at its end. -/
abbrev requestLineClasses : List (UInt8 → Bool) :=
  [notSpace, isSpace, notSpace, isSpace, notLf]

theorem lf_not_mem_http : lf ∉ bytes "HTTP/" := by decide

theorem requestLine_settled {s : Bytes} (hs : Leaves requestLineClasses s) :
    requestLine.Settled s := by
  refine Settled.many1_bind hs fun method s₁ hs₁ => ?_
  refine Settled.many1_bind hs₁ fun _ s₂ hs₂ => ?_
  refine Settled.many1_bind hs₂ fun uri s₃ hs₃ => ?_
  refine Settled.many1_bind hs₃ fun _ s₄ hs₄ => ?_
  have hlf := leaves_notLf.mp hs₄
  refine Settled.bind (Settled.opt ?_) fun version s₅ hm => ?_
  · refine (settled_word ⟨lf, hlf, lf_not_mem_http⟩).bind fun _ s₅ hm => ?_
    rw [matches_word.mp hm] at hlf
    exact settled_many1 ⟨lf, (List.mem_append.mp hlf).resolve_left lf_not_mem_http, rfl⟩
  · refine (newline_settled ?_).bind fun _ _ _ => settled_pure _ _
    rcases matches_opt.mp hm with ⟨v, -, hv⟩ | ⟨-, rfl⟩
    · -- neither the word nor the version has a line feed
      obtain ⟨_, s₆, hword, hrun⟩ := matches_bind.mp hv
      obtain ⟨-, rfl, hv⟩ := matches_many1.mp hrun
      rw [matches_word.mp hword] at hlf
      have hlf := (List.mem_append.mp hlf).resolve_left lf_not_mem_http
      refine (List.mem_append.mp hlf).resolve_left fun hmem => ?_
      exact absurd (hv lf hmem) (by decide)
    · exact hlf

/-- What comes after the URI of a request: its last run of spaces ends before a header,
since otherwise the greedy run would have taken that line end too. -/
theorem leaves_of_version {s rest : Bytes} {v : Option Bytes}
    (hmatch : ∃ s₁, (opt (do word (bytes "HTTP/"); many1 notSpace)).Matches s v s₁ ∧
      newline.Matches s₁ () rest)
    (hmax : ∀ y z, s = y ++ z → y ≠ [] → (∀ t ∈ y, isSpace t = true) → newline.first z = none)
    (hrest : lf ∈ rest) : Leaves [isSpace, notLf] s := by
  obtain ⟨s₁, hopt, hnewline⟩ := hmatch
  rcases matches_opt.mp hopt with ⟨w, -, hw⟩ | ⟨-, rfl⟩
  · obtain ⟨_, s₂, hword, hrun⟩ := matches_bind.mp hw
    obtain ⟨-, rfl, -⟩ := matches_many1.mp hrun
    have hhttp : bytes "HTTP/" = 72 :: (bytes "HTTP/").tail := by decide
    rw [matches_word.mp hword, hhttp]
    refine ⟨[], 72, _, rfl, rfl, leaves_notLf.mpr ?_⟩
    exact List.mem_append_right _ (List.mem_append_right w (lf_mem_of_newline hnewline))
  · have hsplit : ∃ w, w ≠ [] ∧ (∀ t ∈ w, isSpace t = true) ∧ s₁ = w ++ rest := by
      rcases matches_newline.mp hnewline with h | h
      · exact ⟨[lf], List.cons_ne_nil _ _, by decide +kernel, h⟩
      · exact ⟨[cr, lf], List.cons_ne_nil _ _, by decide +kernel, h⟩
    -- without a version, what is left of the input begins with the line break
    obtain ⟨w, hne, hw, rfl⟩ := hsplit
    obtain ⟨r, t, rfl, hr, ht⟩ : ∃ r t, rest = r ++ t ∧ (∀ u ∈ r, isSpace u = true) ∧
        Stops isSpace t :=
      ⟨_, _, List.takeWhile_append_dropWhile.symm, fun _ => List.mem_takeWhile_imp,
        stops_dropWhile isSpace rest⟩
    -- otherwise more spaces could have been taken before that line feed
    have hline : lf ∉ r := by
      intro hlf
      obtain ⟨p, q, rfl⟩ := List.append_of_mem hlf
      have hrun : ∀ u ∈ w ++ p, isSpace u = true := by
        intro u hu
        rcases List.mem_append.mp hu with hu | hu
        · exact hw u hu
        · exact hr u (List.mem_append_left _ hu)
      have hnone := hmax (w ++ p) (lf :: (q ++ t)) (by simp) ?_ hrun
      · cases hnone
      · exact fun h => hne (List.append_eq_nil_iff.mp h).1
    have hlf := (List.mem_append.mp hrest).resolve_left hline
    rw [← List.append_assoc]
    refine Leaves.append_left ?_ (w ++ r)
    obtain ⟨c, t, rfl⟩ := List.exists_cons_of_ne_nil (List.ne_nil_of_mem hlf)
    have hc := stops_cons.mp ht
    refine ⟨[], c, t, rfl, hc, leaves_notLf.mpr ?_⟩
    rcases List.mem_cons.mp hlf with h | h
    · rw [← h] at hc
      exact absurd hc (by decide)
    · exact h

/-- A request line that is followed by headers is settled by them. -/
theorem leaves_requestLine {s rest : Bytes} {m : Bytes × Bytes × Option Bytes}
    (h : requestLine.first s = some (m, rest)) (hrest : lf ∈ rest) :
    Leaves requestLineClasses s := by
  obtain ⟨method, s₁, hm₁, h₁⟩ := exists_of_first_bind h
  obtain ⟨b₁, s₂, hm₂, h₂⟩ := exists_of_first_bind h₁
  obtain ⟨uri, s₃, hm₃, h₃⟩ := exists_of_first_bind h₂
  obtain ⟨b₂, s₄, hne₂, rfl, hb₂, h₄, hmax⟩ := first_many1_bind_longest h₃
  obtain ⟨-, rfl, -⟩ := matches_many1.mp hm₁
  obtain ⟨hne₁, rfl, hb₁⟩ := matches_many1.mp hm₂
  obtain ⟨hne, rfl, huri⟩ := matches_many1.mp hm₃
  -- the search took the longest run of spaces after which the rest still matched
  have hversion : Leaves [isSpace, notLf] s₄ := by
    obtain ⟨v, s₅, hv, h₅⟩ := matches_bind.mp (matches_of_first h₄)
    obtain ⟨_, s₆, hnewline, hpure⟩ := matches_bind.mp h₅
    obtain ⟨-, rfl⟩ := matches_pure.mp hpure
    refine leaves_of_version ⟨s₅, hv, hnewline⟩ ?_ hrest
    intro y z hyz hne hspace
    rw [first_eq_none_iff]
    intro a s' hm
    refine first_eq_none_iff.mp (hmax y z hyz hne hspace) (method, uri, none) s' ?_
    exact matches_bind.mpr ⟨none, z, matches_opt.mpr (.inr ⟨rfl, rfl⟩),
      matches_bind.mpr ⟨a, s', hm, matches_pure.mpr ⟨rfl, rfl⟩⟩⟩
  refine Leaves.append_left ?_ method
  refine Leaves.append_run hne₁ (fun t ht => ?_) ?_
  · rw [notSpace, hb₁ t ht]
    rfl
  refine Leaves.append_run hne (fun t ht => by simpa using huri t ht) ?_
  refine Leaves.append_run hne₂ (fun t ht => ?_) hversion
  rw [notSpace, hb₂ t ht]
  rfl

/-- **The request line** ends where it ended. -/
theorem requestLine_append {s rest : Bytes} {m : Bytes × Bytes × Option Bytes}
    (h : requestLine.first s = some (m, rest)) (hrest : lf ∈ rest) (b : Bytes) :
    requestLine.first (s ++ b) = some (m, rest ++ b) := by
  rw [(requestLine_settled (leaves_requestLine h hrest)).first_append, h]
  rfl

/-! ### Bodies -/

theorem chunkHeader_settled {s : Bytes} (hs : lf ∈ s) : chunkHeader.Settled s := by
  have hleaves : Leaves [isHexDigit] s := leaves_singleton.mpr ⟨lf, hs, rfl⟩
  refine (settled_many1 hleaves.exists_mem).bind fun length s₁ hm => ?_
  obtain ⟨-, rfl, hlength⟩ := matches_many1.mp hm
  -- digits are not line feeds
  have hs₁ : lf ∈ s₁ := by
    refine (List.mem_append.mp hs).resolve_left fun h => ?_
    exact absurd (hlength lf h) (by decide)
  refine (settled_many ⟨lf, hs₁, rfl⟩).bind fun x s₂ hm => ?_
  obtain ⟨rfl, hx⟩ := matches_many.mp hm
  refine (newline_settled ?_).bind fun _ _ _ => settled_pure _ _
  refine (List.mem_append.mp hs₁).resolve_left fun h => ?_
  exact absurd (hx lf h) (by decide)

theorem chunkHeader_append {s length rest : Bytes} (h : chunkHeader.first s = some (length, rest))
    (b : Bytes) : chunkHeader.first (s ++ b) = some (length, rest ++ b) := by
  have hlf : lf ∈ s := by
    obtain ⟨x, s₁, h₁, hm⟩ := matches_bind.mp (matches_of_first h)
    obtain ⟨y, s₂, h₂, hm⟩ := matches_bind.mp hm
    obtain ⟨u, s₃, h₃, -⟩ := matches_bind.mp hm
    obtain ⟨-, rfl, -⟩ := matches_many1.mp h₁
    obtain ⟨rfl, -⟩ := matches_many.mp h₂
    exact List.mem_append_right x (List.mem_append_right y (lf_mem_of_newline h₃))
  rw [(chunkHeader_settled hlf).first_append, h]
  rfl

theorem chunkData_append {n : Nat} {s data rest : Bytes}
    (h : (chunkData n).first s = some (data, rest)) (b : Bytes) :
    (chunkData n).first (s ++ b) = some (data, rest ++ b) := by
  obtain ⟨x, s₁, h₁, hm⟩ := matches_bind.mp (matches_of_first h)
  obtain ⟨u, s₂, h₂, hpure⟩ := matches_bind.mp hm
  obtain ⟨rfl, rfl⟩ := matches_pure.mp hpure
  obtain ⟨rfl, rfl⟩ := matches_exactly.mp h₁
  rw [matches_word.mp h₂, List.append_assoc, List.append_assoc]
  exact chunkData_first data (rest ++ b)

theorem parseChunk_append {s data rest : Bytes} {n : Nat} (h : parseChunk s = .ok (n, data, rest))
    (b : Bytes) : parseChunk (s ++ b) = .ok (n, data, rest ++ b) := by
  unfold parseChunk at h ⊢
  cases hheader : chunkHeader.first s with
  | none =>
      rw [hheader] at h
      cases h
  | some m =>
      obtain ⟨length, rest₁⟩ := m
      rw [hheader] at h
      obtain ⟨u, hcheck, h⟩ := bind_eq_ok.mp h
      rw [chunkHeader_append hheader]
      refine bind_eq_ok.mpr ⟨u, hcheck, ?_⟩
      cases hdata : (chunkData (digitsVal 16 length)).first rest₁ with
      | none =>
          rw [hdata] at h
          cases h
      | some m =>
          obtain ⟨data', rest₂⟩ := m
          rw [hdata] at h
          cases h
          rw [chunkData_append hdata]
          rfl

/-- **Chunks** end at the same zero length. -/
theorem parseChunks_append {body s body' rest : Bytes} (h : parseChunks body s = .ok (body', rest))
    (b : Bytes) : parseChunks body (s ++ b) = .ok (body', rest ++ b) := by
  induction body, s using parseChunks.induct with
  | case1 body s e he =>
      rw [parseChunks_eq, he] at h
      cases h
  | case2 body s data rest₁ hc =>
      rw [parseChunks_eq, hc] at h
      cases h
      rw [parseChunks_eq, parseChunk_append hc]
      rfl
  | case3 body s n data rest₁ hc hn ih =>
      rw [parseChunks_eq, hc] at h
      rw [parseChunks_eq, parseChunk_append hc]
      exact (if_neg hn).trans (ih ((if_neg hn).symm.trans h))

/-! ### Requests -/

variable {gunzip : Bytes → Except GzipError Bytes}

theorem readBody_append {f : Framing} {s body rest : Bytes}
    (h : readBody gunzip f s false = .ok (body, rest))
    (hlong : f.chunked = false → ∀ cl ∈ f.cl, cl ≤ s.length) (b : Bytes) :
    readBody gunzip f (s ++ b) false = .ok (body, rest ++ b) := by
  unfold readBody at h ⊢
  cases hchunked : f.chunked with
  | true =>
      simp only [hchunked, Bool.false_and, Bool.false_eq_true, if_false, if_true] at h ⊢
      cases hgzipped : f.gzipped with
      | true =>
          rw [hgzipped] at h
          cases h
      | false =>
          simp only [hgzipped, Bool.false_eq_true, if_false] at h ⊢
          exact parseChunks_append h b
  | false =>
      simp only [hchunked, Bool.false_and, Bool.false_eq_true, if_false] at h ⊢
      cases hcl : f.cl with
      | none =>
          rw [hcl] at h
          cases h
          rfl
      | some cl =>
          have hle := hlong hchunked cl hcl
          rw [hcl] at h
          simp only [List.take_append_of_le_length hle, List.drop_append_of_le_length hle] at h ⊢
          cases hgzipped : f.gzipped with
          | true =>
              simp only [hgzipped, if_true] at h ⊢
              obtain ⟨body', hbody, hpair⟩ := bind_eq_ok.mp h
              cases hpair
              exact bind_eq_ok.mpr ⟨body, hbody, rfl⟩
          | false =>
              simp only [hgzipped, Bool.false_eq_true, if_false] at h ⊢
              cases h
              rfl

/-- The request at the front of `raw` is complete: it is not framed by a `Content-Length`
larger than the bytes that remain after its headers. -/
def Complete (raw : Bytes) : Prop :=
  ∀ line rest headers rest' f, requestLine.first raw = some (line, rest) →
    parseHeaders rest = .ok (headers, rest') → scanHeaders headers = .ok f → f.chunked = false →
    ∀ cl ∈ f.cl, cl ≤ rest'.length

/-- **One request** does not depend on the bytes that follow it. Where something was left
after it, it was complete. -/
theorem parseRequest_append {raw rest : Bytes} {r : HTTPRequest}
    (h : parseRequest gunzip raw = .ok (r, rest)) (hcomplete : rest = [] → Complete raw)
    (b : Bytes) : parseRequest gunzip (raw ++ b) = .ok (r, rest ++ b) := by
  obtain ⟨version, rest₁, rest₂, hline, hversion, hheaders, hbody⟩ := parseRequest_eq_ok.mp h
  obtain ⟨f, hf, hread⟩ := bind_eq_ok.mp hbody
  refine parseRequest_eq_ok.mpr ⟨version, rest₁ ++ b, rest₂ ++ b, ?_, hversion, ?_, ?_⟩
  · exact requestLine_append hline (lf_mem_of_parseHeaders hheaders) b
  · exact parseHeaders_append hheaders b
  · refine bind_eq_ok.mpr ⟨f, hf, readBody_append hread ?_ b⟩
    intro hchunked cl hcl
    by_cases hrest : rest = []
    · exact hcomplete hrest _ _ _ _ f hline hheaders hf hchunked cl hcl
    · -- a body that is cut short leaves nothing
      by_contra hlt
      have hdrop : rest₂.drop cl = [] := List.drop_eq_nil_of_le (by omega)
      unfold readBody at hread
      rw [Option.mem_def.mp hcl, hchunked] at hread
      simp only [Bool.false_and, Bool.false_eq_true, if_false, hdrop] at hread
      split at hread
      · obtain ⟨body, -, hpair⟩ := bind_eq_ok.mp hread
        exact hrest (Prod.mk.inj (Except.ok.inj hpair)).2.symm
      · exact hrest (Prod.mk.inj (Except.ok.inj hread)).2.symm

/-! ### Streams -/

/-- The loop of `parse_request_stream` comes from one value of `remaining` to another. -/
inductive Reaches (gunzip : Bytes → Except GzipError Bytes) : Bytes → Bytes → Prop
  | refl (s : Bytes) : Reaches gunzip s s
  | step {s s' t : Bytes} {r : HTTPRequest} (h : parseRequest gunzip s = .ok (r, s'))
      (hs : Reaches gunzip s' t) : Reaches gunzip s t

/-- **Streams compose**: after a stream that was used up by complete requests, the requests
of another one are parsed as if it stood alone. -/
theorem parseRequestStream_append {a : Bytes} {rs : List HTTPRequest}
    (h : parseRequestStream gunzip a = .ok (rs, []))
    (hlast : ∀ raw r, Reaches gunzip a raw → parseRequest gunzip raw = .ok (r, []) → Complete raw)
    (b : Bytes) :
    parseRequestStream gunzip (a ++ b) =
        (parseRequestStream gunzip b).map (fun t => (rs ++ t.1, t.2)) ∧
      ∀ raw r rest, Reaches gunzip a raw → parseRequest gunzip raw = .ok (r, rest) →
        parseRequest gunzip (raw ++ b) = .ok (r, rest ++ b) := by
  have happend (raw : Bytes) (r : HTTPRequest) (rest : Bytes) (hraw : Reaches gunzip a raw)
      (hr : parseRequest gunzip raw = .ok (r, rest)) :
      parseRequest gunzip (raw ++ b) = .ok (r, rest ++ b) := by
    refine parseRequest_append hr (fun hrest => ?_) b
    rw [hrest] at hr
    exact hlast raw r hraw hr
  refine ⟨?_, happend⟩
  -- the induction is on the requests that were taken off `a`
  have hstream := parseRequestStream_eq_ok.mp h
  clear h hlast
  generalize hempty : ([] : Bytes) = rest at hstream
  induction hstream with
  | done =>
      rw [List.nil_append]
      cases parseRequestStream gunzip b <;> rfl
  | stop hs => exact absurd hempty.symm hs
  | @more s s' rest r rs hr _ ih =>
      rw [parseRequestStream_of_ok (happend s r s' (.refl s) hr),
        ih (fun raw r rest hraw => happend raw r rest (.step hr hraw)) hempty]
      cases parseRequestStream gunzip b <;> rfl

theorem parseRequestStream_append_pipelined :
    parseRequestStream (fun _ => .error .badGzipFile)
      (bytes "POST /a HTTP/1.1\r\nContent-Length: 2\r\n\r\nhi" ++ bytes "GET /b HTTP/1.1\r\n\r\n") =
        .ok ([⟨bytes "POST", bytes "/a", [(bytes "Content-Length", bytes "2")], bytes "hi",
            bytes "1.1"⟩, ⟨bytes "GET", bytes "/b", [], [], bytes "1.1"⟩], []) := by
  have hfirst : parseRequest (fun _ => .error .badGzipFile)
      (bytes "POST /a HTTP/1.1\r\nContent-Length: 2\r\n\r\nhi") =
        .ok (⟨bytes "POST", bytes "/a", [(bytes "Content-Length", bytes "2")], bytes "hi",
          bytes "1.1"⟩, []) := by decide +kernel
  have hsecond : parseRequest (fun _ => .error .badGzipFile) (bytes "GET /b HTTP/1.1\r\n\r\n") =
      .ok (⟨bytes "GET", bytes "/b", [], [], bytes "1.1"⟩, []) := by decide
  have hcomplete : Complete (bytes "POST /a HTTP/1.1\r\nContent-Length: 2\r\n\r\nhi") := by
    intro line rest headers rest' f hline hheaders hf _ cl hcl
    have hline' : requestLine.first
        (bytes "POST /a HTTP/1.1\r\nContent-Length: 2\r\n\r\nhi") =
          some ((bytes "POST", bytes "/a", some (bytes "1.1")),
            bytes "Content-Length: 2\r\n\r\nhi") := by decide
    have hheaders' : parseHeaders (bytes "Content-Length: 2\r\n\r\nhi") =
        .ok ([(bytes "Content-Length", bytes "2")], bytes "hi") := by decide +kernel
    have hf' : scanHeaders [(bytes "Content-Length", bytes "2")] = .ok ⟨some 2, [], []⟩ := by
      decide
    rw [hline'] at hline
    cases hline
    rw [hheaders'] at hheaders
    cases hheaders
    rw [hf'] at hf
    cases hf
    cases hcl
    decide
  have happend := (parseRequestStream_append
    (parseRequestStream_eq_ok.mpr (.more hfirst .done)) ?_
    (bytes "GET /b HTTP/1.1\r\n\r\n")).1
  · rw [happend, parseRequestStream_of_ok hsecond, parseRequestStream_nil]
    rfl
  · intro raw r hraw hr
    cases hraw with
    | refl => exact hcomplete
    | step h hs =>
        rw [hfirst] at h
        cases h
        cases hs with
        | refl => exact absurd rfl (ne_nil_of_parseRequest hr)
        | step h _ => exact absurd rfl (ne_nil_of_parseRequest h)

end HttpGarden
