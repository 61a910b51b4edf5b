import HttpGarden.Targets.HostHeader

/-!
# HttpGarden.Targets.HostRequests

What becomes of a whole request in `adjust_host_header`, and how it is read then.

The substitution keeps the number of lines (`count_adjustDatum`), and so a request that comes back
with all of its headers and its body has a request line of one line only. `rewrites_iff` says which
requests come back with nothing but their host headers changed.
-/

namespace HttpGarden

open Lib Pattern

/-! ### How many lines are read -/

/-- At a line feed there is a line break. -/
theorem newline_first_lf (s : Bytes) : newline.first (lf :: s) = some ((), s) :=
  newline_first_eol (.inr rfl) s

theorem isLine_of_search_none {s : Bytes} (h : newline.search s = none) : IsLine s := by
  induction s with
  | nil => exact List.not_mem_nil
  | cons c s ih =>
      cases hfirst : newline.first (c :: s) with
      | some m =>
          rw [search_of_first hfirst] at h
          cases h
      | none =>
          rw [search_cons_of_none hfirst, Option.map_eq_none_iff] at h
          refine isLine_cons.mpr ⟨?_, ih h⟩
          rintro rfl
          rw [newline_first_lf] at hfirst
          cases hfirst

theorem isLine_of_search_some {s pre s' : Bytes} (h : newline.search s = some (pre, (), s')) :
    IsLine pre := by
  induction s generalizing pre with
  | nil => cases h
  | cons c s ih =>
      cases hfirst : newline.first (c :: s) with
      | some m =>
          rw [search_of_first hfirst] at h
          cases h
          exact List.not_mem_nil
      | none =>
          rw [search_cons_of_none hfirst, Option.map_eq_some_iff] at h
          obtain ⟨⟨pre', a, t⟩, hm, heq⟩ := h
          cases heq
          refine isLine_cons.mpr ⟨?_, ih hm⟩
          rintro rfl
          rw [newline_first_lf] at hfirst
          cases hfirst

theorem count_newline {s s' : Bytes} {a : Unit} (h : newline.Matches s a s') :
    s.count lf = s'.count lf + 1 := by
  rcases matches_newline.mp h with rfl | rfl
  · rw [List.count_cons_self]
  · rw [List.count_cons_of_ne (by decide), List.count_cons_self]

/-- There is one piece more than there are line feeds. -/
theorem length_split (s : Bytes) : (newline.split newline_progress s).length = s.count lf + 1 := by
  induction hn : s.length using Nat.strong_induction_on generalizing s with
  | _ n ih =>
      cases h : newline.search s with
      | none =>
          rw [split_of_search_none newline_progress h,
            List.count_eq_zero.mpr (isLine_of_search_none h)]
          rfl
      | some m =>
          obtain ⟨pre, ⟨⟩, s'⟩ := m
          obtain ⟨mid, rfl, hfirst⟩ := search_sound h
          have hlt := search_length_lt newline_progress h
          rw [split_of_search_some newline_progress h, List.length_cons,
            ih s'.length (hn ▸ hlt) s' rfl, List.count_append,
            List.count_eq_zero.mpr (isLine_of_search_some h),
            count_newline (matches_of_first hfirst), Nat.zero_add]

theorem length_parseHeaderLines {ls : List Bytes} {hs : List Header}
    (h : parseHeaderLines ls = .ok hs) : hs.length = ls.length := by
  induction ls generalizing hs with
  | nil =>
      cases h
      rfl
  | cons l ls ih =>
      rw [parseHeaderLines] at h
      cases hf : headerLine.first l with
      | none =>
          rw [hf] at h
          cases h
      | some m =>
          rw [hf] at h
          obtain ⟨hs', hhs', hpair⟩ := bind_eq_ok.mp h
          cases hpair
          rw [List.length_cons, List.length_cons, ih hhs']

/-- **Headers** take a line each, and one more. -/
theorem count_parseHeaders {raw rest : Bytes} {hs : List Header}
    (h : parseHeaders raw = .ok (hs, rest)) : raw.count lf = hs.length + 1 + rest.count lf := by
  unfold parseHeaders at h
  by_cases hpre : [cr, lf] <+: raw
  · rw [if_pos hpre] at h
    obtain ⟨t, rfl⟩ := hpre
    cases h
    rw [List.count_append]
    rfl
  · rw [if_neg hpre] at h
    cases hs' : headerTerminator.search raw with
    | none =>
        rw [hs'] at h
        cases h
    | some m =>
        obtain ⟨rawHeaders, ⟨⟩, rest'⟩ := m
        rw [hs'] at h
        obtain ⟨hs₁, hlines, hpair⟩ := bind_eq_ok.mp h
        cases hpair
        obtain ⟨mid, rfl, hfirst⟩ := search_sound hs'
        obtain ⟨_, s₁, hfirst₁, hfirst₂⟩ := matches_bind.mp (matches_of_first hfirst)
        have hlength := length_parseHeaderLines hlines
        rw [length_split] at hlength
        rw [List.count_append, count_newline hfirst₁, count_newline hfirst₂]
        omega

/-! ### The request line -/

/-- The request line that is written. -/
def requestLineText (r : HTTPRequest) : Bytes :=
  r.method ++ bytes " " ++ r.uri ++ bytes " " ++ bytes "HTTP/" ++ r.version

/-- What stands for the version in a request line. -/
def versionText : Option Bytes → Bytes
  | none => []
  | some version => bytes "HTTP/" ++ version

/-- The pieces of a request line. -/
theorem requestLine_pieces {s s' method uri : Bytes} {version : Option Bytes}
    (h : requestLine.Matches s (method, uri, version) s') :
    ∃ b₁ b₂ e, s = method ++ (b₁ ++ (uri ++ (b₂ ++ (versionText version ++ (e ++ s'))))) ∧
      IsToken method ∧ IsToken uri ∧ (∀ w ∈ version, IsToken w) ∧
      (b₁ ≠ [] ∧ ∀ c ∈ b₁, isSpace c = true) ∧ (b₂ ≠ [] ∧ ∀ c ∈ b₂, isSpace c = true) ∧ IsEol e := by
  obtain ⟨hmethod, huri, hversion, -⟩ := matches_requestLine h
  simp only [requestLine, matches_bind, matches_many1, matches_opt, matches_word, matches_pure,
    Prod.mk.injEq] at h
  obtain ⟨m, s₁, ⟨-, rfl, -⟩, b₁, s₂, ⟨hb₁, rfl, hb₁'⟩, u, s₃, ⟨-, rfl, -⟩, b₂, s₄,
    ⟨hb₂, rfl, hb₂'⟩, w, s₅, hw, _, s₆, hn, ⟨rfl, rfl, rfl⟩, rfl⟩ := h
  have heol : ∃ e, s₅ = e ++ s' ∧ IsEol e := by
    rcases matches_newline.mp hn with rfl | rfl
    · exact ⟨[lf], rfl, .inr rfl⟩
    · exact ⟨crlf, rfl, .inl rfl⟩
  obtain ⟨e, rfl, he⟩ := heol
  refine ⟨b₁, b₂, e, ?_, hmethod, huri, hversion, ⟨hb₁, hb₁'⟩, ⟨hb₂, hb₂'⟩, he⟩
  rcases hw with ⟨w, rfl, _, s₇, rfl, -, rfl, -⟩ | ⟨rfl, rfl⟩
  · rw [versionText, List.append_assoc]
  · rfl

/-- What follows the white space of a request line. -/
def lineEnd (method uri : Bytes) : Pattern UInt8 (Bytes × Bytes × Option Bytes) := do
  let version ← opt do
    word (bytes "HTTP/")
    many1 (!isSpace ·)
  newline
  return (method, uri, version)

/-- A request line without a version, where white space could go on behind its line break. -/
theorem requestLine_first_short {method uri b s : Bytes} (hm : IsToken method) (hu : IsToken uri)
    (hb : b ≠ [] ∧ ∀ c ∈ b, isSpace c = true)
    (hlong : ∀ y s', s = y ++ s' → (∀ c ∈ y, isSpace c = true) →
      (lineEnd method uri).first s' = none) :
    requestLine.first (method ++ (bytes " " ++ (uri ++ (b ++ lf :: s)))) =
      some ((method, uri, none), s) := by
  have hrun (w : Bytes) (hw : IsToken w) (c : UInt8) (t : Bytes) (hc : isSpace c = true) :
      (many1 (!isSpace ·)).first (w ++ (c :: t)) = some (w, c :: t) :=
    first_many1 hw.1 (fun d hd => by simp [hw.2 d hd]) (stops_cons.mpr (by simp [hc]))
  have hblank : (many1 isSpace).first ([32] ++ (uri ++ (b ++ lf :: s))) =
      some ([32], uri ++ (b ++ lf :: s)) := by
    refine first_many1 (List.cons_ne_nil _ _) (by simp [isSpace]) ?_
    obtain ⟨c, w, heq⟩ := List.exists_cons_of_ne_nil hu.1
    rw [heq]
    exact stops_cons.mpr (hu.2 c (heq ▸ List.mem_cons_self))
  have huri : (many1 (!isSpace ·)).first (uri ++ (b ++ lf :: s)) = some (uri, b ++ lf :: s) := by
    obtain ⟨c, b', hcons⟩ := List.exists_cons_of_ne_nil hb.1
    rw [hcons]
    exact hrun uri hu c _ (hb.2 c (hcons ▸ List.mem_cons_self))
  have hend : (lineEnd method uri).first (lf :: s) = some ((method, uri, none), s) := rfl
  rw [bytes_space]
  refine first_bind (hrun method hm 32 _ (by decide)) (first_bind hblank (first_bind huri ?_))
  refine first_many1_bind hb.1 hb.2 hend fun y s' heq hne hy => ?_
  obtain ⟨d, y, rfl⟩ := List.exists_cons_of_ne_nil hne
  obtain ⟨rfl, rfl⟩ := List.cons.inj heq
  exact hlong y s' rfl fun c hc => hy c (List.mem_cons_of_mem _ hc)

/-! ### What is expected -/

/-- The request that is expected: only the values of host headers are replaced. -/
structure RewritesHostOnly (v : Bytes) (r r' : HTTPRequest) : Prop where
  method : r'.method = r.method
  uri : r'.uri = r.uri
  version : r'.version = r.version
  headers : List.Forall₂ (Replaces v) r.headers r'.headers
  body : r'.body = r.body

/-- In the request line either there is no `host:`, or what stands from there on is what is put
there. A request of version 0.9 may lose its version, if a header follows. -/
def RequestLineKept (v : Bytes) (r : HTTPRequest) : Prop :=
  ∀ pre, beforeHost (requestLineText r) = some pre →
    pre ++ bytes "host: " ++ v = requestLineText r ∨
      (r.version = bytes "0.9" ∧ r.headers ≠ [] ∧
        (pre ++ bytes "host: " ++ v = r.method ++ bytes " " ++ r.uri ∨
          pre ++ bytes "host: " ++ v = r.method ++ bytes " " ++ r.uri ++ bytes " "))

/-- `host:` stands only where it does no harm. -/
structure Kept (v : Bytes) (r : HTTPRequest) : Prop where
  line : RequestLineKept v r
  headers : ∀ h ∈ r.headers, HeaderKept v h
  body : BodyKept v r.body

variable {v : Bytes} {gunzip : Bytes → Except GzipError Bytes}

/-- The lines that become of the headers. -/
def adjustedHeaders (v : Bytes) (hs : List Header) : Bytes :=
  hs.flatMap fun h => adjusted v (headerText h) ++ crlf

theorem adjustDatum_headers {hs : List Header} (hhs : ∀ h ∈ hs, IsHeader h) (v s : Bytes) :
    adjustDatum v (hs.flatMap unparseHeader ++ s) = adjustedHeaders v hs ++ adjustDatum v s := by
  induction hs with
  | nil => rfl
  | cons h hs ih =>
      obtain ⟨hh, hhs⟩ := List.forall_mem_cons.mp hhs
      rw [List.flatMap_cons, List.append_assoc, adjustedHeaders, List.flatMap_cons,
        List.append_assoc, List.append_assoc]
      show adjustDatum v (headerText h ++ crlf ++ _) = _
      rw [List.append_assoc, adjustDatum_crlf (isLine_headerText hh).1, ih hhs]
      rfl

theorem isLine_of_isToken {w : Bytes} (hw : IsToken w) : IsLine w := by
  intro hlf
  have hspace := hw.2 lf hlf
  cases hspace

theorem isLine_requestLineText {r : HTTPRequest} (hr : IsHead r) : IsLine (requestLineText r) := by
  have hspace : IsLine (bytes " ") := by
    unfold IsLine
    decide
  have hhttp : IsLine (bytes "HTTP/") := by
    unfold IsLine
    decide
  rw [requestLineText]
  simp only [isLine_append]
  exact ⟨⟨⟨⟨⟨isLine_of_isToken hr.method, hspace⟩, isLine_of_isToken hr.uri⟩, hspace⟩, hhttp⟩,
    isLine_of_isToken hr.version⟩

/-- **The request**, line by line. -/
theorem adjustDatum_request {r : HTTPRequest} (hr : IsHead r) (v : Bytes) :
    adjustDatum v (requestHead r ++ r.body) =
      adjusted v (requestLineText r) ++
        (crlf ++ (adjustedHeaders v r.headers ++ (crlf ++ adjustDatum v r.body))) := by
  have hhead : requestHead r ++ r.body = requestLineText r ++
      (crlf ++ (r.headers.flatMap unparseHeader ++ ([] ++ (crlf ++ r.body)))) := by
    rw [requestHead]
    simp only [List.append_assoc]
    rw [requestLineText]
    simp only [List.append_assoc]
    rfl
  have hnil : adjusted v [] = [] := adjusted_of_none (by decide) v
  rw [hhead, adjustDatum_crlf (isLine_requestLineText hr), adjustDatum_headers hr.headers,
    adjustDatum_crlf List.not_mem_nil, hnil]
  rfl

/-! ### The headers and the body -/

/-- **The lines are headers again**, and each is read by itself. -/
theorem parseHeaders_adjusted {hs : List Header} (hhs : ∀ h ∈ hs, IsHeader h) (hv : IsAddress v)
    (s : Bytes) : ∃ hs', parseHeaders (adjustedHeaders v hs ++ (crlf ++ s)) = .ok (hs', s) ∧
      List.Forall₂ (fun h h' => headerLine.first (adjusted v (headerText h)) = some (h', [])) hs
        hs' := by
  have hlines : ∃ hs', parseHeaderLines (hs.map fun h => adjusted v (headerText h)) = .ok hs' ∧
      List.Forall₂ (fun h h' => headerLine.first (adjusted v (headerText h)) = some (h', [])) hs
        hs' := by
    induction hs with
    | nil => exact ⟨[], rfl, .nil⟩
    | cons h hs ih =>
        obtain ⟨hh, hhs⟩ := List.forall_mem_cons.mp hhs
        obtain ⟨hs', hread, hall⟩ := ih hhs
        obtain ⟨h', hh', -, htext⟩ := exists_adjusted hh hv
        have hfirst := headerLine_first_of_text hh' htext
        refine ⟨h' :: hs', ?_, .cons hfirst hall⟩
        rw [List.map_cons, parseHeaderLines, hfirst]
        simp only [hread]
        rfl
  obtain ⟨hs', hread, hall⟩ := hlines
  refine ⟨hs', ?_, hall⟩
  cases hs with
  | nil =>
      cases hread
      show parseHeaders ([cr, lf] ++ s) = .ok ([], s)
      rw [parseHeaders, if_pos (List.prefix_append _ s)]
      rfl
  | cons k hs =>
      have hends : ∀ l ∈ (k :: hs).map fun h => (adjusted v (headerText h), crlf),
          EndsLine l.1 l.2 ∧ l.1 ≠ [] := by
        intro l hl
        obtain ⟨k', hk', rfl⟩ := List.mem_map.mp hl
        obtain ⟨hline, hne⟩ := isLine_adjusted (hhs k' hk') hv
        exact ⟨endsLine_crlf hline, hne⟩
      have hwrite : adjustedHeaders v (k :: hs) =
          writeLines ((k :: hs).map fun h => (adjusted v (headerText h), crlf)) := by
        rw [writeLines, List.flatMap_map]
        rfl
      have hne : ((k :: hs).map fun h => (adjusted v (headerText h), crlf)) ≠ [] :=
        List.cons_ne_nil _ _
      rw [hwrite, parseHeaders_writeLines hne hends (.inl rfl), List.map_map]
      show (parseHeaderLines ((k :: hs).map fun h => adjusted v (headerText h))).map _ = _
      rw [hread]
      rfl

theorem forall₂_replaces_iff {hs hs' : List Header} (hhs : ∀ h ∈ hs, IsHeader h)
    (hv : IsAddress v) (hread : List.Forall₂ (fun h h' =>
      headerLine.first (adjusted v (headerText h)) = some (h', [])) hs hs') :
    List.Forall₂ (Replaces v) hs hs' ↔ ∀ h ∈ hs, HeaderKept v h := by
  induction hread with
  | nil => exact iff_of_true .nil fun h hh => absurd hh List.not_mem_nil
  | cons hfirst _ ih =>
      obtain ⟨hh, hhs⟩ := List.forall_mem_cons.mp hhs
      rw [List.forall₂_cons, List.forall_mem_cons, ih hhs, replaces_iff hh hv hfirst]

/-- Host headers do not take part in the framing. -/
theorem scanHeader_replaces {h h' : Header} (hrep : Replaces v h h') (f : Framing) :
    scanHeader f h' = scanHeader f h := by
  have hskip {k : Header} (hk : lower k.1 = bytes "host") : scanHeader f k = .ok f := by
    have hcl : ¬ bytes "host" = bytes "content-length" := by decide
    have hte : ¬ bytes "host" = bytes "transfer-encoding" := by decide
    have hce : ¬ bytes "host" = bytes "content-encoding" := by decide
    rw [scanHeader, hk, if_neg hcl]
    simp only [pure_bind, if_neg hte, if_neg hce]
    rfl
  rw [Replaces] at hrep
  by_cases hhost : lower h.1 = bytes "host"
  · rw [if_pos hhost] at hrep
    rw [hskip hhost, hskip hrep.1]
  · rw [if_neg hhost] at hrep
    rw [hrep]

theorem scanHeaders_replaces {hs hs' : List Header} (h : List.Forall₂ (Replaces v) hs hs') :
    scanHeaders hs' = scanHeaders hs := by
  unfold scanHeaders
  generalize (⟨none, [], []⟩ : Framing) = f
  induction h generalizing f with
  | nil => rfl
  | cons hrep _ ih =>
      rw [List.foldlM_cons, List.foldlM_cons, scanHeader_replaces hrep]
      exact congrArg _ (funext ih)

/-- Without coding headers the body is a piece of the announced length. -/
theorem parseBody_replaces {raw rest : Bytes} {r : HTTPRequest} {hs' : List Header}
    (h : parseRequest gunzip raw = .ok (r, rest)) (hte : Lacks (bytes "transfer-encoding") r)
    (hce : Lacks (bytes "content-encoding") r) (hhs' : List.Forall₂ (Replaces v) r.headers hs') :
    ∃ n, r.body.length ≤ n ∧ ∀ s, parseBody gunzip hs' s false = .ok (s.take n, s.drop n) := by
  obtain ⟨-, -, rest₂, -, -, -, hbody⟩ := parseRequest_eq_ok.mp h
  obtain ⟨f, hf, hread⟩ := bind_eq_ok.mp hbody
  obtain ⟨hfte, hfce⟩ := scanHeaders_values hf
  rw [framingValues_of_lacks hte] at hfte
  rw [framingValues_of_lacks hce] at hfce
  rw [readBody_plain hfte hfce, Except.ok.injEq, Prod.mk.injEq] at hread
  refine ⟨f.cl.getD 0, ?_, fun s => ?_⟩
  · rw [← hread.1]
    exact List.length_take_le _ _
  · rw [parseBody, scanHeaders_replaces hhs', hf, ok_bind, readBody_plain hfte hfce]

/-- **The body** is read back as it should be exactly if it is kept. -/
theorem parseBody_adjusted_iff {raw rest : Bytes} {r : HTTPRequest} {hs' : List Header}
    (h : parseRequest gunzip raw = .ok (r, rest)) (hte : Lacks (bytes "transfer-encoding") r)
    (hce : Lacks (bytes "content-encoding") r) (hv : IsAddress v)
    (hhs' : List.Forall₂ (Replaces v) r.headers hs') :
    (∃ rest', parseBody gunzip hs' (adjustDatum v r.body) false = .ok (r.body, rest')) ↔
      BodyKept v r.body := by
  obtain ⟨n, hlength, hread⟩ := parseBody_replaces h hte hce hhs'
  rw [hread]
  refine ⟨fun hsame => ?_, fun hkept => ?_⟩
  · obtain ⟨rest', heq⟩ := hsame
    obtain ⟨htake, -⟩ := Prod.mk.inj (Except.ok.inj heq)
    have hsplit := List.take_append_drop n (adjustDatum v r.body)
    rw [htake] at hsplit
    exact ((adjustDatum_eq_append_iff hv _ _).mp hsplit.symm).2
  · have hsame := (adjustDatum_eq_append_iff hv r.body []).mpr ⟨rfl, hkept⟩
    rw [List.append_nil] at hsame
    rw [hsame, List.take_of_length_le hlength]
    exact ⟨_, rfl⟩

/-! ### The request line that comes back -/

theorem requestLineText_eq (r : HTTPRequest) :
    requestLineText r = r.method ++ 32 :: (r.uri ++ 32 :: (bytes "HTTP/" ++ r.version)) := by
  rw [requestLineText, bytes_space]
  simp only [List.append_assoc]
  rfl

/-- A space that comes after a line break does not belong to its line. -/
theorem lf_mem_of_isEol {e s t x : Bytes} (he : IsEol e) (h : e ++ t = x ++ 32 :: s) : lf ∈ x := by
  rcases he with rfl | rfl
  · match x, h with
    | c :: d :: x, h =>
        obtain ⟨rfl, -⟩ := List.cons.inj (List.cons.inj h).2
        simp
  · match x, h with
    | c :: x, h =>
        obtain ⟨rfl, -⟩ := List.cons.inj h
        simp

theorem isSpace_http : ∀ c ∈ bytes "HTTP/", isSpace c = false := by simp [bytes, isSpace]

/-- White space does not go on into a header and up to a line break. -/
theorem lineEnd_first_header {method uri name y s s' : Bytes}
    (hname : ∀ c ∈ name, c ≠ colon ∧ c ≠ lf) (h : name ++ colon :: 32 :: s = y ++ s')
    (hy : ∀ c ∈ y, isSpace c = true) : (lineEnd method uri).first s' = none := by
  rw [first_eq_none_iff]
  intro a t hm
  have hpieces : ∃ w e, s' = w ++ (e ++ t) ∧ (∀ c ∈ w, isSpace c = false) ∧ IsEol e := by
    simp only [lineEnd, matches_bind, matches_opt, matches_word, matches_many1, matches_pure] at hm
    obtain ⟨_, s₁, hw, _, s₂, hn, -, rfl⟩ := hm
    have heol : ∃ e, s₁ = e ++ t ∧ IsEol e := by
      rcases matches_newline.mp hn with rfl | rfl
      · exact ⟨[lf], rfl, .inr rfl⟩
      · exact ⟨crlf, rfl, .inl rfl⟩
    obtain ⟨e, rfl, he⟩ := heol
    rcases hw with ⟨w, -, _, s₃, rfl, -, rfl, hw⟩ | ⟨-, rfl⟩
    · refine ⟨bytes "HTTP/" ++ w, e, (List.append_assoc ..).symm, ?_, he⟩
      exact List.forall_mem_append.mpr ⟨isSpace_http, fun c hc => by simpa using hw c hc⟩
    · exact ⟨[], e, rfl, by simp, he⟩
  obtain ⟨w, e, rfl, hw, he⟩ := hpieces
  -- the white space ends before the colon
  have hcolon : ∃ x, lf ∉ x ∧ (x ++ [colon]) ++ 32 :: s = w ++ (e ++ t) := by
    rcases List.append_eq_append_iff.mp h with ⟨x, rfl, hx⟩ | ⟨x, rfl, hx⟩
    · cases x with
      | nil => exact ⟨[], List.not_mem_nil, hx⟩
      | cons c x =>
          have hc := hy c (List.mem_append_right _ List.mem_cons_self)
          rw [← (List.cons.inj hx).1] at hc
          cases hc
    · refine ⟨x, fun hlf => (hname lf (List.mem_append_right _ hlf)).2 rfl, ?_⟩
      rw [hx, List.append_assoc]
      rfl
  obtain ⟨x, hx, heq⟩ := hcolon
  rcases List.append_eq_append_iff.mp heq with ⟨z, rfl, hz⟩ | ⟨z, hz, htail⟩
  · cases z with
    | nil => exact absurd (lf_mem_of_isEol he hz.symm) List.not_mem_nil
    | cons c z =>
        have hc := hw c (List.mem_append_right _ List.mem_cons_self)
        rw [← (List.cons.inj hz).1] at hc
        cases hc
  · have hlf : lf ∈ x ++ [colon] := hz ▸ List.mem_append_right _ (lf_mem_of_isEol he htail)
    rcases List.mem_append.mp hlf with hlf | hlf
    · exact hx hlf
    · cases List.mem_singleton.mp hlf

/-- The first line after the request line. -/
theorem adjustedHeaders_eq {hs : List Header} (hne : hs ≠ []) (hhs : ∀ h ∈ hs, IsHeader h)
    (hv : IsAddress v) (s : Bytes) : ∃ name t, (∀ c ∈ name, c ≠ colon ∧ c ≠ lf) ∧
      adjustedHeaders v hs ++ s = name ++ colon :: 32 :: t := by
  obtain ⟨h, hs, rfl⟩ := List.exists_cons_of_ne_nil hne
  obtain ⟨h', hh', -, htext⟩ := exists_adjusted (hhs h List.mem_cons_self) hv
  have hline : ∃ t, adjusted v (headerText h) = (h'.1 ++ [colon]) ++ 32 :: t := by
    rcases htext with htext | htext
    · exact ⟨h'.2, htext.trans (headerText_eq h')⟩
    · refine ⟨h'.2 ++ [32], ?_⟩
      rw [htext, headerText_eq, List.append_assoc]
      rfl
  obtain ⟨t, ht⟩ := hline
  refine ⟨h'.1, t ++ (crlf ++ (adjustedHeaders v hs ++ s)), hh'.name, ?_⟩
  rw [adjustedHeaders, List.flatMap_cons, ht]
  simp only [List.append_assoc, List.cons_append, List.nil_append]
  rfl

/-- **A request line that is kept** is read as before. -/
theorem requestLine_first_kept {r : HTTPRequest} (hr : IsHead r) (hv : IsAddress v)
    (hkept : RequestLineKept v r) (s : Bytes) : ∃ version,
      requestLine.first
        (adjusted v (requestLineText r) ++ (crlf ++ (adjustedHeaders v r.headers ++ s))) =
          some ((r.method, r.uri, version), adjustedHeaders v r.headers ++ s) ∧
        r.version = version.getD (bytes "0.9") := by
  have hsame (t : Bytes) : requestLine.first (requestLineText r ++ (crlf ++ t)) =
      some ((r.method, r.uri, some r.version), t) := by
    rw [requestLineText]
    simp only [List.append_assoc]
    exact requestLine_first hr.method hr.uri hr.version t
  cases hbefore : beforeHost (requestLineText r) with
  | none =>
      rw [adjusted_of_none hbefore]
      exact ⟨_, hsame _, rfl⟩
  | some pre =>
      rw [adjusted_of_some hbefore]
      rcases hkept pre hbefore with heq | ⟨hversion, hne, hshort⟩
      · rw [heq]
        exact ⟨_, hsame _, rfl⟩
      · obtain ⟨name, t, hname, hheaders⟩ := adjustedHeaders_eq hne hr.headers hv s
        have hlong : ∀ y s', adjustedHeaders v r.headers ++ s = y ++ s' →
            (∀ c ∈ y, isSpace c = true) → (lineEnd r.method r.uri).first s' = none :=
          fun y s' heq hy => lineEnd_first_header hname (hheaders.symm.trans heq) hy
        have hread (b : Bytes) (hb : b ≠ [] ∧ ∀ c ∈ b, isSpace c = true) :=
          requestLine_first_short hr.method hr.uri hb hlong
        refine ⟨none, ?_, hversion⟩
        rcases hshort with heq | heq
        · rw [heq, ← hread [cr] (by simp [isSpace, cr])]
          simp only [List.append_assoc]
          rfl
        · rw [heq, ← hread [32, cr] (by simp [isSpace, cr]), bytes_space]
          simp only [List.append_assoc]
          rfl

/-! ### The request line of a request that comes back -/

/-- A text of white space, which is not empty. -/
def IsGap (b : Bytes) : Prop := b ≠ [] ∧ ∀ c ∈ b, isSpace c = true

theorem IsGap.stops {b : Bytes} (hb : IsGap b) (s : Bytes) : Stops (!isSpace ·) (b ++ s) := by
  obtain ⟨c, t, rfl⟩ := List.exists_cons_of_ne_nil hb.1
  exact stops_cons.mpr (by simp [hb.2 c List.mem_cons_self])

theorem IsToken.stops {w : Bytes} (hw : IsToken w) (s : Bytes) : Stops isSpace (w ++ s) := by
  obtain ⟨c, t, rfl⟩ := List.exists_cons_of_ne_nil hw.1
  exact stops_cons.mpr (hw.2 c List.mem_cons_self)

/-- Two tokens at the front of the same text, up to white space. -/
theorem token_inj {w w' s s' : Bytes} (hw : IsToken w) (hw' : IsToken w')
    (hs : Stops (!isSpace ·) s) (hs' : Stops (!isSpace ·) s') (h : w ++ s = w' ++ s') :
    w = w' ∧ s = s' :=
  run_inj (fun c hc => by simp [hw.2 c hc]) (fun c hc => by simp [hw'.2 c hc]) hs hs' h

/-- A space and a token, and white space and a token. -/
theorem gap_inj {b w w' s s' : Bytes} (hb : IsGap b) (hw : IsToken w) (hw' : IsToken w')
    (h : 32 :: (w ++ s) = b ++ (w' ++ s')) : b = [32] ∧ w ++ s = w' ++ s' := by
  have hspace : ∀ c ∈ ([32] : Bytes), isSpace c = true := by simp [isSpace]
  obtain ⟨heq, hrest⟩ := run_inj hspace hb.2 (hw.stops s) (hw'.stops s') h
  exact ⟨heq.symm, hrest⟩

/-- There is no token in white space. -/
theorem no_token {w s t b : Bytes} (hw : IsToken w) (hb : ∀ c ∈ b, isSpace c = true) :
    b ≠ s ++ (w ++ t) := by
  rintro rfl
  obtain ⟨c, u, rfl⟩ := List.exists_cons_of_ne_nil hw.1
  have hspace := hb c (by simp)
  rw [hw.2 c List.mem_cons_self] at hspace
  cases hspace

/-- **A match that takes one line feed** ends with the line. -/
theorem requestLine_one_line {l s s' method uri : Bytes} {version : Option Bytes} (hl : IsLine l)
    (h : requestLine.Matches (l ++ (crlf ++ s)) (method, uri, version) s')
    (hcount : s.count lf ≤ s'.count lf) : s' = s ∧ ∃ b₁ b₂ e, IsGap b₁ ∧ IsGap b₂ ∧
      (e = [] ∨ e = [cr]) ∧
      l ++ [cr] = method ++ (b₁ ++ (uri ++ (b₂ ++ (versionText version ++ e)))) := by
  obtain ⟨b₁, b₂, e, heq, hmethod, huri, hversion, hb₁, hb₂, he⟩ := requestLine_pieces h
  have heol : ∃ e', (e' = [] ∨ e' = [cr]) ∧ e = e' ++ [lf] := by
    rcases he with rfl | rfl
    · exact ⟨[cr], .inr rfl, rfl⟩
    · exact ⟨[], .inl rfl, rfl⟩
  obtain ⟨e', he', rfl⟩ := heol
  have hlines : l ++ (crlf ++ s) = (l ++ [cr]) ++ lf :: s := by
    rw [List.append_assoc]
    rfl
  have hpieces : (l ++ [cr]) ++ lf :: s =
      (method ++ (b₁ ++ (uri ++ (b₂ ++ (versionText version ++ e'))))) ++ lf :: s' := by
    rw [← hlines, heq]
    simp only [List.append_assoc]
    rfl
  have hleft : IsLine (l ++ [cr]) := isLine_append.mpr ⟨hl, by simp [IsLine, cr, lf]⟩
  -- the line feeds are used up
  have hcount_line (x t : Bytes) : (x ++ lf :: t).count lf = x.count lf + (t.count lf + 1) := by
    rw [List.count_append, List.count_cons_self]
  have hcounts := congrArg (List.count lf) hpieces
  rw [hcount_line, hcount_line, List.count_eq_zero.mpr hleft] at hcounts
  have hright : IsLine (method ++ (b₁ ++ (uri ++ (b₂ ++ (versionText version ++ e'))))) :=
    List.count_eq_zero.mp (by omega)
  obtain ⟨hline, hs⟩ := line_inj hleft hright hpieces
  exact ⟨hs.symm, b₁, b₂, e', hb₁, hb₂, he', hline⟩

theorem isToken_host {p : Bytes} (hp : ∀ c ∈ p, isSpace c = false) :
    IsToken (p ++ bytes "host:") := by
  have hhost : ∀ c ∈ bytes "host:", isSpace c = false := isSpace_of_host (by decide)
  have hne : bytes "host:" ≠ [] := by decide
  exact ⟨List.append_ne_nil_of_right_ne_nil p hne, List.forall_mem_append.mpr ⟨hp, hhost⟩⟩

theorem isToken_http {version : Bytes} (hversion : IsToken version) :
    IsToken (bytes "HTTP/" ++ version) := by
  exact ⟨List.append_ne_nil_of_right_ne_nil _ hversion.1,
    List.forall_mem_append.mpr ⟨isSpace_http, hversion.2⟩⟩

section

variable {version : Option Bytes} {b₁ b₂ e : Bytes}

/-- White space at the end of a line, after which there is no version. -/
theorem space_of_end (hb₂ : IsGap b₂) (he : e = [] ∨ e = [cr]) :
    ∀ c ∈ b₂ ++ e, isSpace c = true := by
  refine List.forall_mem_append.mpr ⟨hb₂.2, ?_⟩
  rcases he with rfl | rfl
  · exact fun c hc => absurd hc List.not_mem_nil
  · simp [isSpace, cr]

theorem stops_end (he : e = [] ∨ e = [cr]) : Stops (!isSpace ·) e := by
  rcases he with rfl | rfl
  · exact stops_nil _
  · exact stops_cons.mpr rfl

/-- An address that is not empty is a token. -/
theorem isToken_address (hv : IsAddress v) (hne : v ≠ []) : IsToken v :=
  ⟨hne, fun c hc => (hv c hc).1⟩

/-- `host:` at the end of the method: the address is the target. -/
theorem pieces_of_host_method {method uri pre : Bytes} (hmethod : IsToken method)
    (huri : IsToken uri) (hversion : ∀ w ∈ version, IsToken w) (hv : IsAddress v)
    (hpre : ∀ c ∈ pre, isSpace c = false) (hb₁ : IsGap b₁) (hb₂ : IsGap b₂)
    (h : (pre ++ bytes "host:") ++ 32 :: (v ++ [cr]) =
      method ++ (b₁ ++ (uri ++ (b₂ ++ (versionText version ++ e))))) :
    version = none ∧ method = pre ++ bytes "host:" ∧ uri = v := by
  have hspace : Stops (!isSpace ·) (32 :: (v ++ [cr])) := stops_cons.mpr rfl
  obtain ⟨rfl, hrest⟩ := token_inj (isToken_host hpre) hmethod hspace (hb₁.stops _) h
  have hne : v ≠ [] := by
    rintro rfl
    exact no_token huri (by simp [isSpace, cr]) hrest
  have htoken := isToken_address hv hne
  obtain ⟨-, hrest⟩ := gap_inj hb₁ htoken huri hrest
  obtain ⟨rfl, hend⟩ := token_inj htoken huri (stops_cons.mpr rfl) (hb₂.stops _) hrest
  refine ⟨?_, rfl, rfl⟩
  cases version with
  | none => rfl
  | some w => exact absurd hend (no_token (isToken_http (hversion w rfl)) (by simp [isSpace, cr]))

/-- `host:` at the end of the target: the address is what stands for the version. -/
theorem pieces_of_host_uri {uri p : Bytes} (huri : IsToken uri)
    (hversion : ∀ w ∈ version, IsToken w) (hv : IsAddress v) (hp : ∀ c ∈ p, isSpace c = false)
    (hb₂ : IsGap b₂) (he : e = [] ∨ e = [cr])
    (h : (p ++ bytes "host:") ++ 32 :: (v ++ [cr]) = uri ++ (b₂ ++ (versionText version ++ e))) :
    uri = p ++ bytes "host:" ∧ v = versionText version := by
  have hspace : Stops (!isSpace ·) (32 :: (v ++ [cr])) := stops_cons.mpr rfl
  obtain ⟨rfl, hrest⟩ := token_inj (isToken_host hp) huri hspace (hb₂.stops _) h
  refine ⟨rfl, ?_⟩
  cases version with
  | none =>
      by_contra hne
      exact no_token (s := [32]) (isToken_address hv hne) (space_of_end hb₂ he) hrest.symm
  | some w =>
      have htoken := isToken_http (hversion w rfl)
      have hne : v ≠ [] := by
        rintro rfl
        exact no_token htoken (by simp [isSpace, cr]) hrest
      obtain ⟨-, hrest⟩ := gap_inj hb₂ (isToken_address hv hne) htoken hrest
      exact (token_inj (isToken_address hv hne) htoken (stops_cons.mpr rfl) (stops_end he) hrest).1

/-- No space comes before the end of a version. -/
theorem not_pieces_of_host_version {q : Bytes} (hversion : ∀ w ∈ version, IsToken w)
    (hq : ∀ c ∈ q, isSpace c = false) (hb₂ : IsGap b₂) (he : e = [] ∨ e = [cr]) :
    32 :: ((q ++ bytes "host:") ++ 32 :: (v ++ [cr])) ≠ b₂ ++ (versionText version ++ e) := by
  intro h
  cases version with
  | none => exact no_token (s := [32]) (isToken_host hq) (space_of_end hb₂ he) h.symm
  | some w =>
      have htoken := isToken_http (hversion w rfl)
      obtain ⟨-, hrest⟩ := gap_inj hb₂ (isToken_host hq) htoken h
      obtain ⟨-, hend⟩ := token_inj (isToken_host hq) htoken (stops_cons.mpr rfl) (stops_end he)
        hrest
      rcases he with rfl | rfl
      · cases hend
      · cases hend

end

/-- **What a request line with `host:` in it is read as**, if it is read as before. -/
theorem requestLine_kept_of_pieces {r : HTTPRequest} {version : Option Bytes}
    {pre b₁ b₂ e : Bytes} (hr : IsHead r) (hversions : ∀ w ∈ version, IsToken w) (hv : IsAddress v)
    (hversion : r.version = version.getD (bytes "0.9"))
    (hbefore : beforeHost (requestLineText r) = some pre) (hb₁ : IsGap b₁) (hb₂ : IsGap b₂)
    (he : e = [] ∨ e = [cr]) (h : pre ++ bytes "host: " ++ v ++ [cr] =
      r.method ++ (b₁ ++ (r.uri ++ (b₂ ++ (versionText version ++ e))))) :
    pre ++ bytes "host: " ++ v = requestLineText r ∨
      (r.version = bytes "0.9" ∧
        (pre ++ bytes "host: " ++ v = r.method ++ bytes " " ++ r.uri ∨
          pre ++ bytes "host: " ++ v = r.method ++ bytes " " ++ r.uri ++ bytes " ")) := by
  obtain ⟨w, tail, heq, hw⟩ := beforeHost_eq_some hbefore
  have hne : w ≠ [] := by
    rintro rfl
    exact absurd hw (by decide)
  have hhost : bytes "host: " = bytes "host:" ++ [32] := by decide
  have hword : ∀ c ∈ w, isSpace c = false := isSpace_of_host hw
  rw [requestLineText_eq] at heq
  rw [hhost] at h ⊢
  simp only [List.append_assoc, List.cons_append, List.nil_append] at h
  rcases word_in_part hne hword heq with ⟨t, ht⟩ | ⟨p, rfl, hafter⟩
  · have hpre : ∀ c ∈ pre, isSpace c = false :=
      fun c hc => hr.method.2 c (ht ▸ List.mem_append_left _ hc)
    rw [← List.append_assoc] at h
    obtain ⟨rfl, hm, hu⟩ := pieces_of_host_method hr.method hr.uri hversions hv hpre hb₁ hb₂ h
    refine .inr ⟨hversion, .inl ?_⟩
    rw [hm, hu, bytes_space]
    simp only [List.append_assoc]
  · simp only [List.append_assoc, List.cons_append] at h
    have h := List.append_cancel_left h
    rcases word_in_part hne hword hafter with ⟨t, ht⟩ | ⟨q, rfl, hend⟩
    · have hp : ∀ c ∈ p, isSpace c = false :=
        fun c hc => hr.uri.2 c (ht ▸ List.mem_append_left _ hc)
      rw [← List.append_assoc p] at h
      obtain ⟨-, h⟩ := gap_inj hb₁ (isToken_host hp) hr.uri h
      obtain ⟨hu, rfl⟩ := pieces_of_host_uri hr.uri hversions hv hp hb₂ he h
      cases version with
      | none =>
          refine .inr ⟨hversion, .inr ?_⟩
          rw [hu, bytes_space]
          simp [versionText]
      | some ver =>
          refine .inl ?_
          rw [requestLineText_eq, hu, hversion]
          simp [versionText]
    · have hq : ∀ c ∈ q, isSpace c = false :=
        fun c hc => (isToken_http hr.version).2 c (hend ▸ List.mem_append_left _ hc)
      simp only [List.append_assoc, List.cons_append] at h
      obtain ⟨-, h⟩ := gap_inj hb₁ hr.uri hr.uri h
      have h := List.append_cancel_left h
      rw [← List.append_assoc q] at h
      exact absurd h (not_pieces_of_host_version hversions hq hb₂ he)

theorem isLine_adjusted_requestLine {r : HTTPRequest} (hr : IsHead r) (hv : IsAddress v) :
    IsLine (adjusted v (requestLineText r)) := by
  have hline := isLine_requestLineText hr
  cases hbefore : beforeHost (requestLineText r) with
  | none =>
      rw [adjusted_of_none hbefore]
      exact hline
  | some pre =>
      obtain ⟨w, tail, heq, -⟩ := beforeHost_eq_some hbefore
      rw [heq] at hline
      rw [adjusted_of_some hbefore]
      exact isLine_append.mpr ⟨isLine_append.mpr ⟨(isLine_append.mp hline).1, isLine_hostSpace⟩,
        hv.isLine⟩

/-- **A request line that is read as before** is kept, if nothing but the line is read. -/
theorem requestLineKept_of_first {r : HTTPRequest} {version : Option Bytes} {s s' : Bytes}
    (hr : IsHead r) (hv : IsAddress v)
    (hfirst : requestLine.first (adjusted v (requestLineText r) ++ (crlf ++ s)) =
      some ((r.method, r.uri, version), s'))
    (hversion : r.version = version.getD (bytes "0.9")) (hcount : s.count lf ≤ s'.count lf)
    (hnil : r.headers = [] → s = crlf) : RequestLineKept v r := by
  have hm := matches_of_first hfirst
  have hversions := (matches_requestLine hm).2.2.1
  obtain ⟨rfl, b₁, b₂, e, hb₁, hb₂, he, heq⟩ :=
    requestLine_one_line (isLine_adjusted_requestLine hr hv) hm hcount
  intro pre hbefore
  rw [adjusted_of_some hbefore] at heq hfirst
  refine (requestLine_kept_of_pieces hr hversions hv hversion hbefore hb₁ hb₂ he heq).imp_right
    fun h => ?_
  obtain ⟨hzero, hshort⟩ := h
  refine ⟨hzero, fun hheaders => ?_, hshort⟩
  -- without headers the white space goes on up to the end
  have hread (b : Bytes) (hb : b ≠ [] ∧ ∀ c ∈ b, isSpace c = true) :=
    requestLine_first_short (s := []) hr.method hr.uri hb fun y t hy _ => by
      obtain ⟨rfl, rfl⟩ := List.append_eq_nil_iff.mp hy.symm
      rfl
  have hrest : s' = [] := by
    rw [hnil hheaders] at hfirst
    rcases hshort with hshort | hshort
    · have htext : pre ++ bytes "host: " ++ v ++ (crlf ++ crlf) =
          r.method ++ (bytes " " ++ (r.uri ++ ([cr, lf, cr] ++ [lf]))) := by
        rw [hshort]
        simp only [List.append_assoc]
        rfl
      rw [htext, hread [cr, lf, cr] (by simp [isSpace, cr, lf])] at hfirst
      cases hfirst
    · have htext : pre ++ bytes "host: " ++ v ++ (crlf ++ crlf) =
          r.method ++ (bytes " " ++ (r.uri ++ ([32, cr, lf, cr] ++ [lf]))) := by
        rw [hshort, bytes_space]
        simp only [List.append_assoc]
        rfl
      rw [htext, hread [32, cr, lf, cr] (by simp [isSpace, cr, lf])] at hfirst
      cases hfirst
  rw [hrest] at hnil
  exact absurd (hnil hheaders) (by decide)

/-! ### Whole requests -/

/-- Without headers there is no body. -/
theorem body_eq_nil {raw rest : Bytes} {r : HTTPRequest}
    (h : parseRequest gunzip raw = .ok (r, rest)) (hheaders : r.headers = []) : r.body = [] := by
  obtain ⟨-, -, rest₂, -, -, -, hbody⟩ := parseRequest_eq_ok.mp h
  rw [hheaders] at hbody
  exact (Prod.mk.inj (Except.ok.inj hbody)).1.symm

/-- **Only the host headers** are rewritten in a request exactly if it is kept. -/
theorem parseRequest_adjusted_iff {raw rest : Bytes} {r : HTTPRequest}
    (h : parseRequest gunzip raw = .ok (r, rest)) (hte : Lacks (bytes "transfer-encoding") r)
    (hce : Lacks (bytes "content-encoding") r) (hv : IsAddress v) :
    (∃ r' rest', parseRequest gunzip (adjustDatum v (requestHead r ++ r.body)) = .ok (r', rest') ∧
      RewritesHostOnly v r r') ↔ Kept v r := by
  have hr := isHead_of_parseRequest h
  rw [adjustDatum_request hr]
  obtain ⟨hs', hheaders, hread⟩ := parseHeaders_adjusted hr.headers hv (adjustDatum v r.body)
  have hreplaces := forall₂_replaces_iff hr.headers hv hread
  refine ⟨fun hrewrites => ?_, fun hkept => ?_⟩
  · obtain ⟨r', rest', hparse, hsame⟩ := hrewrites
    obtain ⟨version, rest₁, rest₂, hline, hversion, hheaders', hbody⟩ := parseRequest_eq_ok.mp hparse
    rw [hsame.method, hsame.uri] at hline
    rw [hsame.version] at hversion
    -- the headers and the body take all line feeds but one
    have hcount : (adjustedHeaders v r.headers ++ (crlf ++ adjustDatum v r.body)).count lf ≤
        rest₁.count lf := by
      obtain ⟨n, -, hbody_eq⟩ := parseBody_replaces h hte hce hsame.headers
      rw [hbody_eq, hsame.body] at hbody
      have hbody_count : r.body.count lf ≤ rest₂.count lf := by
        rw [← (Prod.mk.inj (Except.ok.inj hbody)).1]
        exact (List.take_sublist n rest₂).count_le lf
      rw [count_parseHeaders hheaders, count_parseHeaders hheaders', count_adjustDatum hv,
        ← hread.length_eq, ← hsame.headers.length_eq]
      omega
    have hline_kept : RequestLineKept v r := by
      refine requestLineKept_of_first hr hv hline hversion hcount fun hnil => ?_
      · rw [hnil, body_eq_nil h hnil]
        exact congrArg (crlf ++ ·) (adjustDatum_of_isLine List.not_mem_nil v)
    obtain ⟨v₁, hfirst, -⟩ := requestLine_first_kept hr hv hline_kept (crlf ++ adjustDatum v r.body)
    rw [hline] at hfirst
    cases hfirst
    rw [hheaders] at hheaders'
    cases hheaders'
    refine ⟨hline_kept, hreplaces.mp hsame.headers, ?_⟩
    rw [hsame.body] at hbody
    exact (parseBody_adjusted_iff h hte hce hv hsame.headers).mp ⟨rest', hbody⟩
  · obtain ⟨version, hfirst, hversion⟩ :=
      requestLine_first_kept hr hv hkept.line (crlf ++ adjustDatum v r.body)
    have hall := hreplaces.mpr hkept.headers
    obtain ⟨rest', hbody⟩ := (parseBody_adjusted_iff h hte hce hv hall).mpr hkept.body
    refine ⟨⟨r.method, r.uri, hs', r.body, r.version⟩, rest', ?_, ⟨rfl, rfl, rfl, hall, rfl⟩⟩
    exact parseRequest_eq_ok.mpr ⟨version, _, _, hfirst, hversion, hheaders, hbody⟩

/-- **`adjust_host_header` rewrites only the host headers** of a request exactly if `host:` stands
nowhere else, unless it makes no difference there. -/
theorem rewrites_iff {raw rest : Bytes} {r : HTTPRequest} (draws : ChunkDraws)
    (h : parseRequest gunzip raw = .ok (r, rest)) (hte : Lacks (bytes "transfer-encoding") r)
    (hce : Lacks (bytes "content-encoding") r) (hv : IsAddress v) :
    (∃ r' rest', (adjustHostHeader [unparseRequest draws r] v).map (parseRequest gunzip) =
      [.ok (r', rest')] ∧ RewritesHostOnly v r r') ↔ Kept v r := by
  rw [← parseRequest_adjusted_iff h hte hce hv, adjustHostHeader, List.map_singleton,
    List.map_singleton, unparseRequest_of_lacks hte]
  refine ⟨fun hrewrites => ?_, fun hrewrites => ?_⟩
  · obtain ⟨r', rest', hparse, hsame⟩ := hrewrites
    exact ⟨r', rest', (List.cons.inj hparse).1, hsame⟩
  · obtain ⟨r', rest', hparse, hsame⟩ := hrewrites
    exact ⟨r', rest', congrArg ([·]) hparse, hsame⟩

/-- A request with one header. -/
def hostRequest (name : Bytes) : HTTPRequest :=
  ⟨bytes "GET", bytes "/", [(name, bytes "a")], [], bytes "1.1"⟩

theorem lacks_hostRequest {k name : Bytes} (h : lower name ≠ k) : Lacks k (hostRequest name) :=
  List.forall_mem_singleton.mpr h

theorem isAddress_b : IsAddress (bytes "b") := by simp [IsAddress, bytes, isSpace]

/-- Its host header is rewritten. -/
theorem rewrites_iff_get :
    ∃ r' rest', (adjustHostHeader [unparseRequest ⟨[], fun _ => false, false⟩
      (hostRequest (bytes "Host"))] (bytes "b")).map (parseRequest fun _ => .error .badGzipFile) =
        [.ok (r', rest')] ∧ RewritesHostOnly (bytes "b") (hostRequest (bytes "Host")) r' := by
  have hparse : parseRequest (fun _ => .error .badGzipFile)
      (bytes "GET / HTTP/1.1\r\nHost: a\r\n\r\n") = .ok (hostRequest (bytes "Host"), []) := by
    decide +kernel
  have hte : Lacks (bytes "transfer-encoding") (hostRequest (bytes "Host")) :=
    lacks_hostRequest (by decide)
  have hce : Lacks (bytes "content-encoding") (hostRequest (bytes "Host")) :=
    lacks_hostRequest (by decide)
  refine (rewrites_iff _ hparse hte hce isAddress_b).mpr ⟨fun pre hpre => ?_, fun h hh => ?_, fun l hl => ?_⟩
  · have hnone : beforeHost (requestLineText (hostRequest (bytes "Host"))) = none := by
      decide
    rw [hnone] at hpre
    cases hpre
  · rw [List.mem_singleton.mp hh]
    exact .inl (by decide)
  · exact absurd hl (not_hasLine List.not_mem_nil)

/-- A header whose name ends like that of a host header is rewritten as well. -/
theorem not_rewrites :
    ¬ ∀ (gunzip : Bytes → Except GzipError Bytes) (draws : ChunkDraws) (raw rest v : Bytes)
      (r : HTTPRequest), parseRequest gunzip raw = .ok (r, rest) →
        Lacks (bytes "transfer-encoding") r → Lacks (bytes "content-encoding") r → IsAddress v →
          ∃ r' rest', (adjustHostHeader [unparseRequest draws r] v).map (parseRequest gunzip) =
            [.ok (r', rest')] ∧ RewritesHostOnly v r r' := by
  intro h
  have hparse : parseRequest (fun _ => .error .badGzipFile)
      (bytes "GET / HTTP/1.1\r\nX-Host: a\r\n\r\n") =
        .ok (hostRequest (bytes "X-Host"), []) := by
    decide +kernel
  have hte : Lacks (bytes "transfer-encoding") (hostRequest (bytes "X-Host")) :=
    lacks_hostRequest (by decide)
  have hce : Lacks (bytes "content-encoding") (hostRequest (bytes "X-Host")) :=
    lacks_hostRequest (by decide)
  have hadjusted : (adjustHostHeader [unparseRequest ⟨[], fun _ => false, false⟩
      (hostRequest (bytes "X-Host"))] (bytes "b")).map (parseRequest fun _ => .error .badGzipFile) =
        [.ok (⟨bytes "GET", bytes "/", [(bytes "X-host", bytes "b")], [], bytes "1.1"⟩, [])] := by
    decide +kernel
  obtain ⟨r', rest', hread, hsame⟩ := h _ ⟨[], fun _ => false, false⟩ _ _ _ _ hparse hte hce
    isAddress_b
  rw [hadjusted] at hread
  cases hread
  have hreplaces := (List.forall₂_cons.mp hsame.headers).1
  rw [Replaces, if_neg (by decide)] at hreplaces
  have hname : bytes "X-host" ≠ bytes "X-Host" := by decide
  exact hname (congrArg Prod.fst hreplaces)

end HttpGarden
