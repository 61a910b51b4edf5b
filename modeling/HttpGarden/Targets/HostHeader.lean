import HttpGarden.Http1.Unparse

/-!
# HttpGarden.Targets.HostHeader

`adjust_host_header`, which is applied to everything that is sent to a server that wants to see its
own address in the `Host` header.

It is a substitution in the bytes of the request, not anchored at the beginning of a line, so it
also takes effect in other headers, in the request line and in the body. `rewrites_iff` says for
which requests this does not matter.

The replacement is used as it is, as `re.sub` uses one without backslashes.
-/

namespace HttpGarden

open Lib Pattern

/-! ### The substitution -/

/-- The literal `w` under `re.IGNORECASE`; `w` is in lower case. -/
def wordIgnoreCase (w : Bytes) : Pattern UInt8 Unit := fun s =>
  if lower (s.take w.length) = w then [((), s.drop w.length)] else []

/-- `host:` -/
def hostColon : Pattern UInt8 Unit := wordIgnoreCase (bytes "host:")

/-- `host:[^\n]*\n` -/
def hostField : Pattern UInt8 Unit := do
  hostColon
  let _ ← many (· != lf)
  let _ ← one (· == lf)
  return ()

theorem matches_wordIgnoreCase {w s s' : Bytes} {a : Unit} :
    (wordIgnoreCase w).Matches s a s' ↔ ∃ x, s = x ++ s' ∧ lower x = w := by
  unfold Matches wordIgnoreCase
  refine ⟨fun h => ?_, fun h => ?_⟩
  · split at h
    · next hw =>
        obtain rfl := (Prod.mk.inj (List.mem_singleton.mp h)).2
        exact ⟨_, (List.take_append_drop w.length s).symm, hw⟩
    · cases h
  · obtain ⟨x, rfl, rfl⟩ := h
    have hlength : (lower x).length = x.length := List.length_map _
    rw [hlength, List.take_left, if_pos rfl, List.drop_left]
    exact List.mem_singleton_self _

theorem matches_hostField {s s' : Bytes} {a : Unit} (h : hostField.Matches s a s') :
    lf ∈ s ∧ s'.length < s.length := by
  simp only [hostField, matches_bind, matches_many, matches_one, matches_pure, beq_iff_eq] at h
  obtain ⟨_, s₁, hword, x, s₂, ⟨rfl, -⟩, c, s₃, ⟨rfl, rfl⟩, -, rfl⟩ := h
  obtain ⟨w, rfl, -⟩ := matches_wordIgnoreCase.mp hword
  refine ⟨by simp, ?_⟩
  simp only [List.length_append, List.length_cons]
  omega

theorem hostField_progress : hostField.Progress := fun _ _ _ h => (matches_hostField h).2

/-- `adjust_host_header` for one of the pieces of the data. -/
def adjustDatum (newValue datum : Bytes) : Bytes :=
  hostField.sub hostField_progress (bytes "host: " ++ newValue ++ bytes "\r\n") datum

/-- `adjust_host_header` -/
def adjustHostHeader (data : List Bytes) (newValue : Bytes) : List Bytes :=
  data.map (adjustDatum newValue)

/-! ### Line by line -/

/-- What stands before the first `host:` of a line. -/
def beforeHost (l : Bytes) : Option Bytes := (hostColon.search l).map (·.1)

/-- What becomes of a text, in a line that ends with a carriage return. -/
def adjusted (v x : Bytes) : Bytes :=
  match beforeHost x with
  | none => x
  | some pre => pre ++ bytes "host: " ++ v

theorem adjusted_of_none {x : Bytes} (h : beforeHost x = none) (v : Bytes) : adjusted v x = x := by
  rw [adjusted, h]

theorem adjusted_of_some {x pre : Bytes} (h : beforeHost x = some pre) (v : Bytes) :
    adjusted v x = pre ++ bytes "host: " ++ v := by
  rw [adjusted, h]

/-- There is no white space in `host:`. -/
theorem isSpace_of_host {w : Bytes} (h : lower w = bytes "host:") :
    ∀ c ∈ w, isSpace c = false := by
  intro c hc
  have hmem := List.mem_map_of_mem (f := fun c : UInt8 => if 65 ≤ c ∧ c ≤ 90 then c + 32 else c) hc
  rw [show w.map _ = bytes "host:" from h] at hmem
  revert hmem
  exact forall_byte (P := fun c => (if 65 ≤ c ∧ c ≤ 90 then c + 32 else c) ∈ bytes "host:" →
    isSpace c = false) (by decide +kernel) c

theorem hostColon_first_append {w : Bytes} (h : lower w = bytes "host:") (s : Bytes) :
    hostColon.first (w ++ s) = some ((), s) := by
  refine first_of_unique (matches_wordIgnoreCase.mpr ⟨w, rfl, h⟩) ?_
  intro b s₁ hs₁
  obtain ⟨w', heq, hw'⟩ := matches_wordIgnoreCase.mp hs₁
  have hlower := congrArg List.length (h.trans hw'.symm)
  have hlength : w.length = w'.length := by
    rwa [lower, lower, List.length_map, List.length_map] at hlower
  exact ⟨rfl, ((List.append_inj heq hlength).2).symm⟩

/-- `host:` does not go on behind white space. -/
theorem hostColon_first_space {t : Bytes} {d : UInt8} (hd : isSpace d = true) (s : Bytes)
    (h : hostColon.first t = none) : hostColon.first (t ++ d :: s) = none := by
  rw [first_eq_none_iff]
  intro a s' hmatches
  obtain ⟨w, heq, hw⟩ := matches_wordIgnoreCase.mp hmatches
  rcases List.append_eq_append_iff.mp heq with ⟨x, rfl, hx⟩ | ⟨x, rfl, -⟩
  · cases x with
    | nil =>
        rw [List.append_nil] at hw
        rw [← List.append_nil t, hostColon_first_append hw] at h
        cases h
    | cons c x =>
        obtain rfl := (List.cons.inj hx).1
        have hspace := isSpace_of_host hw d (List.mem_append_right _ List.mem_cons_self)
        rw [hd] at hspace
        cases hspace
  · rw [hostColon_first_append hw] at h
    cases h

/-- The field ends with the line. -/
theorem hostField_first_line {t : Bytes} (ht : IsLine t) (s : Bytes) :
    hostField.first (t ++ lf :: s) = (hostColon.first t).map fun _ => ((), s) := by
  cases h : hostColon.first t with
  | none =>
      rw [Option.map_none, first_eq_none_iff]
      intro a s' hmatches
      obtain ⟨b, s₁, hword, -⟩ := matches_bind.mp hmatches
      exact first_eq_none_iff.mp (hostColon_first_space (by decide) s h) b s₁ hword
  | some m =>
      obtain ⟨w, rfl, hw⟩ := matches_wordIgnoreCase.mp (matches_of_first h)
      have hrun : ∀ c ∈ m.2, (c != lf) = true := by
        intro c hc
        refine bne_iff_ne.mpr ?_
        rintro rfl
        exact ht (List.mem_append_right _ hc)
      rw [List.append_assoc]
      exact first_bind (hostColon_first_append hw _)
        (first_bind (first_many hrun (stops_cons.mpr (by decide)))
          (first_bind (first_one (by decide) s) rfl))

theorem search_hostField_line {l : Bytes} (hl : IsLine l) (s : Bytes) :
    hostField.search (l ++ lf :: s) =
      match beforeHost l with
      | none => (hostField.search s).map fun m => ((l ++ [lf]) ++ m.1, m.2)
      | some pre => some (pre, (), s) := by
  induction l with
  | nil =>
      have hnone : hostField.first (lf :: s) = none := hostField_first_line hl s
      have hbefore : beforeHost [] = none := by decide
      rw [List.nil_append, search_cons_of_none hnone, hbefore]
      rfl
  | cons c l ih =>
      have hfirst := hostField_first_line hl s
      cases h : hostColon.first (c :: l) with
      | none =>
          rw [h, Option.map_none, List.cons_append] at hfirst
          have hbefore : beforeHost (c :: l) = (beforeHost l).map (c :: ·) := by
            rw [beforeHost, search_cons_of_none h, Option.map_map, beforeHost, Option.map_map]
            rfl
          rw [List.cons_append, search_cons_of_none hfirst, ih (isLine_cons.mp hl).2, hbefore]
          cases beforeHost l with
          | none =>
              simp only [Option.map_none, Option.map_map]
              rfl
          | some pre => rfl
      | some m =>
          rw [h, Option.map_some] at hfirst
          rw [search_of_first hfirst, beforeHost, search_of_first h]
          rfl

variable {v : Bytes}

/-- **A line**, and then what follows it. -/
theorem adjustDatum_line {l : Bytes} (hl : IsLine l) (v s : Bytes) :
    adjustDatum v (l ++ lf :: s) =
      match beforeHost l with
      | none => l ++ lf :: adjustDatum v s
      | some pre => pre ++ bytes "host: " ++ v ++ (crlf ++ adjustDatum v s) := by
  have hsearch := search_hostField_line hl s
  have hcrlf : bytes "\r\n" = crlf := by decide
  cases h : beforeHost l with
  | none =>
      rw [h] at hsearch
      have hpass : hostField.search ((l ++ [lf]) ++ s) =
          (hostField.search s).map fun m => ((l ++ [lf]) ++ m.1, m.2) := by
        rw [List.append_assoc]
        exact hsearch
      show adjustDatum v (l ++ ([lf] ++ s)) = l ++ ([lf] ++ adjustDatum v s)
      rw [← List.append_assoc, ← List.append_assoc]
      exact sub_append hostField_progress hpass
  | some pre =>
      rw [h] at hsearch
      rw [adjustDatum, sub_of_search_some hostField_progress hsearch, hcrlf]
      simp only [List.append_assoc]
      rfl

/-- What has no line break stays as it is. -/
theorem adjustDatum_of_isLine {l : Bytes} (hl : IsLine l) (v : Bytes) : adjustDatum v l = l := by
  refine sub_of_search_none hostField_progress ?_
  cases h : hostField.search l with
  | none => rfl
  | some m =>
      obtain ⟨mid, rfl, hfirst⟩ := search_sound h
      have hlf := (matches_hostField (matches_of_first hfirst)).1
      exact absurd (List.mem_append_right _ hlf) hl

theorem beforeHost_concat_space (x : Bytes) {d : UInt8} (hd : isSpace d = true) :
    beforeHost (x ++ [d]) = beforeHost x := by
  induction x with
  | nil =>
      have hfirst : hostColon.first ([] ++ [d]) = none :=
        hostColon_first_space hd [] (by decide)
      have hnil : hostColon.search [] = none := by decide
      rw [beforeHost, List.nil_append, search_cons_of_none hfirst, beforeHost, hnil]
      rfl
  | cons c x ih =>
      cases h : hostColon.first (c :: x) with
      | none =>
          have hfirst : hostColon.first (c :: (x ++ [d])) = none := hostColon_first_space hd [] h
          rw [beforeHost, beforeHost] at ih
          rw [beforeHost, List.cons_append, search_cons_of_none hfirst, beforeHost,
            search_cons_of_none h, Option.map_map, Option.map_map]
          show ((hostColon.search (x ++ [d])).map fun m => c :: m.1) =
            (hostColon.search x).map fun m => c :: m.1
          have hmap := congrArg (Option.map (c :: ·)) ih
          rwa [Option.map_map, Option.map_map] at hmap
      | some m =>
          obtain ⟨w, hx, hw⟩ := matches_wordIgnoreCase.mp (matches_of_first h)
          rw [hx, List.append_assoc, beforeHost, search_of_first (hostColon_first_append hw _),
            beforeHost, search_of_first (hostColon_first_append hw _)]
          rfl

/-- **A line of a request**, as the requests are written. -/
theorem adjustDatum_crlf {x : Bytes} (hx : IsLine x) (v s : Bytes) :
    adjustDatum v (x ++ (crlf ++ s)) = adjusted v x ++ (crlf ++ adjustDatum v s) := by
  have hline : IsLine (x ++ [cr]) := isLine_append.mpr ⟨hx, by simp [IsLine, cr, lf]⟩
  have hsplit : x ++ (crlf ++ s) = (x ++ [cr]) ++ lf :: s := by
    rw [List.append_assoc]
    rfl
  rw [hsplit, adjustDatum_line hline, beforeHost_concat_space x (by decide), adjusted]
  cases beforeHost x with
  | none =>
      rw [List.append_assoc]
      rfl
  | some pre => rfl

/-! ### Where `host:` is -/

theorem beforeHost_eq_some {x pre : Bytes} (h : beforeHost x = some pre) :
    ∃ w tail, x = pre ++ (w ++ tail) ∧ lower w = bytes "host:" := by
  obtain ⟨m, hm, rfl⟩ := Option.map_eq_some_iff.mp h
  obtain ⟨mid, rfl, hfirst⟩ := search_sound hm
  obtain ⟨w, rfl, hw⟩ := matches_wordIgnoreCase.mp (matches_of_first hfirst)
  exact ⟨w, m.2.2, rfl, hw⟩

theorem beforeHost_append {w : Bytes} (hw : lower w = bytes "host:") (s : Bytes) :
    beforeHost (w ++ s) = some [] := by
  rw [beforeHost, search_of_first (hostColon_first_append hw s)]
  rfl

/-- `host`, and the colon. -/
theorem exists_host {w : Bytes} (h : lower w = bytes "host:") :
    ∃ x, w = x ++ [colon] ∧ lower x = bytes "host" := by
  have hcolon : ∀ c : UInt8, (if 65 ≤ c ∧ c ≤ 90 then c + 32 else c) = colon → c = colon :=
    forall_byte (by decide +kernel)
  rw [show bytes "host:" = bytes "host" ++ [colon] by decide] at h
  obtain ⟨x, y, rfl, hx, hy⟩ := List.map_eq_append_iff.mp h
  obtain ⟨c, rfl, hc⟩ := List.map_eq_singleton_iff.mp hy
  exact ⟨x, by rw [hcolon c hc], hx⟩

/-- A word stands within one of two parts that are separated by a space. -/
theorem word_in_part {a b pre w tail : Bytes} (hne : w ≠ []) (hw : ∀ c ∈ w, isSpace c = false)
    (h : a ++ 32 :: b = pre ++ (w ++ tail)) :
    (∃ t, a = pre ++ (w ++ t)) ∨ ∃ p, pre = a ++ 32 :: p ∧ b = p ++ (w ++ tail) := by
  have hspace {x y : Bytes} (heq : w ++ x = 32 :: y) : False := by
    obtain ⟨c, w, rfl⟩ := List.exists_cons_of_ne_nil hne
    have hc := hw c List.mem_cons_self
    rw [(List.cons.inj heq).1] at hc
    cases hc
  rcases List.append_eq_append_iff.mp h with ⟨x, rfl, hx⟩ | ⟨x, rfl, hx⟩
  · cases x with
    | nil => exact (hspace hx.symm).elim
    | cons c p =>
        obtain ⟨rfl, hb⟩ := List.cons.inj hx
        exact .inr ⟨p, rfl, hb⟩
  · rcases List.append_eq_append_iff.mp hx with ⟨y, rfl, -⟩ | ⟨y, rfl, hy⟩
    · exact .inl ⟨y, rfl⟩
    · cases y with
      | nil => exact .inl ⟨[], by rw [List.append_nil, List.append_nil]⟩
      | cons c y =>
          have hc := hw c (List.mem_append_right _ List.mem_cons_self)
          rw [← (List.cons.inj hy).1] at hc
          cases hc

/-! ### Headers -/

/-- An address has no white space in it, and no backslash. -/
def IsAddress (v : Bytes) : Prop := ∀ c ∈ v, isSpace c = false ∧ c ≠ 92

theorem IsAddress.isLine (hv : IsAddress v) : IsLine v := by
  intro hlf
  have hspace := (hv lf hlf).1
  cases hspace

theorem isBlank_of_not_space {c : UInt8} (h : isSpace c = false) : isBlank c = false := by
  revert h
  exact forall_byte (P := fun c => isSpace c = false → isBlank c = false) (by decide +kernel) c

theorem IsAddress.stops_reverse (hv : IsAddress v) : Stops isBlank v.reverse :=
  fun c hc => isBlank_of_not_space (hv c (List.mem_reverse.mp (List.mem_of_mem_head? hc))).1

theorem IsAddress.trimmed (hv : IsAddress v) : Trimmed v :=
  ⟨fun c hc => isBlank_of_not_space (hv c (List.mem_of_mem_head? hc)).1, hv.stops_reverse⟩

/-- A trailing space does not count. -/
theorem headerLine_first_padded {h : Header} (hh : IsHeader h) :
    headerLine.first (headerText h ++ [32]) = some (h, []) := by
  by_cases hvalue : h.2 = []
  · have htext : headerText h ++ [32] = h.1 ++ (colon :: ([32, 32] ++ (h.2 ++ []))) := by
      rw [headerText, bytes_colonSpace, hvalue, List.append_nil, List.append_assoc]
      rfl
    rw [htext]
    exact headerLine_first hh (by simp [isBlank]) (by simp) (by rw [hvalue]; exact stops_nil _)
  · have htext : headerText h ++ [32] = h.1 ++ (colon :: ([32] ++ (h.2 ++ [32]))) := by
      rw [headerText, bytes_colonSpace, List.append_assoc, List.append_assoc]
      rfl
    obtain ⟨c, value, heq⟩ := List.exists_cons_of_ne_nil hvalue
    rw [htext]
    refine headerLine_first hh (by simp [isBlank]) (by simp [isBlank]) ?_
    have hstops := hh.trimmed.1
    rw [heq, stops_cons] at hstops
    rw [heq, List.cons_append, stops_cons]
    exact hstops

theorem bytes_hostSpace : bytes "host: " = bytes "host" ++ bytes ": " := by decide

theorem isHeader_host {pre : Bytes} (hpre : ∀ c ∈ pre, c ≠ colon ∧ c ≠ lf) {value : Bytes}
    (hline : IsLine value) (htrim : Trimmed value) : IsHeader (pre ++ bytes "host", value) where
  name_ne_nil := List.append_ne_nil_of_right_ne_nil pre (by decide)
  name := List.forall_mem_append.mpr ⟨hpre, by simp [bytes, colon, lf]⟩
  value := hline
  trimmed := htrim

theorem headerText_eq (h : Header) : headerText h = (h.1 ++ [colon]) ++ (32 :: h.2) := by
  rw [headerText, bytes_colonSpace, List.append_assoc, List.append_assoc]
  rfl

theorem isLine_hostSpace : IsLine (bytes "host: ") := by
  unfold IsLine
  decide

/-- The name of a host header is what is found first. -/
theorem adjusted_of_host {h : Header} (hhost : lower h.1 = bytes "host") :
    adjusted v (headerText h) = headerText (bytes "host", v) := by
  have hword : lower (h.1 ++ [colon]) = bytes "host:" := by
    rw [lower, List.map_append]
    rw [lower] at hhost
    rw [hhost]
    decide
  rw [adjusted, headerText_eq, beforeHost_append hword, bytes_hostSpace]
  rfl

/-- `host:` at the end of a name. -/
theorem exists_adjusted_name {h : Header} {pre w t : Bytes} (hh : IsHeader h) (hv : IsAddress v)
    (hw : lower w = bytes "host:") (h' : h.1 ++ [colon] = pre ++ (w ++ t)) :
    IsHeader (pre ++ bytes "host", v) ∧
      pre ++ bytes "host: " ++ v = headerText (pre ++ bytes "host", v) := by
  obtain ⟨x, rfl, -⟩ := exists_host hw
  have hname : h.1 = pre ++ x := by
    rcases List.eq_nil_or_concat t with rfl | ⟨t, d, rfl⟩
    · rw [List.append_nil, ← List.append_assoc] at h'
      exact List.append_cancel_right h'
    · rw [List.concat_eq_append, ← List.append_assoc, ← List.append_assoc] at h'
      have hmem : colon ∈ h.1 := by
        rw [List.append_inj_left' h' rfl]
        simp
      exact absurd rfl (hh.name colon hmem).1
  have hpre : ∀ c ∈ pre, c ≠ colon ∧ c ≠ lf :=
    fun c hc => hh.name c (hname ▸ List.mem_append_left x hc)
  refine ⟨isHeader_host hpre hv.isLine hv.trimmed, ?_⟩
  rw [headerText, bytes_hostSpace, List.append_assoc, List.append_assoc, List.append_assoc,
    List.append_assoc]

/-- `host:` in a value. -/
theorem exists_adjusted_value {h : Header} {p s : Bytes} (hh : IsHeader h) (hv : IsAddress v)
    (hvalue : h.2 = p ++ s) :
    ∃ value, IsHeader (h.1, value) ∧
      ((h.1 ++ [colon]) ++ 32 :: p ++ bytes "host: " ++ v = headerText (h.1, value) ∨
        (h.1 ++ [colon]) ++ 32 :: p ++ bytes "host: " ++ v = headerText (h.1, value) ++ [32]) := by
  have hp : IsLine p := (isLine_append.mp (hvalue ▸ hh.value)).1
  have hstops : Stops isBlank p := stops_append (hvalue ▸ hh.trimmed.1)
  have hfront (t : Bytes) : Stops isBlank (p ++ 104 :: t) := stops_append_cons hstops rfl t
  by_cases hnil : v = []
  · have hhost : bytes "host: " = (104 :: bytes "ost:") ++ [32] := by decide
    have hreverse : Stops isBlank (p ++ 104 :: bytes "ost:").reverse := by
      rw [show bytes "ost:" = bytes "ost" ++ [colon] by decide, ← List.cons_append,
        ← List.append_assoc, List.reverse_append]
      exact stops_cons.mpr rfl
    have hline : IsLine (104 :: bytes "ost:") := by
      unfold IsLine
      decide
    refine ⟨p ++ 104 :: bytes "ost:", ⟨hh.name_ne_nil, hh.name, isLine_append.mpr ⟨hp, hline⟩,
      hfront _, hreverse⟩, .inr ?_⟩
    rw [hnil, List.append_nil, hhost, headerText_eq]
    simp only [List.append_assoc, List.cons_append]
  · have hhost : bytes "host: " = 104 :: bytes "ost: " := by decide
    have hreverse : Stops isBlank (p ++ (bytes "host: " ++ v)).reverse := by
      obtain ⟨c, t, heq⟩ := List.exists_cons_of_ne_nil (mt List.reverse_eq_nil_iff.mp hnil)
      have hc := hv.stops_reverse
      rw [heq, stops_cons] at hc
      rw [List.reverse_append, List.reverse_append, heq, List.cons_append, List.cons_append]
      exact stops_cons.mpr hc
    have hline : IsLine (p ++ (bytes "host: " ++ v)) :=
      isLine_append.mpr ⟨hp, isLine_append.mpr ⟨isLine_hostSpace, hv.isLine⟩⟩
    refine ⟨p ++ (bytes "host: " ++ v), ⟨hh.name_ne_nil, hh.name, hline, ?_, hreverse⟩, .inl ?_⟩
    · rw [hhost]
      exact hfront _
    · rw [headerText_eq]
      simp only [List.append_assoc, List.cons_append]

/-- **A header that is changed** is still a header, with a space behind it if the address is
empty. -/
theorem exists_adjusted {h : Header} (hh : IsHeader h) (hv : IsAddress v) :
    ∃ h', IsHeader h' ∧ (lower h.1 = bytes "host" → h' = (bytes "host", v)) ∧
      (adjusted v (headerText h) = headerText h' ∨
        adjusted v (headerText h) = headerText h' ++ [32]) := by
  by_cases hhost : lower h.1 = bytes "host"
  · refine ⟨([] ++ bytes "host", v), isHeader_host (by simp) hv.isLine hv.trimmed, fun _ => rfl,
      .inl (adjusted_of_host hhost)⟩
  · cases hbefore : beforeHost (headerText h) with
    | none =>
        rw [adjusted, hbefore]
        exact ⟨h, hh, fun h => absurd h hhost, .inl rfl⟩
    | some pre =>
        obtain ⟨w, tail, heq, hw⟩ := beforeHost_eq_some hbefore
        have hne : w ≠ [] := by
          rintro rfl
          exact absurd hw (by decide)
        rw [headerText_eq] at heq
        rw [adjusted, hbefore]
        rcases word_in_part hne (isSpace_of_host hw) heq with ⟨t, ht⟩ | ⟨p, rfl, hvalue⟩
        · obtain ⟨hheader, htext⟩ := exists_adjusted_name hh hv hw ht
          exact ⟨_, hheader, fun h => absurd h hhost, .inl htext⟩
        · obtain ⟨value, hheader, htext⟩ := exists_adjusted_value hh hv hvalue
          exact ⟨_, hheader, fun h => absurd h hhost, htext⟩

/-- How a text is read that is one of the spellings of a header. -/
theorem headerLine_first_of_text {h : Header} {t : Bytes} (hh : IsHeader h)
    (ht : t = headerText h ∨ t = headerText h ++ [32]) : headerLine.first t = some (h, []) := by
  rcases ht with rfl | rfl
  · exact headerLine_first_headerText hh
  · exact headerLine_first_padded hh

/-- A header where the value of host headers is replaced. -/
def Replaces (v : Bytes) (h h' : Header) : Prop :=
  if lower h.1 = bytes "host" then lower h'.1 = bytes "host" ∧ h'.2 = v else h' = h

/-- In a header that is not a host header, either there is no `host:`, or what stands from there on
is what is put there. -/
def HeaderKept (v : Bytes) (h : Header) : Prop :=
  lower h.1 = bytes "host" ∨ ∀ pre, beforeHost (headerText h) = some pre →
    pre ++ bytes "host: " ++ v = headerText h ∨ pre ++ bytes "host: " ++ v = headerText h ++ [32]

/-- **One header** is read back as it should be exactly if it is kept. -/
theorem replaces_iff {h h' : Header} {t : Bytes} (hh : IsHeader h) (hv : IsAddress v)
    (hread : headerLine.first (adjusted v (headerText h)) = some (h', t)) :
    Replaces v h h' ↔ HeaderKept v h := by
  obtain ⟨k, hk, hhost, htext⟩ := exists_adjusted hh hv
  rw [headerLine_first_of_text hk htext] at hread
  cases hread
  rw [Replaces, HeaderKept]
  by_cases hname : lower h.1 = bytes "host"
  · rw [if_pos hname, hhost hname]
    have hlower : lower (bytes "host") = bytes "host" := by decide
    exact iff_of_true ⟨hlower, rfl⟩ (.inl hname)
  · rw [if_neg hname, or_iff_right hname]
    refine ⟨fun heq pre hpre => ?_, fun hkept => ?_⟩
    · rw [adjusted, hpre, heq] at htext
      exact htext
    · have hsame : adjusted v (headerText h) = headerText h ∨
          adjusted v (headerText h) = headerText h ++ [32] := by
        rw [adjusted]
        cases hbefore : beforeHost (headerText h) with
        | none => exact .inl rfl
        | some pre => exact hkept pre hbefore
      have hread := headerLine_first_of_text hh hsame
      rw [headerLine_first_of_text hk htext] at hread
      cases hread
      rfl

theorem isLine_adjusted {h : Header} (hh : IsHeader h) (hv : IsAddress v) :
    IsLine (adjusted v (headerText h)) ∧ adjusted v (headerText h) ≠ [] := by
  obtain ⟨k, hk, -, htext⟩ := exists_adjusted hh hv
  obtain ⟨hline, hne⟩ := isLine_headerText hk
  rcases htext with htext | htext
  · rw [htext]
    exact ⟨hline, hne⟩
  · rw [htext]
    exact ⟨isLine_append.mpr ⟨hline, by simp [IsLine, lf]⟩, List.append_ne_nil_of_left_ne_nil hne _⟩

/-! ### The body -/

/-- One of the lines of a text that come to their end. -/
inductive HasLine (l : Bytes) : Bytes → Prop
  | here (h : IsLine l) (s : Bytes) : HasLine l (l ++ lf :: s)
  | there {l' s : Bytes} (h : IsLine l') (hs : HasLine l s) : HasLine l (l' ++ lf :: s)

/-- In the lines of a body that come to their end, what stands from `host:` on is what is put
there. -/
def BodyKept (v body : Bytes) : Prop :=
  ∀ l, HasLine l body → ∀ pre, beforeHost l = some pre → pre ++ bytes "host: " ++ v ++ [cr] = l

/-- The first line feed is in one place. -/
theorem line_inj {l l' s s' : Bytes} (hl : IsLine l) (hl' : IsLine l')
    (h : l ++ lf :: s = l' ++ lf :: s') : l = l' ∧ s = s' := by
  rcases List.append_eq_append_iff.mp h with ⟨x, rfl, hx⟩ | ⟨x, rfl, hx⟩
  · cases x with
    | nil =>
        rw [List.append_nil]
        exact ⟨rfl, (List.cons.inj hx).2⟩
    | cons c x =>
        rw [← (List.cons.inj hx).1] at hl'
        exact absurd (List.mem_append_right _ List.mem_cons_self) hl'
  · cases x with
    | nil =>
        rw [List.append_nil]
        exact ⟨rfl, ((List.cons.inj hx).2).symm⟩
    | cons c x =>
        rw [← (List.cons.inj hx).1] at hl
        exact absurd (List.mem_append_right _ List.mem_cons_self) hl

theorem hasLine_cons {l l' s : Bytes} (hl' : IsLine l') :
    HasLine l (l' ++ lf :: s) ↔ l = l' ∨ HasLine l s := by
  refine ⟨fun h => ?_, fun h => ?_⟩
  · generalize heq : l' ++ lf :: s = t at h
    cases h with
    | here hl s' => exact .inl (line_inj hl' hl heq).1.symm
    | there hl hs =>
        obtain ⟨-, rfl⟩ := line_inj hl' hl heq
        exact .inr hs
  · rcases h with rfl | hs
    · exact .here hl' s
    · exact .there hl' hs

theorem not_hasLine {l s : Bytes} (hs : IsLine s) : ¬ HasLine l s := by
  intro h
  cases h with
  | here => exact hs (by simp)
  | there => exact hs (by simp)

/-- By the lines of a text. -/
theorem lines_induction {P : Bytes → Prop} (hlast : ∀ s, IsLine s → P s)
    (hline : ∀ l s, IsLine l → P s → P (l ++ lf :: s)) (s : Bytes) : P s := by
  induction hn : s.length using Nat.strong_induction_on generalizing s with
  | _ n ih =>
      by_cases hs : IsLine s
      · exact hlast s hs
      · obtain ⟨l, t, rfl, hl⟩ := List.eq_append_cons_of_mem (not_not.mp hs)
        refine hline l t hl (ih t.length ?_ t rfl)
        rw [← hn, List.length_append, List.length_cons]
        omega

/-- One line is left alone exactly if it is kept. -/
theorem adjustDatum_line_eq_iff {l s t : Bytes} (hl : IsLine l) (hv : IsAddress v) :
    adjustDatum v (l ++ lf :: s) = l ++ lf :: t ↔
      (∀ pre, beforeHost l = some pre → pre ++ bytes "host: " ++ v ++ [cr] = l) ∧
        adjustDatum v s = t := by
  rw [adjustDatum_line hl]
  cases hbefore : beforeHost l with
  | none =>
      refine ⟨fun h => ⟨nofun, (line_inj hl hl h).2⟩, fun h => ?_⟩
      dsimp only
      rw [h.2]
  | some pre =>
      obtain ⟨w, tail, rfl, -⟩ := beforeHost_eq_some hbefore
      have hnew : IsLine (pre ++ bytes "host: " ++ v ++ [cr]) :=
        isLine_append.mpr ⟨isLine_append.mpr ⟨isLine_append.mpr ⟨(isLine_append.mp hl).1,
          isLine_hostSpace⟩, hv.isLine⟩, by simp [IsLine, lf, cr]⟩
      have hsplit : pre ++ bytes "host: " ++ v ++ (crlf ++ adjustDatum v s) =
          (pre ++ bytes "host: " ++ v ++ [cr]) ++ lf :: adjustDatum v s := by
        rw [List.append_assoc _ [cr]]
        rfl
      dsimp only
      rw [hsplit]
      refine ⟨fun h => ?_, fun h => ?_⟩
      · obtain ⟨heq, hs⟩ := line_inj hnew hl h
        refine ⟨fun pre' hpre' => ?_, hs⟩
        cases hpre'
        exact heq
      · rw [h.1 pre rfl, h.2]

/-- **A body** comes out with nothing but more bytes behind it only if all of its lines are
kept. -/
theorem adjustDatum_eq_append_iff (hv : IsAddress v) (s t : Bytes) :
    adjustDatum v s = s ++ t ↔ t = [] ∧ BodyKept v s := by
  induction s using lines_induction generalizing t with
  | hlast s hs =>
      rw [adjustDatum_of_isLine hs]
      refine ⟨fun h => ⟨?_, fun l hl => absurd hl (not_hasLine hs)⟩, fun h => ?_⟩
      · exact List.append_cancel_left ((List.append_nil s).trans h).symm
      · rw [h.1, List.append_nil]
  | hline l s hl ih =>
      rw [List.append_assoc, List.cons_append, adjustDatum_line_eq_iff hl hv, ih]
      refine ⟨fun h => ⟨h.2.1, fun l' hl' => ?_⟩, fun h => ⟨?_, h.1, fun l' hl' => ?_⟩⟩
      · rcases (hasLine_cons hl).mp hl' with rfl | hs
        · exact h.1
        · exact h.2.2 l' hs
      · exact h.2 l ((hasLine_cons hl).mpr (.inl rfl))
      · exact h.2 l' ((hasLine_cons hl).mpr (.inr hl'))

/-- The number of line feeds stays the same. -/
theorem count_adjustDatum (hv : IsAddress v) (s : Bytes) :
    (adjustDatum v s).count lf = s.count lf := by
  induction s using lines_induction with
  | hlast s hs => rw [adjustDatum_of_isLine hs]
  | hline l s hl ih =>
      rw [adjustDatum_line hl]
      cases hbefore : beforeHost l with
      | none =>
          dsimp only
          rw [List.count_append, List.count_append, List.count_cons_self, List.count_cons_self, ih]
      | some pre =>
          obtain ⟨w, tail, rfl, -⟩ := beforeHost_eq_some hbefore
          have hpre : IsLine (pre ++ bytes "host: " ++ v) :=
            isLine_append.mpr ⟨isLine_append.mpr ⟨(isLine_append.mp hl).1, isLine_hostSpace⟩,
              hv.isLine⟩
          have hcrlf : crlf.count lf = 1 := by decide
          dsimp only
          generalize pre ++ bytes "host: " ++ v = x at hpre ⊢
          rw [List.count_append, List.count_append, List.count_append, ih,
            List.count_eq_zero.mpr hpre, List.count_eq_zero.mpr hl, List.count_cons_self, hcrlf]
          omega

end HttpGarden
