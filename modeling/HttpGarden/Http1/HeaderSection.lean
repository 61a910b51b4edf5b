import HttpGarden.Http1.Lines

/-!
# HttpGarden.Http1.HeaderSection

**Header sections** as senders may write them: every line ends in `\r\n` or in a bare
`\n`, also the blank one, and blanks stand around the values.

`parse_headers` gives the headers and what follows the blank line back, with one
exception: the branch for the null section asks for `\r\n`, where every other line may
end in a bare `\n` (`parseHeaders_headerSection_iff`).
-/

namespace HttpGarden

open Lib Pattern

/-! ### The text of a section -/

/-- A line of the section: a header, the blanks around its value, and the end of the line. -/
structure FieldLine where
  header : Header
  before : Bytes
  after : Bytes
  ending : LineEnd
  isHeader : IsHeader header
  bare : cr ∉ header.1 ∧ cr ∉ header.2
  blank_before : ∀ c ∈ before, isBlank c = true
  blank_after : ∀ c ∈ after, isBlank c = true

/-- The line without its end. -/
def FieldLine.text (l : FieldLine) : Bytes :=
  l.header.1 ++ (colon :: (l.before ++ (l.header.2 ++ l.after)))

/-- The whole section, with the blank line that ends it. -/
def headerSection (ls : List FieldLine) (blank : LineEnd) : Bytes :=
  (ls.flatMap fun l => l.text ++ l.ending.bytes) ++ blank.bytes

/-! ### Its lines -/

theorem not_mem_of_blank {c : UInt8} {b : Bytes} (hc : isBlank c = false)
    (hb : ∀ d ∈ b, isBlank d = true) : c ∉ b := by
  intro hcb
  rw [hb c hcb] at hc
  cases hc

theorem FieldLine.cr_not_mem_text (l : FieldLine) : cr ∉ l.text := by
  have hbefore : cr ∉ l.before := not_mem_of_blank (by decide) l.blank_before
  have hafter : cr ∉ l.after := not_mem_of_blank (by decide) l.blank_after
  have hcolon : cr ≠ colon := by decide
  simp [FieldLine.text, l.bare, hbefore, hafter, hcolon]

theorem FieldLine.isLine_text (l : FieldLine) : IsLine l.text := by
  have hname : IsLine l.header.1 := fun hlf => (l.isHeader.name lf hlf).2 rfl
  have hbefore : IsLine l.before := not_mem_of_blank (by decide) l.blank_before
  have hafter : IsLine l.after := not_mem_of_blank (by decide) l.blank_after
  have hcolon : colon ≠ lf := by decide
  simp [FieldLine.text, isLine_append, isLine_cons, hname, hbefore, l.isHeader.value, hafter,
    hcolon]

theorem FieldLine.endsLine (l : FieldLine) : EndsLine l.text l.ending.bytes := by
  refine ⟨l.isLine_text, l.ending.isEol, fun _ hlast => ?_⟩
  exact l.cr_not_mem_text (List.mem_of_getLast? hlast)

theorem FieldLine.text_ne_nil (l : FieldLine) : l.text ≠ [] := by
  simp [FieldLine.text]

/-- **The pattern** gives the header of the line, without the blanks. -/
theorem FieldLine.headerLine_first (l : FieldLine) :
    headerLine.first l.text = some (l.header, []) := by
  obtain ⟨⟨name, value⟩, before, after, ending, hheader, -, hbefore, hafter⟩ := l
  cases value with
  | nil =>
      -- all blanks are taken in front of the empty value
      have hblank : ∀ c ∈ before ++ after, isBlank c = true :=
        List.forall_mem_append.mpr ⟨hbefore, hafter⟩
      have hfirst := HttpGarden.headerLine_first hheader hblank
        (fun c hc => absurd hc List.not_mem_nil) (stops_nil isBlank)
      simpa [FieldLine.text] using hfirst
  | cons c value =>
      exact HttpGarden.headerLine_first hheader hbefore hafter
        (stops_cons.mpr (stops_cons.mp hheader.trimmed.1))

/-! ### Parsing -/

theorem headerSection_append (ls : List FieldLine) (blank : LineEnd) (tail : Bytes) :
    headerSection ls blank ++ tail =
      writeLines (ls.map fun l => (l.text, l.ending.bytes)) ++ (blank.bytes ++ tail) := by
  rw [headerSection, List.append_assoc, writeLines, List.flatMap_map]

/-- A section that has a header is parsed. -/
theorem parseHeaders_headerSection {ls : List FieldLine} (hne : ls ≠ []) (blank : LineEnd)
    (tail : Bytes) :
    parseHeaders (headerSection ls blank ++ tail) = .ok (ls.map (·.header), tail) := by
  have hlines : ∀ l ∈ ls.map fun l => (l.text, l.ending.bytes),
      EndsLine l.1 l.2 ∧ l.1 ≠ [] := by
    intro l hl
    obtain ⟨l, -, rfl⟩ := List.mem_map.mp hl
    exact ⟨l.endsLine, l.text_ne_nil⟩
  have hread : parseHeaderLines (ls.map (·.text)) = .ok (ls.map (·.header)) :=
    parseHeaderLines_map fun l _ => l.headerLine_first
  rw [headerSection_append, parseHeaders_writeLines (by simpa using hne) hlines blank.isEol,
    List.map_map]
  show (parseHeaderLines (ls.map (·.text))).map _ = _
  rw [hread]
  rfl

/-- What begins with a bare line feed, or is empty, is split into lines of which the first is
empty. -/
theorem split_newline_of_prefix {s t : Bytes} (h : s <+: lf :: t) :
    ∃ ls, newline.split newline_progress s = [] :: ls := by
  cases s with
  | nil => exact ⟨[], split_of_search_none newline_progress (search_newline_line List.not_mem_nil)⟩
  | cons c s =>
      obtain ⟨rfl, -⟩ := List.cons_prefix_cons.mp h
      have hfirst : newline.first ([lf] ++ s) = some ((), s) := newline_first_eol (.inr rfl) s
      exact ⟨_, split_of_search_some newline_progress (search_of_first hfirst)⟩

/-- **A bare line feed** at the front is not taken for a null section: an error is raised,
whatever follows. -/
theorem parseHeaders_lf (s : Bytes) :
    ∃ text, parseHeaders (lf :: s) = .error (.valueError text) := by
  have hnull : ¬ [cr, lf] <+: lf :: s := by
    intro hpre
    exact absurd (List.cons_prefix_cons.mp hpre).1 (by decide)
  rw [parseHeaders, if_neg hnull]
  cases hsearch : headerTerminator.search (lf :: s) with
  | none => exact ⟨_, rfl⟩
  | some m =>
      obtain ⟨rawHeaders, _, rest⟩ := m
      obtain ⟨mid, hsplit, -⟩ := search_sound hsearch
      obtain ⟨ls, hls⟩ := split_newline_of_prefix ⟨mid, hsplit.symm⟩
      refine ⟨"Invalid header line.", ?_⟩
      simp only [hls]
      rfl

/-- **`parse_headers`** reads every section that has a header, or ends in `\r\n`. -/
theorem parseHeaders_headerSection_iff (ls : List FieldLine) (blank : LineEnd) (tail : Bytes) :
    parseHeaders (headerSection ls blank ++ tail) = .ok (ls.map (·.header), tail) ↔
      ls ≠ [] ∨ blank = .crlf := by
  refine ⟨fun h => ?_, fun h => ?_⟩
  · by_contra hnot
    obtain ⟨hnil, hblank⟩ := not_or.mp hnot
    have hls : ls = [] := not_not.mp hnil
    cases blank with
    | crlf => exact hblank rfl
    | lf =>
        subst hls
        obtain ⟨text, herr⟩ := parseHeaders_lf tail
        rw [show headerSection [] .lf ++ tail = lf :: tail from rfl, herr] at h
        cases h
  · cases ls with
    | cons l ls => exact parseHeaders_headerSection (List.cons_ne_nil l ls) blank tail
    | nil =>
        obtain rfl := h.resolve_left fun hne => hne rfl
        rw [show headerSection [] .crlf ++ tail = [cr, lf] ++ tail from rfl, parseHeaders,
          if_pos (List.prefix_append _ tail)]
        rfl

/-- The null section that ends in a bare line feed is refused. -/
theorem not_parseHeaders_headerSection : ¬ ∀ (ls : List FieldLine) (blank : LineEnd) (tail : Bytes),
    parseHeaders (headerSection ls blank ++ tail) = .ok (ls.map (·.header), tail) := by
  intro h
  obtain ⟨text, herr⟩ := parseHeaders_lf []
  have hok : parseHeaders [lf] = .ok ([], []) := h [] .lf []
  rw [herr] at hok
  cases hok

end HttpGarden
