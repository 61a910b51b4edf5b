import HttpGarden.Http1.Parse
import Mathlib.Data.List.TakeWhile

/-!
# HttpGarden.Http1.Lines

**What the header patterns find** in text that consists of lines.

A *line* has no line feed in it; it may have carriage returns, also at its end, where a
bare line feed must not follow (`EndsLine`). Lines that are each followed by a line break
are taken apart again by `re.split` (`split_joinEnds`), and the blank line after them is
where `re.search` finds the end of the headers (`search_headerTerminator`), so that
`parse_headers` reads the lines one by one and leaves what follows the blank line
(`parseHeaders_writeLines`).
-/

namespace HttpGarden

open Lib Pattern

/-! ### Lines -/

def crlf : Bytes := [cr, lf]

/-- There is no line feed in `l`. -/
def IsLine (l : Bytes) : Prop := lf ∉ l

theorem isLine_cons {c : UInt8} {l : Bytes} : IsLine (c :: l) ↔ c ≠ lf ∧ IsLine l := by
  rw [IsLine, List.mem_cons, not_or]
  exact and_congr_left' ne_comm

theorem isLine_append {l m : Bytes} : IsLine (l ++ m) ↔ IsLine l ∧ IsLine m := by
  rw [IsLine, List.mem_append, not_or]
  rfl

/-- No line break is at the front of a byte of a line and the text after it, where that
begins with no line feed. -/
theorem newline_first_eq_none {c : UInt8} {s : Bytes} (hc : c ≠ lf) (hs : lf ∉ s.head?) :
    newline.first (c :: s) = none := by
  rw [first_eq_none_iff]
  intro a s' h
  rcases matches_newline.mp h with h | h
  · exact hc (List.cons.inj h).1
  · rw [(List.cons.inj h).2] at hs
    exact hs rfl

theorem newline_first_crlf (s : Bytes) : newline.first (crlf ++ s) = some ((), s) := by
  refine first_of_unique (matches_newline.mpr (.inr rfl)) ?_
  intro b s' h
  rcases matches_newline.mp h with h | h
  · cases h
  · cases h
    exact ⟨rfl, rfl⟩

/-- After a line come no line feeds but the one of the line break. -/
theorem lf_not_mem_head {l s : Bytes} (hl : IsLine l) : lf ∉ (l ++ crlf ++ s).head? := by
  intro h
  cases l with
  | nil => cases h
  | cons c l => exact (isLine_cons.mp hl).1 (Option.some.inj h)

theorem search_newline_line {l : Bytes} (hl : IsLine l) : newline.search l = none := by
  induction l with
  | nil => rfl
  | cons c l ih =>
      obtain ⟨hc, hl⟩ := isLine_cons.mp hl
      have hhead : lf ∉ l.head? := fun h => hl (List.mem_of_mem_head? h)
      rw [search_cons_of_none (newline_first_eq_none hc hhead), ih hl]
      rfl

/-! ### Line breaks -/

/-- A line break, of either kind. -/
def IsEol (e : Bytes) : Prop := e = crlf ∨ e = [lf]

theorem newline_first_eol {e : Bytes} (he : IsEol e) (s : Bytes) :
    newline.first (e ++ s) = some ((), s) := by
  rcases he with rfl | rfl
  · exact newline_first_crlf s
  · rfl

/-- The two kinds. -/
inductive LineEnd
  | crlf
  | lf
  deriving Repr, DecidableEq

def LineEnd.bytes : LineEnd → Bytes
  | .crlf => HttpGarden.crlf
  | .lf => [HttpGarden.lf]

theorem LineEnd.isEol (e : LineEnd) : IsEol e.bytes := by
  cases e with
  | crlf => exact .inl rfl
  | lf => exact .inr rfl

/-- The line break `e` after the line `l` is where the line is taken to end: a carriage return at
the end of the line would belong to a bare line feed after it. -/
structure EndsLine (l e : Bytes) : Prop where
  line : IsLine l
  eol : IsEol e
  bare : e = [lf] → l.getLast? ≠ some cr

theorem endsLine_crlf {l : Bytes} (hl : IsLine l) : EndsLine l crlf := by
  refine ⟨hl, .inl rfl, fun h => ?_⟩
  cases h

theorem EndsLine.tail {c : UInt8} {l e : Bytes} (h : EndsLine (c :: l) e) : EndsLine l e := by
  refine ⟨(isLine_cons.mp h.line).2, h.eol, fun hbare hlast => h.bare hbare ?_⟩
  rw [List.getLast?_cons, hlast]
  rfl

/-- No line break is found within the line. -/
theorem EndsLine.newline_first {c : UInt8} {l e : Bytes} (h : EndsLine (c :: l) e) (s : Bytes) :
    newline.first (c :: (l ++ (e ++ s))) = none := by
  obtain ⟨hc, hl⟩ := isLine_cons.mp h.line
  rcases h.eol with rfl | rfl
  · rw [← List.append_assoc]
    exact newline_first_eq_none hc (lf_not_mem_head hl)
  · cases l with
    | cons d l =>
        refine newline_first_eq_none hc fun hlf => ?_
        exact (isLine_cons.mp hl).1 (Option.some.inj hlf)
    | nil =>
        rw [first_eq_none_iff]
        intro a s' hm
        rcases matches_newline.mp hm with heq | heq
        · exact hc (List.cons.inj heq).1
        · exact h.bare rfl (congrArg some (List.cons.inj heq).1)

/-- The first line break is the one after the first line. -/
theorem search_newline_eol {l e : Bytes} (h : EndsLine l e) (s : Bytes) :
    newline.search (l ++ (e ++ s)) = some (l, (), s) := by
  induction l with
  | nil => exact search_of_first (newline_first_eol h.eol s)
  | cons c l ih =>
      rw [List.cons_append, search_cons_of_none (h.newline_first s), ih h.tail]
      rfl

/-- The lines with their line breaks, but for the last one. -/
def joinEnds : List (Bytes × Bytes) → Bytes
  | [] => []
  | [l] => l.1
  | l :: ls => l.1 ++ (l.2 ++ joinEnds ls)

/-- **Splitting** gives the lines back. -/
theorem split_joinEnds {ls : List (Bytes × Bytes)} (hne : ls ≠ [])
    (hls : ∀ l ∈ ls, EndsLine l.1 l.2) :
    newline.split newline_progress (joinEnds ls) = ls.map (·.1) := by
  induction ls with
  | nil => exact absurd rfl hne
  | cons l ls ih =>
      obtain ⟨hl, hls⟩ := List.forall_mem_cons.mp hls
      cases ls with
      | nil => exact split_of_search_none newline_progress (search_newline_line hl.line)
      | cons m ls =>
          have hsearch : newline.search (joinEnds (l :: m :: ls)) = some (l.1, (), _) :=
            search_newline_eol hl (joinEnds (m :: ls))
          rw [split_of_search_some newline_progress hsearch, ih (List.cons_ne_nil m ls) hls]
          rfl

/-! ### The end of the headers -/

theorem headerTerminator_first_eq_none {s : Bytes}
    (h : ∀ t, newline.Matches s () t → newline.first t = none) :
    headerTerminator.first s = none := by
  rw [first_eq_none_iff]
  intro a s' hm
  obtain ⟨_, t, h₁, h₂⟩ := matches_bind.mp hm
  exact first_eq_none_iff.mp (h t h₁) a s' h₂

theorem headerTerminator_first_eol {e b : Bytes} (he : IsEol e) (hb : IsEol b) (s : Bytes) :
    headerTerminator.first (e ++ (b ++ s)) = some ((), s) :=
  first_bind (newline_first_eol he (b ++ s)) (newline_first_eol hb s)

/-- The search passes over a line. -/
theorem search_headerTerminator_line {l e : Bytes} (h : EndsLine l e) (s : Bytes) :
    headerTerminator.search (l ++ (e ++ s)) =
      (headerTerminator.search (e ++ s)).map fun m => (l ++ m.1, m.2) := by
  induction l with
  | nil => simp
  | cons c l ih =>
      have hterm : headerTerminator.first (c :: (l ++ (e ++ s))) = none :=
        headerTerminator_first_eq_none fun t ht =>
          absurd ht (first_eq_none_iff.mp (h.newline_first s) () t)
      rw [List.cons_append, search_cons_of_none hterm, ih h.tail, Option.map_map]
      rfl

/-- The search passes over a line break that no other one follows. -/
theorem search_headerTerminator_eol {e s : Bytes} (he : IsEol e) (hs : newline.first s = none) :
    headerTerminator.search (e ++ s) =
      (headerTerminator.search s).map fun m => (e ++ m.1, m.2) := by
  have hlf : headerTerminator.first (lf :: s) = none := by
    refine headerTerminator_first_eq_none fun t ht => ?_
    rcases matches_newline.mp ht with h | h
    · cases h
      exact hs
    · cases h
  rcases he with rfl | rfl
  · have hcr : headerTerminator.first (cr :: lf :: s) = none := by
      refine headerTerminator_first_eq_none fun t ht => ?_
      rcases matches_newline.mp ht with h | h
      · cases h
      · cases h
        exact hs
    show headerTerminator.search (cr :: lf :: s) = _
    rw [search_cons_of_none hcr, search_cons_of_none hlf, Option.map_map]
    rfl
  · show headerTerminator.search (lf :: s) = _
    rw [search_cons_of_none hlf]
    rfl

/-- The lines, each with its line break. -/
def writeLines (ls : List (Bytes × Bytes)) : Bytes := ls.flatMap fun l => l.1 ++ l.2

theorem writeLines_cons (l : Bytes × Bytes) (ls : List (Bytes × Bytes)) (s : Bytes) :
    writeLines (l :: ls) ++ s = l.1 ++ (l.2 ++ (writeLines ls ++ s)) := by
  rw [writeLines, List.flatMap_cons, List.append_assoc, List.append_assoc]
  rfl

/-- At the front of lines that are not empty there is no line break. -/
theorem newline_first_writeLines {l : Bytes × Bytes} (hl : EndsLine l.1 l.2) (hne : l.1 ≠ [])
    (ls : List (Bytes × Bytes)) (s : Bytes) : newline.first (writeLines (l :: ls) ++ s) = none := by
  obtain ⟨l, e⟩ := l
  cases l with
  | nil => exact absurd rfl hne
  | cons c l =>
      rw [writeLines_cons]
      exact hl.newline_first _

/-- **The end of the headers** is found after the last of a list of lines. -/
theorem search_headerTerminator {ls : List (Bytes × Bytes)} (hne : ls ≠ [])
    (hls : ∀ l ∈ ls, EndsLine l.1 l.2 ∧ l.1 ≠ []) {b : Bytes} (hb : IsEol b) (s : Bytes) :
    headerTerminator.search (writeLines ls ++ (b ++ s)) = some (joinEnds ls, (), s) := by
  induction ls with
  | nil => exact absurd rfl hne
  | cons l ls ih =>
      obtain ⟨⟨hl, -⟩, hls⟩ := List.forall_mem_cons.mp hls
      rw [writeLines_cons, search_headerTerminator_line hl]
      cases ls with
      | nil =>
          have hfirst := headerTerminator_first_eol hl.eol hb s
          rw [show writeLines [] = [] from rfl, List.nil_append, search_of_first hfirst,
            Option.map_some, List.append_nil]
          rfl
      | cons m ls =>
          obtain ⟨hm, hmne⟩ := hls m List.mem_cons_self
          have hfirst := newline_first_writeLines hm hmne ls (b ++ s)
          rw [search_headerTerminator_eol hl.eol hfirst, ih (List.cons_ne_nil m ls) hls]
          rfl

/-- **`parse_headers`** on lines and a blank line reads these lines. -/
theorem parseHeaders_writeLines {ls : List (Bytes × Bytes)} (hne : ls ≠ [])
    (hls : ∀ l ∈ ls, EndsLine l.1 l.2 ∧ l.1 ≠ []) {b : Bytes} (hb : IsEol b) (s : Bytes) :
    parseHeaders (writeLines ls ++ (b ++ s)) =
      (parseHeaderLines (ls.map (·.1))).map fun headers => (headers, s) := by
  obtain ⟨l, ls, rfl⟩ := List.exists_cons_of_ne_nil hne
  obtain ⟨hl, hlne⟩ := hls l List.mem_cons_self
  have hfirst := newline_first_writeLines hl hlne ls (b ++ s)
  have hnull : ¬ [cr, lf] <+: writeLines (l :: ls) ++ (b ++ s) := by
    intro hpre
    obtain ⟨t, ht⟩ := hpre
    rw [← ht, show [cr, lf] ++ t = crlf ++ t from rfl, newline_first_crlf] at hfirst
    cases hfirst
  rw [parseHeaders, if_neg hnull, search_headerTerminator hne hls hb]
  simp only [split_joinEnds hne fun l hl => (hls l hl).1]
  cases parseHeaderLines ((l :: ls).map (·.1)) <;> rfl

/-! ### Header lines -/

/-- Lines that each match are read one by one. -/
theorem parseHeaderLines_map {α : Type} {line : α → Bytes} {header : α → Header} {xs : List α}
    (h : ∀ x ∈ xs, headerLine.first (line x) = some (header x, [])) :
    parseHeaderLines (xs.map line) = .ok (xs.map header) := by
  induction xs with
  | nil => rfl
  | cons x xs ih =>
      obtain ⟨hx, hxs⟩ := List.forall_mem_cons.mp h
      rw [List.map_cons, parseHeaderLines, hx, ih hxs]
      rfl

/-- No blank at either end. -/
def Trimmed (v : Bytes) : Prop := Stops isBlank v ∧ Stops isBlank v.reverse

/-- What a parsed header is like: a name without colons, and a trimmed value. -/
structure IsHeader (h : Header) : Prop where
  name_ne_nil : h.1 ≠ []
  name : ∀ c ∈ h.1, c ≠ colon ∧ c ≠ lf
  value : IsLine h.2
  trimmed : Trimmed h.2

theorem stops_dropWhile (c : UInt8 → Bool) (s : Bytes) : Stops c (s.dropWhile c) := by
  intro t ht
  have h := List.head?_dropWhile_not c s
  rw [Option.mem_def.mp ht] at h
  exact Bool.eq_false_iff.mpr fun hc => by simp [hc] at h

theorem stops_append {c : UInt8 → Bool} {s t : Bytes} (h : Stops c (s ++ t)) : Stops c s := by
  cases s with
  | nil => exact stops_nil c
  | cons d s => exact h

theorem stops_append_cons {c : UInt8 → Bool} {s : Bytes} {d : UInt8} (hs : Stops c s)
    (hd : c d = false) (t : Bytes) : Stops c (s ++ d :: t) := by
  cases s with
  | nil => exact stops_cons.mpr hd
  | cons e s => exact stops_cons.mpr (stops_cons.mp hs)

/-- Blanks, a trimmed text, and blanks. -/
theorem exists_trimmed (s : Bytes) : ∃ b v b', s = b ++ (v ++ b') ∧
    (∀ c ∈ b, isBlank c = true) ∧ (∀ c ∈ b', isBlank c = true) ∧ Trimmed v ∧
      Stops isBlank (v ++ b') := by
  have hw := stops_dropWhile isBlank s
  generalize hs : s.dropWhile isBlank = w at hw
  have hsplit : (w.reverse.dropWhile isBlank).reverse ++ (w.reverse.takeWhile isBlank).reverse =
      w := by
    rw [← List.reverse_append, List.takeWhile_append_dropWhile, List.reverse_reverse]
  refine ⟨s.takeWhile isBlank, (w.reverse.dropWhile isBlank).reverse,
    (w.reverse.takeWhile isBlank).reverse, ?_, ?_, ?_, ⟨?_, ?_⟩, ?_⟩
  · rw [hsplit, ← hs, List.takeWhile_append_dropWhile]
  · exact fun c hc => List.mem_takeWhile_imp hc
  · exact fun c hc => List.mem_takeWhile_imp (List.mem_reverse.mp hc)
  · exact stops_append (hsplit.symm ▸ hw)
  · rw [List.reverse_reverse]
    exact stops_dropWhile isBlank w.reverse
  · rw [hsplit]
    exact hw

/-- The header line matches greedily up to the value, which takes as little as it can. -/
theorem headerLine_first {h : Header} {b b' : Bytes} (hh : IsHeader h)
    (hb : ∀ c ∈ b, isBlank c = true) (hb' : ∀ c ∈ b', isBlank c = true)
    (hstop : Stops isBlank (h.2 ++ b')) :
    headerLine.first (h.1 ++ (colon :: (b ++ (h.2 ++ b')))) = some (h, []) := by
  have hname : ∀ c ∈ h.1, (c != colon && c != lf) = true := by
    intro c hc
    simpa using hh.name c hc
  have hvalue : ∀ c ∈ h.2, (c != lf) = true := by
    intro c hc
    rw [bne_iff_ne]
    intro hlf
    exact hh.value (hlf ▸ hc)
  have hend : (many isBlank).first b' = some (b', []) := by
    have := first_many hb' (stops_nil isBlank)
    rwa [List.append_nil] at this
  refine first_bind (first_many1 hh.name_ne_nil hname (stops_cons.mpr rfl)) ?_
  refine first_bind (first_one (by decide) _) ?_
  refine first_bind (first_many hb hstop) ?_
  refine first_lazyMany_bind hvalue (first_bind hend rfl) ?_
  -- a shorter value would leave the last byte of the value to the blanks
  intro x₁ x₂ hx hne
  rw [first_eq_none_iff]
  intro a s' hm
  obtain ⟨y, s₁, hy, hrest⟩ := matches_bind.mp hm
  obtain ⟨_, s₂, heos, -⟩ := matches_bind.mp hrest
  obtain ⟨hsplit, hblank⟩ := matches_many.mp hy
  rw [(matches_eos.mp heos).1, List.append_nil] at hsplit
  obtain ⟨z, d, rfl⟩ := (List.eq_nil_or_concat x₂).resolve_left hne
  have hlast : isBlank d = false := by
    refine hh.trimmed.2 d ?_
    rw [hx, List.reverse_append, List.concat_eq_append, List.reverse_append]
    rfl
  have hd : d ∈ y := by
    rw [← hsplit, List.concat_eq_append]
    simp
  exact absurd (hblank d hd) (Bool.eq_false_iff.mp hlast)

/-- **A parsed header** has the shape that the pattern gives it. -/
theorem isHeader_of_first {line t : Bytes} {h : Header} (hf : headerLine.first line = some (h, t)) :
    IsHeader h := by
  have hm := matches_of_first hf
  simp only [headerLine, matches_bind, matches_many1, matches_one, matches_many, matches_lazyMany,
    matches_eos, matches_pure] at hm
  obtain ⟨name, s₁, ⟨hne, rfl, hname⟩, c, s₂, ⟨rfl, hc⟩, b, s₃, ⟨rfl, hb⟩, value, s₄,
    ⟨rfl, hvalue⟩, b', s₅, ⟨rfl, hb'⟩, -, s₆, ⟨rfl, rfl⟩, -, -⟩ := hm
  rw [beq_iff_eq] at hc
  -- the line is matched once more, with the value that is trimmed
  obtain ⟨d, w, d', hsplit, hd, hd', htrim, hstop⟩ := exists_trimmed (b ++ (value ++ (b' ++ [])))
  have hblank : ∀ x : Bytes, (∀ c ∈ x, isBlank c = true) → IsLine x := by
    intro x hx hlf
    exact absurd (hx lf hlf) (by decide)
  have hline : IsLine (b ++ (value ++ (b' ++ []))) := by
    refine isLine_append.mpr ⟨hblank b hb, isLine_append.mpr ⟨?_, ?_⟩⟩
    · intro hlf
      exact absurd (hvalue lf hlf) (by decide)
    · rw [List.append_nil]
      exact hblank b' hb'
  rw [hsplit, isLine_append, isLine_append] at hline
  have hheader : IsHeader (name, w) := by
    refine ⟨hne, fun c hc => ?_, hline.2.1, htrim⟩
    simpa using hname c hc
  rw [hc, hsplit, headerLine_first hheader hd hd' hstop, Option.some.injEq, Prod.mk.injEq] at hf
  exact hf.1 ▸ hheader

end HttpGarden
