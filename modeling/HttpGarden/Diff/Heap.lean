import HttpGarden.Lib.FirstFit
import HttpGarden.Lib.Traverse
import HttpGarden.Diff.Categorize

/-!
# HttpGarden.Diff.Heap

The comparison once more, on **explicit state**: requests are objects on a heap,
and `normalize_request` works on references. Each of the header edits makes a deep
copy, a new object; `r1.headers.sort()` at the end writes to whatever object `r1`
is by then, which is the caller's own when no quirk asked for an edit.

A heap is the list of its objects and a reference an index, so an allocation
appends and never moves an object.
-/

namespace HttpGarden

open Lib

/-- A reference to a request object. -/
abbrev Ref := Nat

/-- The request objects. -/
abbrev Heap := List HTTPRequest

namespace Heap

/-- The request behind a reference. -/
def load (h : Heap) (r : Ref) : HTTPRequest := h.getD r ⟨[], [], [], [], []⟩

/-- An edit of a deep copy: the new object's reference. -/
def copy (h : Heap) (r : Ref) (edit : HTTPRequest → HTTPRequest) : Ref × Heap :=
  (h.length, h ++ [edit (h.load r)])

/-- `r.headers.sort()`: the object itself is written. -/
def sort (h : Heap) (r : Ref) : Heap := h.modify r sortRequest

/-- One edit after another, each on a copy of the last one's result. -/
def copyAll (edits : List (HTTPRequest → HTTPRequest)) (h : Heap) (r : Ref) : Ref × Heap :=
  edits.foldl (fun p edit => p.2.copy p.1 edit) (r, h)

end Heap

/-- `normalize_request` on the object `r1`. -/
def normalizeRequestIn (h : Heap) (r1 : Ref) (s1 s2 : Server) : Ref × Heap :=
  let (r1, h) :=
    if s2.joinsDuplicateHeaders then h.copy r1 (joinDuplicateHeaders · s2.duplicateHeaderJoiner)
    else (r1, h)
  let (r1, h) :=
    (removedNames s1 s2).foldl (fun p k => p.2.copy p.1 (removeRequestHeader · k)) (r1, h)
  let (r1, h) :=
    if s2.headerNameTranslation.length > 0 then
      h.copy r1 (translateRequestHeaderNames · s2.headerNameTranslation)
    else (r1, h)
  (r1, h.sort r1)

/-! ### Comparing streams of objects -/

/-- An element of a result stream: a request object, or a response (which the
comparison only reads). -/
inductive Item
  | request (r : Ref)
  | response (r : HTTPResponse)
  deriving Repr, DecidableEq

namespace Item

/-- The value of an element in a heap. -/
def view (h : Heap) : Item → Parsed
  | request r => .request (h.load r)
  | response r => .response r

/-- The objects an element refers to. -/
def refs : Item → List Ref
  | request r => [r]
  | response _ => []

end Item

/-- The value of a position. -/
def viewPosition (h : Heap) (p : Option Item × Option Item) : Option Parsed × Option Parsed :=
  (p.1.map (·.view h), p.2.map (·.view h))

/-- The body of the loop in `categorize_discrepancy`. -/
def comparePositionIn (h : Heap) (r1 r2 : Option Item) (s1 s2 : Server) : Verdict × Heap :=
  let (v1, v2) := viewPosition h (r1, r2)
  match earlyVerdict v1 v2 s1 s2 with
  | some v => (v, h)
  | none =>
    match r1, r2 with
    | some (.request a), some (.request b) =>
      let (newR1, h) := normalizeRequestIn h a s1 s2
      let (newR2, h) := normalizeRequestIn h b s2 s1
      (if (h.load newR1).eqv (h.load newR2) then .continue else .return .requestDiscrepancy, h)
    | _, _ => (compareSameType v1 v2 s1 s2, h)

/-- The loop of `categorize_discrepancy`. -/
def comparePositionsIn (s1 s2 : Server) :
    List (Option Item × Option Item) → Heap → ErrorType × Heap
  | [], h => (.ok, h)
  | (r1, r2) :: positions, h =>
    match comparePositionIn h r1 r2 s1 s2 with
    | (.continue, h) => comparePositionsIn s1 s2 positions h
    | (.break, h) => (.ok, h)
    | (.return e, h) => (e, h)

/-- `categorize_discrepancy` on streams of objects. -/
def categorizeDiscrepancyIn (h : Heap) (pts1 pts2 : List Item) (s1 s2 : Server) :
    ErrorType × Heap :=
  comparePositionsIn s1 s2 (positions pts1 pts2 s1 s2) h

/-! ### The grid and the clusters -/

/-- `Grid`. -/
abbrev Grid := List (List (Option ErrorType))

/- The loops of `grid.py`. A row is a server with its result stream, and `compare` is the call of
`categorize_discrepancy` on two rows, in whatever state it is made. -/
section

variable {ρ σ : Type} (compare : ρ → ρ → σ → ErrorType × σ)

/-- The cell of `row` and `col`; the lower triangle is left out. -/
def gridCell (row col : ρ × Nat) (s : σ) : Option ErrorType × σ :=
  if col.2 < row.2 then (none, s)
  else
    let (e, s) := compare row.1 col.1 s
    (some e, s)

/-- `generate_grid`. -/
def generateGrid (rows : List ρ) (s : σ) : Grid × σ :=
  collect (fun row => collect (gridCell compare row) rows.zipIdx) rows.zipIdx s

/-- `all(categorize_discrepancy(pt, pt2, s, s2) == e for s2, pt2 in group)`. -/
def allCategorized (e : ErrorType) (row : ρ) : List ρ → σ → Bool × σ
  | [], s => (true, s)
  | row2 :: group, s =>
    let (e', s) := compare row row2 s
    -- `all` stops at the first that is not
    if e' = e then allCategorized e row group s else (false, s)

/-- The condition under which `row` is appended to the group. -/
def fitsGroup (row : ρ) (group : List ρ) (s : σ) : Bool × σ :=
  let (allOk, s) := allCategorized compare .ok row group s
  if allOk then (true, s) else allCategorized compare .invalid row group s

/-- `generate_clusters`: `row` is appended to the first group that it fits, or is a group of its
own. -/
def generateClusters (rows : List ρ) (s : σ) : List (List ρ) × σ :=
  groupFirstFit (fitsGroup compare) rows s

end

/-- A call of `categorize_discrepancy`: the request objects in its arguments, and
the heap before and after it. -/
structure Call where
  args : List Ref
  before : Heap
  after : Heap
  deriving Repr, DecidableEq

/-- The heap, and a record of the calls made so far, which only the model keeps. -/
structure World where
  heap : Heap
  calls : List Call
  deriving Repr, DecidableEq

/-- `categorize_discrepancy(pt1, pt2, s1, s2)`. -/
def World.compare (row col : Server × List Item) (w : World) : ErrorType × World :=
  let (e, h) := categorizeDiscrepancyIn w.heap row.2 col.2 row.1 col.1
  let call := ⟨row.2.flatMap Item.refs ++ col.2.flatMap Item.refs, w.heap, h⟩
  (e, ⟨h, w.calls ++ [call]⟩)

/-- `generate_grid` on streams of objects. -/
def generateGridIn (pts : List (List Item)) (servers : List Server) (w : World) : Grid × World :=
  generateGrid World.compare (servers.zip pts) w

/-- A server with its result stream and its position in the lists. -/
abbrev GridRow (α : Type) := (Server × List α) × Nat

/-- The servers with their streams, as `enumerate(zip(servers, pts))` pairs them. -/
def gridRows {α : Type} (pts : List (List α)) (servers : List Server) : List (GridRow α) :=
  (servers.zip pts).zipIdx

/-! ### Fresh copies -/

/-- New objects for the requests of a stream. -/
def allocStream : List Parsed → Heap → List Item × Heap
  | [], h => ([], h)
  | .request r :: pts, h =>
    let (items, h') := allocStream pts (h ++ [r])
    (.request h.length :: items, h')
  | .response r :: pts, h =>
    let (items, h') := allocStream pts h
    (.response r :: items, h')

/-- New objects for the requests of several streams. -/
def allocStreams (pts : List (List Parsed)) (h : Heap) : List (List Item) × Heap :=
  collect allocStream pts h

/-- `categorize_discrepancy` on fresh copies of two streams. -/
def categorizeFresh (pts1 pts2 : List Parsed) (s1 s2 : Server) : ErrorType :=
  let (items1, h) := allocStream pts1 []
  let (items2, h) := allocStream pts2 h
  (categorizeDiscrepancyIn h items1 items2 s1 s2).1

/-- The grid whose cells are all evaluated on fresh copies. -/
def freshGrid (pts : List (List Parsed)) (servers : List Server) : Grid :=
  (gridRows pts servers).map fun row => (gridRows pts servers).map fun col =>
    if col.2 < row.2 then none else some (categorizeFresh row.1.2 col.1.2 row.1.1 col.1.1)

end HttpGarden
