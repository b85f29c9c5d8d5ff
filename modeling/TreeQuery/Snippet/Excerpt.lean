import TreeQuery.Snippet.Block

/-! The lines of a text that show its marks, one below the other. A single line between two of
them is shown as it is; more are left out. -/

namespace TreeQuery.Snippet
open Text (visible)

def terminalWidth : Nat := 140

/-- Marks over several lines that are open at a line: their depths. -/
abbrev OpenMarks := List (Nat × Ink)

def sideStrokes (layout : Layout) (rows : Nat) (marks : OpenMarks) : List Stroke :=
  marks.flatMap fun (depth, ink) => Stroke.column 0 rows (layout.side depth) ink '|'

/-- The marks still open after a line turns at some depths, and those that it opens. -/
def turnAll (marks : OpenMarks) (turns : List (Nat × Ink)) : OpenMarks × OpenMarks :=
  turns.foldl (fun (marks, opened) (depth, ink) =>
    if marks.any (·.1 = depth) then (marks.filter (·.1 ≠ depth), opened)
    else (marks, (depth, ink) :: opened.filter (·.1 ≠ depth))) (marks, [])

def openings (line : MarkedLine) : OpenMarks :=
  line.pieces.filterMap fun piece => match piece.shape with
    | .opening depth => some (depth, piece.ink)
    | .whole | .passing | .closing _ => none

/-- The row between two marked lines, if they do not follow each other. -/
def rowBetween (layout : Layout) (lines : List SourceLine) (marks : OpenMarks)
    (line next : MarkedLine) : List Row :=
  let between := next.source.number - line.source.number
  let sides := sideStrokes layout 1 (marks ++ openings line)
  if 2 < between then paint [[]] (.text 0 0 .accent ellipsis :: sides)
  else if between = 2 then
    let skipped := (lines[line.source.number]?.map (·.line.content)).getD []
    paint [[]] ((codeStrokes layout (line.source.number + 1) (visible skipped)).1 ++ sides)
  else []

def excerptRows (layout : Layout) (lines : List SourceLine) (marks : OpenMarks) : List MarkedLine → List Row
  | [] => []
  | line :: rest =>
    let block := block layout line
    let (kept, opened) := turnAll marks block.turns
    let rows := paint block.rows (sideStrokes layout block.rows.length kept)
    let between := match rest with
      | next :: _ => rowBetween layout lines kept line next
      | [] => []
    rows ++ between ++ excerptRows layout lines (opened ++ kept) rest

structure Excerpt where
  layout : Layout
  lines : List SourceLine
  marked : List MarkedLine
deriving Repr

namespace Excerpt

/-- Line breaks before an offset. One that ends right there does not count. -/
def breaksBefore (source : String) (offset : Nat) : Nat :=
  let before := fitting source.toList offset
  ((if before.getLast? = some '\n' then before.dropLast else before).filter (· = '\n')).length

def ofMarks (source : String) (marks : List Mark) : Excerpt :=
  let lines := sourceLines source
  let (marked, depth) := markLines lines marks
  let stop := (marks.map (·.span.stop)).foldl max 0
  let digits := (toString (breaksBefore source stop + 1)).length
  let start := digits + 3
  let code := if depth = 0 then start else start + depth + 1
  ⟨⟨digits, depth, Window.onLines (terminalWidth - code) marked⟩, lines, marked⟩

def rows (excerpt : Excerpt) : List Row := excerptRows excerpt.layout excerpt.lines [] excerpt.marked

def primaryPlace? (excerpt : Excerpt) : Option (Nat × Nat) := do
  let line ← excerpt.marked.find? (·.pieces.any Piece.isPrimary)
  let column ← ((line.pieces.filter Piece.isPrimary).map (·.start.char)).min?
  return (line.source.number, column + 1)

end Excerpt

end TreeQuery.Snippet
