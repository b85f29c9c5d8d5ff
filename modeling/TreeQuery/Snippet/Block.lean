import TreeQuery.Snippet.Canvas
import TreeQuery.Snippet.Window

/-! One line of a text with its marks: the row of the text, and below it the underlines, the
lines that lead to them and the labels. -/

namespace TreeQuery.Snippet
open Text (columns visible isBlank)

structure Layout where
  /-- Digits of the greatest line number. -/
  digits : Nat
  /-- The greatest depth of a mark over several lines. -/
  depth : Nat
  window : Window
deriving Repr

namespace Layout

def bar (layout : Layout) : Nat := layout.digits + 1

def start (layout : Layout) : Nat := layout.digits + 3

def code (layout : Layout) : Nat :=
  if layout.depth = 0 then layout.start else layout.start + layout.depth + 1

def side (layout : Layout) (depth : Nat) : Nat := layout.start + depth - 1

end Layout

def ellipsis : List Char := ['.', '.', '.']

def markInk (isPrimary : Bool) : Ink := if isPrimary then .severity else .accent

def underline (isPrimary : Bool) : Char := if isPrimary then '^' else '-'

namespace Piece

def ink (piece : Piece) : Ink := markInk piece.isPrimary

def line (piece : Piece) : Char := underline piece.isPrimary

end Piece

def codeStrokes (layout : Layout) (number : Nat) (text : List Char) : List Stroke × Nat :=
  let window := layout.window
  let total := Text.total Text.columnsOf text
  let left := window.leftOf total
  let right := window.rightOf total
  let skipped := filling left text
  let shown := within (right - left) (text.drop skipped.length)
  let covered := if window.isCutLeft then filling ellipsis.length shown else []
  let uncovered := shown.drop covered.length
  let start := layout.code + Text.total Text.columnsOf covered
  let tail := filling ellipsis.length shown.reverse
  let digits := (toString number).toList
  ([.text 0 layout.code .accent (if window.isCutLeft then ellipsis else []),
    .text 0 start .plain uncovered,
    .text 0 (start + uncovered.length - tail.length) .accent (if right < total then ellipsis else []),
    .text 0 (layout.digits - digits.length) .accent digits,
    .char 0 layout.bar .accent '|'],
   Text.total Text.columnsOf skipped)

/-- Whether the marks of a line only open or pass it, with nothing before them on the line. -/
def opensShort (text : List Char) (pieces : List Piece) : Bool :=
  pieces.all fun piece => match piece.shape with
    | .opening _ => (text.take piece.start.column).all isBlank
    | .passing => true
    | .whole | .closing _ => false

/-- Which of the later pieces a piece is found to meet, and whether its label has to move down
for one of them. The search ends where it has to. -/
def meetings (piece : Piece) (level : Nat) : List Piece → List Bool × Bool
  | [] => ([], false)
  | next :: rest =>
    let meets := next.meets piece 0
    let coincides := next.start.column = piece.start.column && next.start.char = piece.start.char &&
      next.stop.column = piece.stop.column && next.stop.char = piece.stop.char && !next.hasLabel
    if meets && piece.hasLabel && level = 0 && !coincides then (true :: rest.map fun _ => false, true)
    else
      let (found, moves) := meetings piece level rest
      (meets :: found, moves)

def crowds (piece : Piece) (level : Nat) (next : Piece) : Bool :=
  let room := (next.label.map (·.utf8ByteSize + 2)).getD 0
  let meets := next.meets piece room
  (meets && piece.hasLabel && next.hasLabel) || (piece.isJoined && next.hasLabel) ||
    (piece.hasLabel && next.isJoined) || (piece.isJoined && next.isJoined) ||
    (meets && next.stop.column ≤ piece.stop.column && next.hasLabel && level = 0)

structure Hung where
  piece : Piece
  level : Nat
  meets : Bool
deriving Repr

/-- Gives pieces from right to left the levels of their labels. `met` says of each whether an
earlier one meets it. -/
def hang (level : Nat) (met : List Bool) : List Piece → List Hung
  | [] => []
  | piece :: rest =>
    let (found, moves) := meetings piece level rest
    let level := if moves then level + 1 else level
    let next := if rest.any (crowds piece level) then level + 1 else level
    ⟨piece, level, met.headD false || found.any id⟩ ::
      hang next (List.zipWith (· || ·) met.tail found) rest

/-- The pieces of a line from right to left with their levels. Where all of them open, the
outer ones get the upper levels. The second part is the number of rows below the underlines. -/
def hangAll (pieces : List Piece) : List Hung × Nat :=
  let sorted := pieces.mergeSort fun a b =>
    b.start.column < a.start.column || b.start.column = a.start.column && b.start.char ≤ a.start.char
  let hung := hang 0 (sorted.map fun _ => false) sorted
  let deepest := (hung.map Hung.level).foldl max 0
  let isOpening (piece : Piece) : Bool := match piece.shape with
    | .opening _ => true
    | .whole | .passing | .closing _ => false
  if pieces.all isOpening then (hung.map fun h => { h with level := deepest - h.level }, deepest)
  else (hung, if deepest = 0 then 0 else deepest + 1)

def levelStrokes (layout : Layout) (left : Nat) (hung : Hung) : List Stroke :=
  match hung.piece.shape with
  | .opening depth | .closing depth =>
    [.run (hung.level + 1) (layout.start + depth) (layout.code + hung.piece.start.column - left) hung.piece.ink '_']
  | .whole | .passing => []

def uprightStrokes (layout : Layout) (left below : Nat) (hung : Hung) : List Stroke :=
  let piece := hung.piece
  let row := hung.level + 1
  let cell := layout.code + piece.start.column - left
  (if 1 < row && (piece.hasLabel || piece.isJoined) then Stroke.column 1 (row + 1) cell piece.ink '|' else []) ++
  match piece.shape with
  | .opening depth =>
    .char row (layout.side depth) piece.ink ' ' ::
      Stroke.column (row + 1) (below + 2) (layout.side depth) piece.ink '|'
  | .closing depth => Stroke.column 0 (row + 1) (layout.side depth) piece.ink '|'
  | .whole | .passing => []

def labelStrokes (layout : Layout) (left : Nat) (hung : Hung) : List Stroke :=
  let piece := hung.piece
  let (row, column) :=
    if hung.level ≠ 0 then (hung.level + 2, piece.start.column - left)
    else (1, piece.stop.column + (if piece.stop.column = 0 then 2 else 1) - left)
  [.text row (layout.code + column) piece.ink ((piece.label.getD "").toList)]

def underlineStrokes (layout : Layout) (left : Nat) (hung : Hung) : List Stroke :=
  let piece := hung.piece
  let cell (column : Nat) := layout.code + column - left
  let run := Stroke.run 1 (cell piece.start.column) (cell (piece.stop.column - 1) + 1) piece.ink piece.line
  let mark := Stroke.char 1 (cell piece.start.column) piece.ink piece.line
  (if piece.start.column < piece.stop.column then [run] else []) ++
    (if piece.isJoined || (hung.level ≠ 0 && piece.hasLabel) then [mark] else [])

/-- Shortens a single mark that is much longer than the window, in the text and below it. -/
def shorten (layout : Layout) (left : Nat) (hung : Hung) (rows : List Row) : List Row :=
  let piece := hung.piece
  let width := piece.stop.column - piece.start.column
  if !hung.meets && piece.shape = .whole && 2 * layout.window.width < width && 10 < width then
    let kept := max (layout.window.width / 3) 5
    let cut (row : Row) : Row :=
      row.replace (layout.code + piece.start.column + kept - left) (layout.code + piece.stop.column - kept - left)
        (inked .accent ellipsis)
    (rows.modify 0 cut).modify 1 cut
  else rows

structure Block where
  rows : List Row
  turns : List (Nat × Ink)
deriving Repr

def turn? (piece : Piece) : Option (Nat × Ink) :=
  match piece.shape with
  | .opening depth | .closing depth => some (depth, piece.ink)
  | .whole | .passing => none

def block (layout : Layout) (line : MarkedLine) : Block :=
  let text := visible line.source.line.content
  let (code, left) := codeStrokes layout line.source.number text
  if opensShort text line.pieces then
    let turns := line.pieces.filterMap turn?
    ⟨paint [[]] (code ++ turns.map fun (depth, ink) => .char 0 (layout.side depth) ink '/'), turns⟩
  else
    let (hung, below) := hangAll line.pieces
    let byWidth := hung.mergeSort fun a b =>
      b.piece.width < a.piece.width || b.piece.width = a.piece.width && (!a.piece.isPrimary || b.piece.isPrimary)
    let rows := paint (List.replicate (below + 2) []) <|
      code ++ Stroke.column 1 (below + 2) layout.bar .accent '|' ++ hung.flatMap (levelStrokes layout left) ++
      hung.flatMap (uprightStrokes layout left below) ++ hung.flatMap (labelStrokes layout left) ++
      byWidth.flatMap (underlineStrokes layout left)
    let met := hung.map Hung.meets
    let shortened := (List.zipWith (fun h meets => { h with meets }) byWidth met).foldl
      (fun rows h => shorten layout left h rows) rows
    ⟨shortened, byWidth.filterMap (turn? ·.piece)⟩

end TreeQuery.Snippet
