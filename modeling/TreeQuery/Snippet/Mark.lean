import TreeQuery.Text.LineIndex
import TreeQuery.Text.Span
import TreeQuery.Text.Visible

/-! Marks on a text, and what each line shows of them. A mark within one line is underlined
there. A mark over several lines is drawn to their left: it opens on its first line, passes
some of the lines between and closes on its last. Marks that share lines are drawn at
different depths. -/

namespace TreeQuery.Snippet
open Text (Span columns utf8Length isBlank)

structure Mark where
  span : Span
  /-- Empty labels take no space. -/
  label : Option String
  isPrimary : Bool
deriving Repr, DecidableEq

structure SourceLine where
  number : Nat
  line : Text.Line
deriving Repr, DecidableEq

/-- The lines of a text. Nothing behind the last line break is no line, unless there is
nothing at all. -/
def sourceLines (source : String) : List SourceLine :=
  let lines := (Text.LineIndex.ofText source).lines
  let shown := match lines.getLast? with
    | some last => if last.content.isEmpty && 1 < lines.length then lines.dropLast else lines
    | none => lines
  shown.zipIdx.map fun (line, index) => ⟨index + 1, line⟩

structure Point where
  line : Nat
  char : Nat
  column : Nat
  offset : Nat
deriving Repr, DecidableEq

def Point.origin : Point := ⟨0, 0, 0, 0⟩

def fitting : List Char → Nat → List Char
  | [], _ => []
  | c :: rest, bytes => if c.utf8Size ≤ bytes then c :: fitting rest (bytes - c.utf8Size) else []

/-- The line that holds an offset, the last one for an offset behind all lines. -/
def lineAt (lines : List SourceLine) (offset : Nat) : SourceLine :=
  ((lines.takeWhile (·.line.start ≤ offset)).getLast?).getD ⟨1, ⟨0, []⟩⟩

def pointOn (line : SourceLine) (offset : Nat) : Point :=
  let before := fitting line.line.content (offset - line.line.start)
  ⟨line.number, before.length, columns before, offset⟩

/-- Where a mark begins. In a line break of two characters, or behind all lines, that is one
character further on. -/
def startPoint (lines : List SourceLine) (offset : Nat) : Point :=
  let line := lineAt lines offset
  let point := pointOn line offset
  if line.line.stop < offset then { point with char := point.char + 1 } else point

/-- Where a mark ends. A mark of several lines that takes in part of a line break ends one
column behind the line. -/
def endPoint (lines : List SourceLine) (start : Point) (offset : Nat) : Point :=
  let line := lineAt lines offset
  let point := pointOn line offset
  if line.number ≠ start.line && line.line.stop < offset then
    { point with char := point.char + 1, column := point.column + 1 }
  else point

inductive Shape where
  | whole
  | opening (depth : Nat)
  | passing
  | closing (depth : Nat)
deriving Repr, DecidableEq

structure Piece where
  start : Point
  stop : Point
  label : Option String
  isPrimary : Bool
  shape : Shape
deriving Repr, DecidableEq

namespace Piece

def hasLabel (piece : Piece) : Bool := piece.label.any (!·.isEmpty)

def isPassing (piece : Piece) : Bool := piece.shape = .passing

def isJoined (piece : Piece) : Bool :=
  match piece.shape with
  | .opening _ | .closing _ => true
  | .whole | .passing => false

def width (piece : Piece) : Nat :=
  (piece.stop.column - piece.start.column) + (piece.start.column - piece.stop.column)

def meets (a b : Piece) (padding : Nat) : Bool :=
  (b.start.column ≤ a.start.column && a.start.column < b.stop.column) ||
    (a.start.column ≤ b.start.column && b.start.column < a.stop.column + padding)

end Piece

structure Stretch where
  depth : Nat
  start : Point
  stop : Point
  label : Option String
  isPrimary : Bool
  /-- Whether a later stretch has the same span and is drawn instead. -/
  isHidden : Bool
deriving Repr, DecidableEq

namespace Stretch

def sameSpan (a b : Stretch) : Bool := a.start = b.start && a.stop = b.stop

def sharesLine (a b : Stretch) : Bool :=
  a.start.line ≤ b.stop.line && b.start.line ≤ a.stop.line

/-- Makes room for a stretch among all of them, up to the first that it has no quarrel with. -/
def makeRoom (primaries : List (Point × Point)) (stretch : Stretch) : List Stretch → List Stretch
  | [] => []
  | other :: rest =>
    if !stretch.sameSpan other && stretch.sharesLine other then
      { other with depth := other.depth + 1 } :: makeRoom primaries stretch rest
    else if stretch.sameSpan other && stretch ≠ other then
      { other with isHidden := true } :: makeRoom primaries stretch rest
    else
      { other with isPrimary := other.isPrimary || primaries.contains (other.start, other.stop) } :: rest

def precedes (a b : Stretch) : Bool :=
  a.start.line < b.start.line || a.start.line = b.start.line && b.stop.line ≤ a.stop.line

/-- Gives stretches their depths, the outermost being 1. Each makes room among all in turn. -/
def settle (stretches : List Stretch) : List Stretch :=
  let sorted := stretches.mergeSort precedes
  let (settled, _) := sorted.foldl (fun (settled, primaries) stretch =>
    let primaries := if stretch.isPrimary then (stretch.start, stretch.stop) :: primaries else primaries
    (stretch.makeRoom primaries settled, primaries)) (sorted, [])
  let deepest := (settled.map Stretch.depth).foldl max 0
  settled.map fun stretch => { stretch with depth := deepest - stretch.depth + 1 }

def opening (stretch : Stretch) : Piece :=
  let start := stretch.start
  { start, stop := { start with char := start.char + 1, column := start.column + 1 }
    label := none, isPrimary := stretch.isPrimary, shape := .opening stretch.depth }

def closing (stretch : Stretch) : Piece :=
  let stop := stretch.stop
  { start := { stop with char := stop.char - 1, column := stop.column - 1, offset := stop.offset - 1 }, stop
    label := stretch.label, isPrimary := stretch.isPrimary
    shape := if stretch.isHidden then .whole else .closing stretch.depth }

def passing (stretch : Stretch) : Piece := ⟨.origin, .origin, none, stretch.isPrimary, .passing⟩

def bareLines : List String := ["", "\x7b", "\x7d", "(", ")", "[", "]"]

/-- Whether a line is worth showing inside a stretch. Comments with two slashes are not,
those with a third slash or an exclamation mark are. -/
def isTelling (line : SourceLine) : Bool :=
  let text := (line.line.content.dropWhile isBlank).reverse.dropWhile isBlank |>.reverse
  let isComment := ['/', '/'].isPrefixOf text &&
    !(['/', '/', '/'].isPrefixOf text || ['/', '/', '!'].isPrefixOf text)
  !isComment && !bareLines.contains (String.ofList text)

def shownLines : Nat := 4

/-- The numbers of the lines between first and last that are shown: the beginning up to the
last telling line, and the line before the end. -/
def passedLines (lines : List SourceLine) (stretch : Stretch) : List Nat :=
  let first := stretch.start.line
  let middle := min (first + shownLines) stretch.stop.line
  let beginning := lines.filter fun line => first ≤ line.number && line.number < middle && isTelling line
  let upTo := (beginning.getLast?.map (·.number + 1)).getD first
  let beforeEnd := stretch.stop.line - 1
  let showsEnd := middle < beforeEnd && lines.any fun line => line.number = beforeEnd && isTelling line
  List.range' (first + 1) (upTo - (first + 1)) ++ (if showsEnd then [beforeEnd] else [])

def pieces (lines : List SourceLine) (stretch : Stretch) : List (Nat × Piece) :=
  let closing := (stretch.stop.line, stretch.closing)
  if stretch.isHidden then [closing]
  else (stretch.start.line, stretch.opening) ::
    ((passedLines lines stretch).map fun number => (number, stretch.passing)) ++ [closing]

end Stretch

structure MarkedLine where
  source : SourceLine
  pieces : List Piece
deriving Repr

/-- A mark on one line, or over several. An empty mark is one column wide. -/
def place (lines : List SourceLine) (mark : Mark) : Sum (Nat × Piece) Stretch :=
  let start := startPoint lines mark.span.start
  let stop := if mark.span.start = mark.span.stop then start else endPoint lines start mark.span.stop
  if start.line ≠ stop.line then .inr ⟨1, start, stop, mark.label, mark.isPrimary, false⟩
  else
    let stop := if start.column = stop.column then { stop with column := stop.column + 1 } else stop
    .inl (start.line, ⟨start, stop, mark.label, mark.isPrimary, .whole⟩)

def markLines (lines : List SourceLine) (marks : List Mark) : List MarkedLine × Nat :=
  let places := marks.map (place lines)
  let stretches := Stretch.settle (places.filterMap Sum.getRight?)
  let pieces := places.filterMap Sum.getLeft? ++ stretches.flatMap (Stretch.pieces lines)
  let marked := lines.map fun line =>
    ⟨line, (pieces.filter (·.1 = line.number)).map (·.2)⟩
  (marked.filter (!·.pieces.isEmpty), (stretches.map Stretch.depth).foldl max 0)

end TreeQuery.Snippet
