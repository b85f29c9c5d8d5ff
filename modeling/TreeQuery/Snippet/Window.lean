import TreeQuery.Snippet.Mark

/-! The columns of a text that are shown where its lines are too long. The window is placed so
that the marks are in it, with their labels if possible. -/

namespace TreeQuery.Snippet
open Text (columns isBlank utf8Length)

def ellipsisRoom : Nat := 6

/-- Indentation beyond which lines are moved to the left, and what is left of it then. -/
def longIndentation : Nat := 20

def keptIndentation : Nat := 4

structure Window where
  left : Nat
  right : Nat
  width : Nat
deriving Repr, DecidableEq

namespace Window

/-- The columns of a line's indentation; none for a blank line. -/
def indentation? (line : List Char) : Option Nat :=
  if line.all isBlank then none
  else some (Text.total (fun c => if c = '\t' then 4 else 1) (line.takeWhile isBlank))

def least (numbers : List Nat) : Nat := (numbers.min?).getD 0

def greatest (numbers : List Nat) : Nat := (numbers.max?).getD 0

def onLines (width : Nat) (lines : List MarkedLine) : Window :=
  let contents := lines.map (·.source.line.content)
  let pieces := lines.flatMap MarkedLine.pieces
  let ends := pieces.flatMap fun piece => [piece.start.column, piece.stop.column]
  let labelEnds := pieces.map fun piece =>
    piece.stop.column + ((piece.label.map (·.utf8ByteSize + 1)).getD 0)
  let indentation := least (contents.filterMap indentation?) - ellipsisRoom
  let marksLeft := least ends - ellipsisRoom
  let marksRight := greatest ends + ellipsisRoom
  let labelsRight := greatest labelEnds + ellipsisRoom
  let left := if longIndentation < indentation then indentation - (longIndentation - keptIndentation) else 0
  let right := max (greatest (contents.map utf8Length)) left
  if right - left ≤ width then ⟨left, right, width⟩
  else if labelsRight - indentation ≤ width then ⟨indentation, indentation + width, width⟩
  else if labelsRight - marksLeft ≤ width then
    let left := marksLeft - (width - (labelsRight - marksLeft)) / 2
    ⟨left, left + width, width⟩
  else if marksRight - marksLeft ≤ width then
    let left := marksLeft - (width - (marksRight - marksLeft)) / 5 * 2
    ⟨left, left + width, width⟩
  else ⟨marksLeft, marksRight, width⟩

def leftOf (window : Window) (length : Nat) : Nat := min window.left length

def rightOf (window : Window) (length : Nat) : Nat :=
  if length - window.left ≤ window.width then length else min length window.right

def isCutLeft (window : Window) : Bool := 0 < window.left

end Window

def filling (room : Nat) : List Char → List Char
  | [] => []
  | c :: rest => if room = 0 then [] else c :: filling (room - Text.columnsOf c) rest

def within (room : Nat) : List Char → List Char
  | [] => []
  | c :: rest => if Text.columnsOf c ≤ room then c :: within (room - Text.columnsOf c) rest else []

end TreeQuery.Snippet
