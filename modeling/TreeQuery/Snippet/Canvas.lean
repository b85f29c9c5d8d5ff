/-! Rows of inked characters, drawn stroke by stroke. A later stroke covers an earlier one. -/

namespace TreeQuery.Snippet

inductive Ink where
  | plain
  | strong
  | severity
  /-- The colour of the gutter and of places that only explain. -/
  | accent
deriving Repr, DecidableEq

structure Cell where
  char : Char
  ink : Ink
deriving Repr, DecidableEq

abbrev Row := List Cell

def inked (ink : Ink) (text : List Char) : Row := text.map (⟨·, ink⟩)

def inkedString (ink : Ink) (text : String) : Row := inked ink text.toList

def blanks (count : Nat) : List Char := List.replicate count ' '

namespace Row

/-- Puts cells over a row, blanks before them where the row is too short. Without cells
nothing is put. -/
def put (row : Row) (start : Nat) (cells : Row) : Row :=
  if cells.isEmpty then row
  else row.take start ++ inked .plain (blanks (start - row.length)) ++ cells ++ row.drop (start + cells.length)

/-- Puts a text in place of the cells between two places of a row, if both exist and differ. -/
def replace (row : Row) (start stop : Nat) (cells : Row) : Row :=
  if start = stop || row.length < start || row.length < stop then row
  else row.take start ++ cells ++ row.drop stop

/-- The row as text, given the code that begins each ink. No code, no end of it. -/
def render (code : Ink → String) (row : Row) : String :=
  String.join <| (row.splitBy (·.ink == ·.ink)).map fun run =>
    let text := String.ofList (run.map Cell.char)
    match run.head?.map (code ·.ink) with
    | none | some "" => text
    | some begin_ => begin_ ++ text ++ "\x1b[0m"

end Row

structure Stroke where
  row : Nat
  start : Nat
  cells : Row
deriving Repr

namespace Stroke

def text (row start : Nat) (ink : Ink) (text : List Char) : Stroke := ⟨row, start, inked ink text⟩

def char (row start : Nat) (ink : Ink) (c : Char) : Stroke := .text row start ink [c]

/-- The same character from one cell up to another, which is left out. -/
def run (row start stop : Nat) (ink : Ink) (c : Char) : Stroke :=
  .text row start ink (List.replicate (stop - start) c)

def column (start stop cell : Nat) (ink : Ink) (c : Char) : List Stroke :=
  (List.range' start (stop - start)).map fun row => .char row cell ink c

end Stroke

def draw (rows : List Row) (stroke : Stroke) : List Row :=
  rows.modify stroke.row (·.put stroke.start stroke.cells)

/-- Draws strokes in order. A stroke on a row that does not exist is lost. -/
def paint (rows : List Row) (strokes : List Stroke) : List Row := strokes.foldl draw rows

end TreeQuery.Snippet
