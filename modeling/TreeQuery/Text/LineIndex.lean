import TreeQuery.Text.Total

/-! Byte offsets and editor positions of a text. Editors count columns in UTF-16 units,
the syntax tree counts bytes. A position past the end of its line means the line's end. -/

namespace TreeQuery.Text

/-- Zero-based line and column, the column in UTF-16 units. -/
structure Position where
  line : Nat
  column : Nat
deriving Repr, DecidableEq

def utf8Length (chars : List Char) : Nat := total Char.utf8Size chars

/-- UTF-16 units of a character: two above the basic plane. -/
def utf16Size (c : Char) : Nat := if c.val < 0x10000 then 1 else 2

/-- A line of a text: the offset of its first byte and its characters, without the line
break that ends it. -/
structure Line where
  start : Nat
  content : List Char
deriving Repr, DecidableEq

namespace Line

def stop (line : Line) : Nat := line.start + utf8Length line.content

def withoutReturn (chars : List Char) : List Char :=
  if chars.getLast? = some '\r' then chars.dropLast else chars

def split (start : Nat) (read : List Char) : List Char → List Line
  | [] => [⟨start, read.reverse⟩]
  | c :: rest =>
    if c = '\n' then
      ⟨start, withoutReturn read.reverse⟩ :: split (start + utf8Length read + 1) [] rest
    else split start (c :: read) rest

/-- Bytes before a column. A column between the two units of a character counts back from
the character's end; one past the end means the end. -/
def bytesBefore : List Char → Nat → Nat
  | _, 0 => 0
  | [], _ => 0
  | c :: rest, column =>
    if column < utf16Size c then c.utf8Size - (utf16Size c - column)
    else c.utf8Size + bytesBefore rest (column - utf16Size c)

/-- Units before a byte offset of the line. Bytes inside a character, and those of the line
break, count one each. -/
def unitsBefore : List Char → Nat → Nat
  | [], bytes => bytes
  | c :: rest, bytes =>
    if c.utf8Size ≤ bytes then utf16Size c + unitsBefore rest (bytes - c.utf8Size) else bytes

end Line

/-- The lines of a text. There is always at least one. -/
structure LineIndex where
  lines : List Line
deriving Repr, DecidableEq

namespace LineIndex

def ofText (text : String) : LineIndex := ⟨Line.split 0 [] text.toList⟩

def lineCount (index : LineIndex) : Nat := index.lines.length

def length (index : LineIndex) : Nat := (index.lines.getLast?.map Line.stop).getD 0

def isEmpty (index : LineIndex) : Bool := index.length == 0

/-- The byte offset of a position, none for a line past the last. -/
def offset? (index : LineIndex) (position : Position) : Option Nat :=
  index.lines[position.line]?.map fun line => line.start + Line.bytesBefore line.content position.column

/-- The position of a byte offset, that of the text's end for an offset past it. -/
def position (index : LineIndex) (offset : Nat) : Position :=
  let offset := min offset index.length
  let before := index.lines.takeWhile (·.start ≤ offset)
  match before.getLast? with
  | some line => ⟨before.length - 1, Line.unitsBefore line.content (offset - line.start)⟩
  | none => ⟨0, 0⟩

end LineIndex

end TreeQuery.Text
