import TreeQuery.Syntax.CaptureIndex
import TreeQuery.Syntax.Parser
import TreeQuery.Text.LineIndex

/-! A query with everything that follows from its text alone: the tree, the reports of the
parser, the lines and the captures. -/

namespace TreeQuery
open Text (LineIndex Position)

structure Document where
  source : String
  parsed : Syntax.Parse
  lines : LineIndex
  captures : Syntax.CaptureIndex

namespace Document

def ofText (limit : Nat) (source : String) : Document :=
  let parsed := Syntax.parse limit source
  ⟨source, parsed, .ofText source, .ofTree parsed.tree⟩

def tree (document : Document) : Syntax.Tree := document.parsed.tree

/-- The byte offset of a position, none for a line past the last. -/
def offset? (document : Document) (position : Position) : Option Nat := document.lines.offset? position

def position (document : Document) (offset : Nat) : Position := document.lines.position offset

end Document

end TreeQuery
