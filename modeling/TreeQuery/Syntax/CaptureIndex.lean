import TreeQuery.Registry
import TreeQuery.Syntax.Construct

/-! The capture names of a document, in the order in which they first appear, each with the
places where it stands. -/

namespace TreeQuery.Syntax
open Text (Span)

structure CaptureIndex where
  places : Registry (List Span)
deriving Repr, DecidableEq

namespace CaptureIndex

def insert (index : CaptureIndex) (name : String) (place : Span) : CaptureIndex :=
  ⟨index.places.alter name fun before => before.getD [] ++ [place]⟩

/-- The name tokens of all captures of a document. A capture without a name has none. -/
def nameTokens (root : Tree) : List Placed :=
  root.nodeSites.filterMap fun site =>
    if site.place.isNode .capture then site.place.identifier? else none

def ofTree (root : Tree) : CaptureIndex :=
  (nameTokens root).foldl (fun index name => index.insert name.text name.span) ⟨.empty⟩

def occurrences (index : CaptureIndex) (name : String) : List Span := (index.places.get? name).getD []

def count (index : CaptureIndex) (name : String) : Nat := (index.occurrences name).length

def names (index : CaptureIndex) : List String := index.places.names

end CaptureIndex

end TreeQuery.Syntax
