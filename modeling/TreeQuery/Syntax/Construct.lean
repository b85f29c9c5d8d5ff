import TreeQuery.Syntax.Tree
import TreeQuery.Text.Escape

/-! The parts of a construct, read off its children. A part that the query leaves out is
absent; nothing here depends on blank space or comments. -/

namespace TreeQuery.Syntax

namespace Placed

def firstToken? (place : Placed) (wanted : TokenKind → Bool) : Option Placed :=
  place.children.find? fun child => match child.kind with
    | .token kind => wanted kind
    | .node _ => false

def firstNode? (place : Placed) (wanted : NodeKind) : Option Placed :=
  place.children.find? (·.isNode wanted)

def identifier? (place : Placed) : Option Placed := place.firstToken? (· = .identifier)

def items (place : Placed) : List Placed :=
  place.children.filter fun child => match child.kind with
    | .node kind => kind.isItem
    | .token _ => false

def captures (place : Placed) : List Placed := place.children.filter (·.isNode .capture)

def quantifier? (place : Placed) : Option Placed := do
  (← place.firstNode? .quantifier).firstToken? TokenKind.isQuantifier

/-- The kind name of a named node, or the `_` of a wildcard. -/
def kindName? (place : Placed) : Option Placed :=
  place.firstToken? fun kind => kind = .identifier || kind = .underscore

def isWildcard (place : Placed) : Bool := place.kindName?.any (·.kind = .token .underscore)

def hasSlash (place : Placed) : Bool := (place.firstToken? (· = .slash)).isSome

def subtype? (place : Placed) : Option Placed :=
  (place.children.dropWhile (·.kind ≠ .token .slash)).find? (·.kind = .token .identifier)

/-- The string of an anonymous node, absent for a bare `_`. -/
def string? (place : Placed) : Option Placed := place.firstNode? .string

def value? (place : Placed) : Option Placed := place.items.head?

def predicateMark? (place : Placed) : Option Placed :=
  place.firstToken? fun kind => kind = .question || kind = .bang

/-- The name of a predicate with its mark, as `eq?` or `set!`. -/
def predicateName? (place : Placed) : Option String := do
  let name ← place.identifier?
  let mark ← place.predicateMark?
  return name.text ++ mark.text

def isDirective (place : Placed) : Bool := place.predicateMark?.any (·.kind = .token .bang)

def parameters? (place : Placed) : Option Placed := place.firstNode? .parameters

def strings (place : Placed) : List Placed := place.children.filter (·.isNode .string)

def isBlank (place : Placed) : Bool := place.children.all (·.kind.isTrivia)

/-- What stands between the quotes of a string, escapes as written. -/
def content? (place : Placed) : Option Placed := place.firstToken? (· = .stringContent)

def stringValue (place : Placed) : String := (place.content?.map (Text.unescape ·.text)).getD ""

def isTerminated (place : Placed) : Bool :=
  place.children.countP (·.kind = .token .doubleQuote) == 2

end Placed

namespace Tree

def placed (root : Tree) : Placed := ⟨0, root⟩

end Tree

end TreeQuery.Syntax
