/-! Kinds of tokens and of syntax nodes, in their fixed order, and sets of them. -/

namespace TreeQuery.Syntax

inductive TokenKind where
  | parenOpen | parenClose | bracketOpen | bracketClose
  | colon | bang | underscore | dot | atSign | sharp | slash
  | star | plus | question
  /-- A string as scanned, before its quotes and its content become tokens of their own. -/
  | stringLiteral
  | doubleQuote
  | stringContent
  | identifier
  | whitespace | newline | comment
  /-- A stretch of characters with which no token begins. -/
  | garbage
deriving Repr, DecidableEq

inductive NodeKind where
  /-- Tokens skipped in recovery. -/
  | error
  | program
  /-- `(kind ...)`, `(_ ...)`, `(supertype/subtype)` -/
  | namedNode
  /-- `"literal"` or a bare `_` -/
  | anonymousNode
  /-- `( ... )` without a kind name -/
  | grouping
  /-- `[ ... ]` -/
  | list
  | fieldDefinition | negatedField | capture | quantifier | predicate | parameters | string
deriving Repr, DecidableEq

namespace TokenKind

def all : List TokenKind :=
  [parenOpen, parenClose, bracketOpen, bracketClose, colon, bang, underscore, dot, atSign, sharp, slash,
   star, plus, question, stringLiteral, doubleQuote, stringContent, identifier, whitespace, newline,
   comment, garbage]

def name : TokenKind → String
  | parenOpen => "ParenOpen"
  | parenClose => "ParenClose"
  | bracketOpen => "BracketOpen"
  | bracketClose => "BracketClose"
  | colon => "Colon"
  | bang => "Bang"
  | underscore => "Underscore"
  | dot => "Dot"
  | atSign => "At"
  | sharp => "Sharp"
  | slash => "Slash"
  | star => "Star"
  | plus => "Plus"
  | question => "Question"
  | stringLiteral => "StringLiteral"
  | doubleQuote => "DoubleQuote"
  | stringContent => "StrVal"
  | identifier => "Id"
  | whitespace => "Whitespace"
  | newline => "Newline"
  | comment => "Comment"
  | garbage => "Garbage"

def isTrivia : TokenKind → Bool
  | whitespace | newline | comment => true
  | _ => false

def startsPattern : TokenKind → Bool
  | parenOpen | bracketOpen | doubleQuote | underscore | identifier => true
  | _ => false

def startsValue : TokenKind → Bool
  | parenOpen | bracketOpen | doubleQuote | underscore => true
  | _ => false

def isQuantifier : TokenKind → Bool
  | star | plus | question => true
  | _ => false

/-- A closing delimiter ends any list of items; the owner of the opening one consumes it. -/
def isCloser : TokenKind → Bool
  | parenClose | bracketClose => true
  | _ => false

end TokenKind

namespace NodeKind

def all : List NodeKind :=
  [error, program, namedNode, anonymousNode, grouping, list, fieldDefinition, negatedField, capture,
   quantifier, predicate, parameters, string]

def name : NodeKind → String
  | error => "Error"
  | program => "Program"
  | namedNode => "NamedNode"
  | anonymousNode => "AnonymousNode"
  | grouping => "Grouping"
  | list => "List"
  | fieldDefinition => "FieldDefinition"
  | negatedField => "NegatedField"
  | capture => "Capture"
  | quantifier => "Quantifier"
  | predicate => "Predicate"
  | parameters => "Parameters"
  | string => "Str"

def isItem : NodeKind → Bool
  | namedNode | anonymousNode | grouping | list | fieldDefinition | negatedField | predicate => true
  | _ => false

end NodeKind

inductive Kind where
  | token (kind : TokenKind)
  | node (kind : NodeKind)
deriving Repr, DecidableEq

namespace Kind

/-- Every kind, tokens first. The place in this list is the kind's number. -/
def all : List Kind := TokenKind.all.map token ++ NodeKind.all.map node

def name : Kind → String
  | token kind => kind.name
  | node kind => kind.name

def number (kind : Kind) : Nat := all.idxOf kind

def ofName? (name : String) : Option Kind := all.find? (·.name = name)

def isTrivia : Kind → Bool
  | token kind => kind.isTrivia
  | node _ => false

/-- Whether the element is there only because something did not belong. -/
def isError : Kind → Bool
  | token .garbage | node .error => true
  | _ => false

end Kind

structure KindSet where
  contains : Kind → Bool

namespace KindSet

def ofList (kinds : List Kind) : KindSet := ⟨(kinds.contains ·)⟩

def union (a b : KindSet) : KindSet := ⟨fun kind => a.contains kind || b.contains kind⟩

def toList (set : KindSet) : List Kind := Kind.all.filter set.contains

def isEmpty (set : KindSet) : Bool := set.toList.isEmpty

instance : BEq KindSet := ⟨fun a b => a.toList == b.toList⟩

def describe (set : KindSet) : String :=
  "\x7b" ++ ", ".intercalate (set.toList.map Kind.name) ++ "\x7d"

end KindSet

end TreeQuery.Syntax
