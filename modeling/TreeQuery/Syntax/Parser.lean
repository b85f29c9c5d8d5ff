import TreeQuery.Syntax.Cursor

/-! The grammar of queries. Every text gives a tree: tokens that do not belong are placed in
error nodes, missing closers are reported at their opener, and constructs left incomplete
keep what there is of them. Omissions that a later check reports are parsed silently. -/

namespace TreeQuery.Syntax
open Text (Span)
open Diagnostic (Report)

namespace Parser
open Reading

/-- Pattern nesting at which parsing stops unless another limit is given. -/
def defaultLimit : Nat := 512

def reportHere (kind : Diagnostic.Kind) : Reading Unit := do
  report (.of kind (← currentSpan))

def skipToken : Reading Unit := do
  unless ← atEnd do node .error take

def unexpected (wanted : String) : Reading Unit := do
  report ((Report.of .unexpectedToken (← currentSpan)).withDetail wanted)
  skipToken

def bareIdentifier : Reading Unit := do
  reportHere .bareIdentifier
  skipToken

/-- Consumes the closer of the delimiter at `opener`, or reports it unclosed. -/
def close (closer : TokenKind) (unclosed : Diagnostic.Kind) (opener : Span) : Reading Unit := do
  unless ← takeIf closer do report (.of unclosed opener)

/-- `@name`. The name must follow the sign immediately. -/
def capture : Reading Unit := node .capture do
  take
  if (← adjacent) = some .identifier then take

/-- A capture that follows no pattern. -/
def detachedCapture : Reading Unit := do
  let start := (← currentSpan).start
  node .capture do
    take
    if (← adjacent) = some .identifier then
      let name ← currentSpan
      take
      report (.of .captureWithoutTarget ⟨start, name.stop⟩)

def quantifier : Reading Unit := do
  if (← current).any TokenKind.isQuantifier then node .quantifier take

def nextCapture : Reading Bool := do
  if (← current) = some .atSign then
    capture
    return true
  else return false

def suffix : Reading Unit := do
  quantifier
  repeatWhile nextCapture

def stringContent : Reading Unit := do
  if (← adjacent) = some .stringContent then take

def closingQuote (opener : Span) : Reading Unit := do
  if (← adjacent) = some .doubleQuote then take else report (.of .unclosedString opener)

def string : Reading Unit := node .string do
  let opener ← currentSpan
  take
  stringContent
  closingQuote opener

/-- `!name` -/
def negatedField : Reading Unit := node .negatedField do
  take
  unless ← takeIf .identifier do reportHere .expectedFieldName

def stringOrWildcard : Reading Unit := do
  unless ← takeIf .underscore do string

/-- `"literal"` or `_`, with an optional quantifier and captures. -/
def anonymousNode : Reading Unit := node .anonymousNode do
  stringOrWildcard
  suffix

def argument : TokenKind → Reading Unit
  | .atSign => capture
  | .doubleQuote => string
  | .identifier | .underscore => take
  | _ => unexpected "expected a capture, string or identifier argument"

/-- One more member of a list that a closer ends, read by its first token; the closer is left. -/
def nextMember (member : TokenKind → Reading Unit) : Reading Bool := do
  match ← current with
  | none => return false
  | some kind =>
    if kind.isCloser then return false
    member kind
    return true

def arguments : Reading Unit := node .parameters (repeatWhile (nextMember argument))

def predicateMark : Reading Unit := do
  unless ← takeIf .question do
    unless ← takeIf .bang do reportHere .expectedPredicateType

def predicateName : Reading Unit := do
  if ← takeIf .identifier then predicateMark else reportHere .expectedPredicateName

/-- `(#name? arguments...)` or `(#name! arguments...)` -/
def predicate : Reading Unit := node .predicate do
  let opener ← currentSpan
  take
  expect .sharp
  take
  predicateName
  arguments
  close .parenClose .unclosedNode opener

def item (inner : Reading Unit) : TokenKind → Reading Unit
  | .bang => negatedField
  | .dot => take
  | .atSign => detachedCapture
  | kind => if kind.startsPattern then inner else unexpected "expected a pattern"

def items (inner : Reading Unit) : Reading Unit := repeatWhile (nextMember (item inner))

/-- The kind or the literal that `MISSING` stands before. -/
def missingKind : Reading Unit := do
  match ← current with
  | some .identifier => take
  | some .doubleQuote => string
  | _ => pure ()

/-- `/subtype` after the name of a supertype. -/
def subtype : Reading Unit := do
  if ← takeIf .slash then
    unless ← takeIf .identifier do reportHere .expectedSubtype

def kindDetail (name : String) : Reading Unit := if name = "MISSING" then missingKind else subtype

/-- `(kind items...)`, `(_ items...)`, `(supertype/subtype items...)`; after `MISSING`, what
is missing. -/
def namedNode (inner : Reading Unit) : Reading Unit := node .namedNode do
  let opener ← currentSpan
  take
  let name ← currentText
  take
  kindDetail name
  items inner
  close .parenClose .unclosedNode opener
  suffix

/-- `( items... )` -/
def grouping (inner : Reading Unit) : Reading Unit := node .grouping do
  let opener ← currentSpan
  take
  items inner
  close .parenClose .unclosedNode opener
  suffix

/-- `[ items... ]` -/
def list (inner : Reading Unit) : Reading Unit := node .list do
  let opener ← currentSpan
  take
  items inner
  close .bracketClose .unclosedList opener
  suffix

/-- `name: value`. The value may be missing. -/
def fieldDefinition (inner : Reading Unit) : Reading Unit := node .fieldDefinition do
  take
  expect .colon
  take
  if (← current).any TokenKind.startsValue then inner

/-- A node, or a grouping whose first item is a field. -/
def namedNodeOrGrouping (inner : Reading Unit) : Reading Unit := do
  if (← ahead 2) = some .colon then grouping inner else namedNode inner

def parenthesized (inner : Reading Unit) : Reading Unit := do
  match ← ahead 1 with
  | some .sharp => predicate
  | some .identifier | some .underscore => namedNodeOrGrouping inner
  | _ => grouping inner

def construct (inner : Reading Unit) : Reading Unit := do
  match ← current with
  | some .parenOpen => parenthesized inner
  | some .bracketOpen => list inner
  | some .doubleQuote | some .underscore => anonymousNode
  | some .identifier =>
    if (← ahead 1) = some .colon then fieldDefinition inner else bareIdentifier
  | _ => unexpected "expected a pattern"

def swallow : Reading Bool := do
  if ← atEnd then return false
  take
  return true

/-- Places all that is left in one error node. -/
def giveUp : Reading Unit := do
  let start := (← currentSpan).start
  let stop ← ask Cursor.stop
  reportLast (.of .nestingTooDeep ⟨start, stop⟩)
  node .error (repeatWhile swallow)

/-- A construct at which the looks ahead are counted anew. -/
def nested (inner : Reading Unit) : Reading Unit := do
  move Cursor.rested
  construct inner
  move Cursor.rested

/-- A pattern that may nest `room` patterns deep, itself included. -/
def pattern : (room : Nat) → Reading Unit
  | 0 => unlessExhausted giveUp
  | room + 1 => unlessExhausted (nested (pattern room))

def topLevel (limit : Nat) : Option TokenKind → Reading Unit
  | some .atSign => detachedCapture
  | kind =>
    if kind.any TokenKind.startsPattern then pattern limit else unexpected "expected a pattern"

def nextTopLevel (limit : Nat) : Reading Bool := do
  if ← atEnd then return false
  topLevel limit (← current)
  return true

def program (limit : Nat) : Reading Unit := node .program do
  repeatWhile (nextTopLevel limit)
  move Cursor.skip
  placeWaiting

end Parser

structure Parse where
  tree : Tree
  reports : List Report
  fault : Option Fault

/-- Parses a text whose patterns may nest `limit` deep. -/
def parse (limit : Nat) (source : String) : Parse :=
  let step := Parser.program limit (.start (Token.ofText source))
  ⟨step.trees.headD (.node .program []), step.reports, step.next.fault⟩

end TreeQuery.Syntax
