import TreeQuery.Diagnostic.Report
import TreeQuery.Syntax.Tree

/-! A place in the tokens of a query, and readings that move it. A reading yields the trees
it places in the construct around it, and its reports, both in order. Blank space and
comments wait until a token or a node is placed after them, and then go in front of it. -/

namespace TreeQuery.Syntax
open Text (Span)
open Diagnostic (Report)

/-- What would show the parser itself to be wrong. -/
inductive Fault where
  /-- Too many looks ahead without moving on. -/
  | stalled
  /-- A token was taken where none was left. -/
  | nothingLeft
  | unexpected (wanted : TokenKind)
  /-- A loop was to go on and had not moved on. -/
  | endless
deriving Repr, DecidableEq

structure Cursor where
  /-- The byte offset of the first token of `rest`. -/
  offset : Nat
  /-- Trivia read and not yet placed. -/
  waiting : List Token
  rest : List Token
  /-- Looks ahead since a token was taken or the depth changed. -/
  looks : Nat
  reported : Option Nat
  /-- Set once nesting went too deep: nothing more is reported. -/
  exhausted : Bool
  fault : Option Fault
deriving Repr, DecidableEq

namespace Cursor

def start (tokens : List Token) : Cursor := ⟨0, [], tokens, 0, none, false, none⟩

/-- Looks ahead allowed between two tokens taken. -/
def lookLimit : Nat := 256

def failed (cursor : Cursor) (fault : Fault) : Cursor :=
  { cursor with fault := cursor.fault.or (some fault) }

def look (cursor : Cursor) : Cursor :=
  let cursor := if cursor.looks < lookLimit then cursor else cursor.failed .stalled
  { cursor with looks := cursor.looks + 1 }

def rested (cursor : Cursor) : Cursor := { cursor with looks := 0 }

/-- Moves past trivia, which then waits to be placed. -/
def skip (cursor : Cursor) : Cursor :=
  let trivia := cursor.rest.takeWhile Token.isTrivia
  { cursor with
    offset := cursor.offset + Text.total Token.length trivia
    waiting := cursor.waiting ++ trivia
    rest := cursor.rest.dropWhile Token.isTrivia }

def stop (cursor : Cursor) : Nat := cursor.offset + Text.total Token.length cursor.rest

def span (cursor : Cursor) : Span := ⟨cursor.offset, cursor.offset + (cursor.rest.head?.map Token.length).getD 0⟩

end Cursor

/-- The token with `n` others before it, trivia not counted. -/
def solid? : Nat → List Token → Option Token
  | _, [] => none
  | 0, token :: rest => if token.isTrivia then solid? 0 rest else some token
  | n + 1, token :: rest => solid? (if token.isTrivia then n + 1 else n) rest

structure Step (α : Type) where
  value : α
  trees : List Tree
  reports : List Report
  next : Cursor

def Reading (α : Type) := Cursor → Step α

namespace Reading

protected def pure {α : Type} (value : α) : Reading α := fun cursor => ⟨value, [], [], cursor⟩

protected def bind {α β : Type} (first : Reading α) (second : α → Reading β) : Reading β := fun cursor =>
  let before := first cursor
  let after := second before.value before.next
  ⟨after.value, before.trees ++ after.trees, before.reports ++ after.reports, after.next⟩

instance : Monad Reading where
  pure := Reading.pure
  bind := Reading.bind

def move (change : Cursor → Cursor) : Reading Unit := fun cursor => ⟨(), [], [], change cursor⟩

/-- Asks the cursor after the trivia ahead of it. -/
def ask {α : Type} (question : Cursor → α) : Reading α := fun cursor =>
  ⟨question cursor.skip, [], [], cursor.skip⟩

def current : Reading (Option TokenKind) := do
  move Cursor.look
  ask (·.rest.head?.map Token.kind)

/-- The kind of the very next token, trivia or not. -/
def adjacent : Reading (Option TokenKind) := fun cursor =>
  ⟨cursor.rest.head?.map Token.kind, [], [], cursor.look⟩

def ahead (n : Nat) : Reading (Option TokenKind) := do
  move Cursor.look
  ask fun cursor => (solid? n cursor.rest).map Token.kind

def currentText : Reading String := ask fun cursor => (cursor.rest.head?.map Token.text).getD ""

def currentSpan : Reading Span := ask Cursor.span

def atEnd : Reading Bool := ask (·.rest.isEmpty)

def placeWaiting : Reading Unit := fun cursor =>
  ⟨(), cursor.waiting.map .leaf, [], { cursor with waiting := [] }⟩

/-- Places the next token, and before it the trivia that waits. -/
def take : Reading Unit := fun cursor =>
  let cursor := cursor.skip
  match cursor.rest with
  | [] => ⟨(), [], [], cursor.failed .nothingLeft⟩
  | token :: rest =>
    ⟨(), (cursor.waiting ++ [token]).map .leaf, [],
      { cursor.rested with offset := cursor.offset + token.length, waiting := [], rest := rest }⟩

def takeIf (kind : TokenKind) : Reading Bool := do
  if (← current) = some kind then
    take
    return true
  else return false

def expect (kind : TokenKind) : Reading Unit := do
  unless (← current) = some kind do move (·.failed (.unexpected kind))

/-- Places a node around what `body` places. Trivia that waits stands before the node. -/
def node (kind : NodeKind) (body : Reading Unit) : Reading Unit := fun cursor =>
  let inside := body { cursor with waiting := [] }
  ⟨(), cursor.waiting.map .leaf ++ [.node kind inside.trees], inside.reports, inside.next⟩

/-- Reports at a span, unless the last report begins at the same place. -/
def report (found : Report) : Reading Unit := fun cursor =>
  if cursor.exhausted || cursor.reported = some found.span.start then ⟨(), [], [], cursor⟩
  else ⟨(), [], [found], { cursor with reported := some found.span.start }⟩

/-- Reports whatever happened before, and nothing from then on. -/
def reportLast (found : Report) : Reading Unit := fun cursor =>
  ⟨(), [], [found], { cursor with exhausted := true }⟩

def unlessExhausted (reading : Reading Unit) : Reading Unit := fun cursor =>
  if cursor.exhausted then ⟨(), [], [], cursor⟩ else reading cursor

/-- Repeats while `step` answers that there may be more. It has to move on for that. -/
def repeatWhile (step : Reading Bool) : Reading Unit := fun cursor =>
  let once := step cursor
  if once.value = false then ⟨(), once.trees, once.reports, once.next⟩
  else if _ : once.next.rest.length < cursor.rest.length then
    let later := repeatWhile step once.next
    ⟨(), once.trees ++ later.trees, once.reports ++ later.reports, later.next⟩
  else ⟨(), once.trees, once.reports, once.next.failed .endless⟩
termination_by cursor => cursor.rest.length

end Reading

end TreeQuery.Syntax
