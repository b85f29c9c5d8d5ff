import TreeQuery.Json.Number
import TreeQuery.Registry

/-! Reading values in a wanted form: booleans, strings, lists, maps and records. A record is
written as an object or as the list of its fields in their order. Fields that nobody wants
are passed over, but must be well formed. -/

namespace TreeQuery.Json

inductive Bracket where
  | square
  | curly
deriving Repr, DecidableEq

namespace Bracket

def closer : Bracket → Char
  | square => ']'
  | curly => '\x7d'

def expectedEnd : Bracket → Problem
  | square => .expectedListEnd
  | curly => .expectedObjectEnd

def eof : Bracket → Problem
  | square => .eofInList
  | curly => .eofInObject

end Bracket

namespace Reader

/-- After a value inside the brackets that are open, or after an opening one: passes over
closers, and over a comma, after which another value comes. -/
def skipClosers (commaAllowed : Bool) : List Bracket → Reader (List Bracket)
  | [] => return []
  | bracket :: outer => do
    match ← peekSolid with
    | none => failNext bracket.eof
    | some c =>
      if commaAllowed && c == ',' then
        advance
        return bracket :: outer
      else if c = bracket.closer then
        advance
        skipClosers true outer
      else if commaAllowed then failNext bracket.expectedEnd
      else return bracket :: outer

def colon : Reader Unit := do
  match ← peekSolid with
  | some ':' => advance
  | some _ => failNext .expectedColon
  | none => failNext .eofInObject

def skipKey : Reader Unit := do
  match ← peekSolid with
  | some '"' => advance
  | some _ => failNext .keyNotString
  | none => failNext .eofInObject
  skipStringRest
  colon

def skipStart : Reader (Option Bracket) := do
  match ← peekSolid with
  | none => failNext .eofInValue
  | some 'n' => advance; word ['u', 'l', 'l']; return none
  | some 't' => advance; word ['r', 'u', 'e']; return none
  | some 'f' => advance; word ['a', 'l', 's', 'e']; return none
  | some '-' => advance; skipNumber; return none
  | some '"' => advance; skipStringRest; return none
  | some '[' => advance; return some .square
  | some '\x7b' => advance; return some .curly
  | some c =>
    if c.isDigit then
      skipNumber
      return none
    else failNext .expectedValue

/-- Passes over one value, or the opener of one, where brackets are open; answers which are
open at the next value. -/
def skipStep (opened : List Bracket) : Reader (List Bracket) := do
  let left ← match ← skipStart with
    | none => skipClosers true opened
    | some bracket => skipClosers false (bracket :: opened)
  if left.head? = some .curly then skipKey
  return left

def skipValues (opened : List Bracket) : Reader Unit := fun input =>
  match skipStep opened input with
  | .failed fault => .failed fault
  | .unplaced problem next => .unplaced problem next
  | .done left next =>
    if left.isEmpty then .done () next
    else if _ : next.rest.length < input.rest.length then skipValues left next
    else .done () next
termination_by input => input.rest.length
decreasing_by assumption

def skipValue : Reader Unit := skipValues []

def wrongType {α : Type} (wanted : String) : Reader α := do
  let refusal (found : Found) : Reader α := failHere (.wrongType found wanted)
  match ← peek with
  | some 'n' => advance; word ['u', 'l', 'l']; refusal .null
  | some 't' => advance; word ['r', 'u', 'e']; refusal (.boolean true)
  | some 'f' => advance; word ['a', 'l', 's', 'e']; refusal (.boolean false)
  | some '-' => advance; refusal (← number true)
  | some '"' => advance; refusal (.string (← stringRest))
  | some '[' => refusal .sequence
  | some '\x7b' => refusal .map
  | some c =>
    if c.isDigit then refusal (← number false) else failNext .expectedValue
  | none => failNext .expectedValue

def opening : Reader Char := do
  match ← peekSolid with
  | some c => return c
  | none => failNext .eofInValue

def boolean : Reader Bool := do
  match ← opening with
  | 't' => advance; word ['r', 'u', 'e']; return true
  | 'f' => advance; word ['a', 'l', 's', 'e']; return false
  | _ => wrongType "a boolean"

def string : Reader String := do
  match ← opening with
  | '"' => advance; stringRest
  | _ => wrongType "a string"

/-- A value, or nothing where `null` stands. -/
def optional {α : Type} (value : Reader α) : Reader (Option α) := do
  match ← peekSolid with
  | some 'n' => advance; word ['u', 'l', 'l']; return none
  | _ => return some (← value)

/-- Reads what stands between brackets, then the closing one. A problem still to be placed
is placed after the closer if that comes next. -/
def bracketed {α : Type} (bracket : Bracket) (inside : Reader α) (finish : Reader Unit) : Reader α := fun input =>
  match inside input.tail with
  | .done value next => (finish *> Pure.pure value : Reader α) next
  | .failed fault => .failed fault
  | .unplaced problem next =>
    let next := next.skipBlank
    let atCloser := next.rest.head? = some bracket.closer
    .failed ⟨problem, if atCloser then next.offset + 1 else next.offset⟩

def finishList : Reader Unit := do
  match ← peekSolid with
  | some ']' => advance
  | some ',' =>
    advance
    if (← peekSolid) = some ']' then failNext .trailingComma else failNext .trailingCharacters
  | some _ => failNext .trailingCharacters
  | none => failNext .eofInList

def finishObject : Reader Unit := do
  match ← peekSolid with
  | some '\x7d' => advance
  | some ',' => failNext .trailingComma
  | some _ => failNext .trailingCharacters
  | none => failNext .eofInObject

/-- Whether another element follows, the comma before it passed over. -/
def hasElement (first : Bool) : Reader Bool := do
  match ← peekSolid with
  | none => failNext .eofInList
  | some ']' => return false
  | some c =>
    if first then return true
    else if c == ',' then
      advance
      match ← peekSolid with
      | some ']' => failNext .trailingComma
      | some _ => return true
      | none => failNext .eofInValue
    else failNext .expectedListEnd

def key? (first : Bool) : Reader (Option String) := do
  match ← peekSolid with
  | none => failNext .eofInObject
  | some '\x7d' => return none
  | some c =>
    if first then
      if c == '"' then advance; return some (← stringRest)
      else failNext .keyNotString
    else if c == ',' then
      advance
      match ← peekSolid with
      | some '"' => advance; return some (← stringRest)
      | some '\x7d' => failNext .trailingComma
      | some _ => failNext .keyNotString
      | none => failNext .eofInValue
    else failNext .expectedObjectEnd

def iterate {σ : Type} (step : σ → Reader (σ × Bool)) (state : σ) : Reader σ := fun input =>
  match step state input with
  | .failed fault => .failed fault
  | .unplaced problem next => .unplaced problem next
  | .done (state, more) next =>
    if !more then .done state next
    else if _ : next.rest.length < input.rest.length then iterate step state next
    else .done state next
termination_by input => input.rest.length
decreasing_by assumption

def elements {α : Type} (element : Reader α) : Reader (List α) :=
  iterate (fun read => do
    if ← hasElement read.isEmpty then return ((← element) :: read, true) else return (read, false)) []

def list {α : Type} (element : Reader α) : Reader (List α) := do
  match ← opening with
  | '[' => return (← bracketed .square (elements element) finishList).reverse
  | _ => wrongType "a sequence"

/-- The entries of an object in the order in which their keys first appear, each with the
last of its values. -/
def entries {α : Type} (value : Reader α) : Reader (Registry α) :=
  iterate (fun read => do
    match ← key? read.isEmpty with
    | none => return (read, false)
    | some key =>
      colon
      return (read.insert key (← value), true)) .empty

def map {α : Type} (value : Reader α) : Reader (Registry α) := do
  match ← opening with
  | '\x7b' => bracketed .curly (entries value) finishObject
  | _ => wrongType "a map"

/-- A field of a record: how its value changes the record, and whether it may be left out of
an object and of the end of a list. -/
structure Field (ρ : Type) where
  name : String
  read : Reader (ρ → ρ)
  neededInObject : Bool
  neededInList : Bool

structure Progress (ρ : Type) where
  record : ρ
  seen : List String
  first : Bool

variable {ρ : Type}

def objectField (fields : List (Field ρ)) (progress : Progress ρ) : Reader (Progress ρ × Bool) := do
  match ← key? progress.first with
  | none => return (progress, false)
  | some key =>
    match fields.find? (·.name = key) with
    | none =>
      colon
      skipValue
      return (⟨progress.record, progress.seen, false⟩, true)
    | some field =>
      if progress.seen.contains key then refuse (.duplicateField key)
      else
        colon
        let change ← field.read
        return (⟨change progress.record, key :: progress.seen, false⟩, true)

/-- The fields of an object, in any order. -/
def objectFields (fields : List (Field ρ)) (start : ρ) : Reader ρ := do
  let progress ← iterate (objectField fields) ⟨start, [], true⟩
  match fields.find? fun field => field.neededInObject && !progress.seen.contains field.name with
  | some field => refuse (.missingField field.name)
  | none => return progress.record

def listFields (wanted : String) (read : Nat) (record : ρ) : List (Field ρ) → Reader ρ
  | [] => return record
  | field :: rest => do
    if ← hasElement (read == 0) then
      let change ← field.read
      listFields wanted (read + 1) (change record) rest
    else if field.neededInList then refuse (.wrongLength read wanted)
    else listFields wanted (read + 1) record rest

/-- A record, from one that holds what absent fields stand for. -/
def record (title : String) (fields : List (Field ρ)) (start : ρ) : Reader ρ := do
  match ← opening with
  | '[' =>
    let wanted := title ++ " with " ++ toString fields.length ++ " elements"
    bracketed .square (listFields wanted 0 start fields) finishList
  | '\x7b' => bracketed .curly (objectFields fields start) finishObject
  | _ => wrongType title

end Reader

def Reader.run {α : Type} (reader : Reader α) (source : String) : Except Located α :=
  let whole : Reader α := do
    let value ← reader
    match ← Reader.peekSolid with
    | some _ => Reader.failNext .trailingCharacters
    | none => return value
  match whole (.ofText source) with
  | .done value _ => .ok value
  | .failed fault => .error (fault.locate source)
  | .unplaced problem next => .error (Fault.locate ⟨problem, next.offset⟩ source)

end TreeQuery.Json
