import TreeQuery.Text.Quoted

/-! What can be wrong with a JSON text that is read for a purpose: its syntax, or a value
that is not the one wanted. -/

namespace TreeQuery.Json

inductive Found where
  | null
  | boolean (value : Bool)
  | integer (value : Int)
  | floating (text : String)
  | string (value : String)
  | sequence
  | map
deriving Repr, DecidableEq

def Found.describe : Found → String
  | null => "null"
  | boolean value => "boolean `" ++ (if value then "true" else "false") ++ "`"
  | integer value => "integer `" ++ toString value ++ "`"
  | floating text => "floating point `" ++ text ++ "`"
  | string value => "string " ++ Text.quoted value
  | sequence => "sequence"
  | map => "map"

inductive Problem where
  | eofInValue | eofInList | eofInObject | eofInString
  | expectedValue | expectedIdent | expectedListEnd | expectedObjectEnd | expectedColon
  | trailingComma | trailingCharacters | keyNotString
  | invalidNumber | numberOutOfRange
  | invalidEscape | unpairedSurrogate | loneSurrogate | controlCharacter
  | wrongType (found : Found) (wanted : String)
  | missingField (name : String)
  | duplicateField (name : String)
  | wrongLength (length : Nat) (wanted : String)
deriving Repr, DecidableEq

def Problem.message : Problem → String
  | eofInValue => "EOF while parsing a value"
  | eofInList => "EOF while parsing a list"
  | eofInObject => "EOF while parsing an object"
  | eofInString => "EOF while parsing a string"
  | expectedValue => "expected value"
  | expectedIdent => "expected ident"
  | expectedListEnd => "expected `,` or `]`"
  | expectedObjectEnd => "expected `,` or `\x7d`"
  | expectedColon => "expected `:`"
  | trailingComma => "trailing comma"
  | trailingCharacters => "trailing characters"
  | keyNotString => "key must be a string"
  | invalidNumber => "invalid number"
  | numberOutOfRange => "number out of range"
  | invalidEscape => "invalid escape"
  | unpairedSurrogate => "unexpected end of hex escape"
  | loneSurrogate => "lone leading surrogate in hex escape"
  | controlCharacter => "control character (\\u0000-\\u001F) found while parsing a string"
  | wrongType found wanted => "invalid type: " ++ found.describe ++ ", expected " ++ wanted
  | missingField name => "missing field `" ++ name ++ "`"
  | duplicateField name => "duplicate field `" ++ name ++ "`"
  | wrongLength length wanted => "invalid length " ++ toString length ++ ", expected " ++ wanted

structure Fault where
  problem : Problem
  offset : Nat
deriving Repr, DecidableEq

/-- The bytes before a place of a text: how many lines end among them, and how many follow
the last of these ends. -/
def lineAndColumn (offset : Nat) : List Char → Nat × Nat
  | chars => go 0 0 0 chars
where
  go (line column read : Nat) : List Char → Nat × Nat
    | [] => (line, column)
    | c :: rest =>
      if offset ≤ read then (line, column)
      else if c = '\n' then go (line + 1) 0 (read + 1) rest
      else go line (column + min c.utf8Size (offset - read)) (read + c.utf8Size) rest

/-- A problem with its line, counted from one, and the bytes read of that line. -/
structure Located where
  problem : Problem
  line : Nat
  column : Nat
deriving Repr, DecidableEq

def Fault.locate (fault : Fault) (source : String) : Located :=
  let (line, column) := lineAndColumn fault.offset source.toList
  ⟨fault.problem, line + 1, column⟩

def Located.message (found : Located) : String :=
  found.problem.message ++ " at line " ++ toString found.line ++ " column " ++ toString found.column

end TreeQuery.Json
