import TreeQuery.Text.Quoted

/-! JSON values that are written out: on one line without blanks, or one member a line,
indented. Members keep the order they are given in. -/

namespace TreeQuery.Json

inductive Value where
  | null
  | boolean (value : Bool)
  | string (text : String)
  | list (items : List Value)
  | object (members : List (String × Value))
deriving Repr

/-- A character between quotes. Controls without a short form are written by their number. -/
def escaped : Char → List Char
  | '"' => ['\\', '"']
  | '\\' => ['\\', '\\']
  | '\n' => ['\\', 'n']
  | '\r' => ['\\', 'r']
  | '\t' => ['\\', 't']
  | '\x08' => ['\\', 'b']
  | '\x0c' => ['\\', 'f']
  | c =>
    if c.toNat < 0x20 then
      ['\\', 'u', '0', '0', (c.toNat / 16).digitChar, (c.toNat % 16).digitChar]
    else [c]

def quotedText (text : String) : String :=
  String.ofList ('"' :: (text.toList.flatMap escaped ++ ['"']))

namespace Value

def strings (texts : List String) : Value := list (texts.map string)

def ofOption {α : Type} (f : α → Value) : Option α → Value
  | some a => f a
  | none => null

mutual

def compact : Value → String
  | list items => "[" ++ ",".intercalate (compactItems items) ++ "]"
  | object members => "\x7b" ++ ",".intercalate (compactMembers members) ++ "\x7d"
  | null => "null"
  | boolean value => if value then "true" else "false"
  | string text => quotedText text

def compactItems : List Value → List String
  | [] => []
  | item :: rest => item.compact :: compactItems rest

def compactMembers : List (String × Value) → List String
  | [] => []
  | (name, value) :: rest => (quotedText name ++ ":" ++ value.compact) :: compactMembers rest

end

def indentation (depth : Nat) : String := String.ofList (List.replicate (2 * depth) ' ')

def enclosed (depth : Nat) (opener closer : String) (parts : List String) : String :=
  if parts.isEmpty then opener ++ closer
  else
    let lines := parts.map fun part => "\n" ++ indentation (depth + 1) ++ part
    opener ++ ",".intercalate lines ++ "\n" ++ indentation depth ++ closer

mutual

/-- The value over several lines, its first line placed by the caller. -/
def pretty (depth : Nat) : Value → String
  | list items => enclosed depth "[" "]" (prettyItems (depth + 1) items)
  | object members => enclosed depth "\x7b" "\x7d" (prettyMembers (depth + 1) members)
  | null => "null"
  | boolean value => if value then "true" else "false"
  | string text => quotedText text

def prettyItems (depth : Nat) : List Value → List String
  | [] => []
  | item :: rest => item.pretty depth :: prettyItems depth rest

def prettyMembers (depth : Nat) : List (String × Value) → List String
  | [] => []
  | (name, value) :: rest => (quotedText name ++ ": " ++ value.pretty depth) :: prettyMembers depth rest

end

def write (isCompact : Bool) (value : Value) : String :=
  if isCompact then value.compact else value.pretty 0

end Value

end TreeQuery.Json
