/-! Escapes inside the strings of a query. Reading resolves every escape; writing uses
only those that reading resolves, so that what is written reads back. -/

namespace TreeQuery.Text

/-- The character that stands for itself after a backslash, or the control it names. -/
def escapedChar : Char → Char
  | 'n' => '\n'
  | 't' => '\t'
  | 'r' => '\r'
  | '0' => '\x00'
  | c => c

def unescapeChars : List Char → List Char
  | [] => []
  | ['\\'] => ['\\']
  | '\\' :: c :: rest => escapedChar c :: unescapeChars rest
  | c :: rest => c :: unescapeChars rest

/-- A backslash at the very end stands for itself. -/
def unescape (text : String) : String := String.ofList (unescapeChars text.toList)

def escapeChar : Char → List Char
  | '"' => ['\\', '"']
  | '\\' => ['\\', '\\']
  | '\n' => ['\\', 'n']
  | '\t' => ['\\', 't']
  | '\r' => ['\\', 'r']
  | c => [c]

def quote (literal : String) : String :=
  String.ofList ('"' :: (literal.toList.flatMap escapeChar ++ ['"']))

end TreeQuery.Text
