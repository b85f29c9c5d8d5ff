import TreeQuery.Syntax.Kind
import TreeQuery.Text.Span

/-! Tokens of a query, and how a text is cut into them. At each place the longest token
wins; a stretch where no token begins becomes one token of garbage. The texts of all
tokens, in order, are the text. -/

namespace TreeQuery.Syntax
open Text (Span)

structure Token where
  kind : TokenKind
  text : String
deriving Repr, DecidableEq

namespace Token

/-- Length in bytes. -/
def length (token : Token) : Nat := token.text.utf8ByteSize

def isTrivia (token : Token) : Bool := token.kind.isTrivia

def isLetter (c : Char) : Bool := ('a' ≤ c && c ≤ 'z') || ('A' ≤ c && c ≤ 'Z')

def continuesName (c : Char) : Bool :=
  isLetter c || ('0' ≤ c && c ≤ '9') || c == '_' || c == '.' || c == '-'

def isBlank (c : Char) : Bool := c == ' ' || c == '\t'

def punctuation? : Char → Option TokenKind
  | '(' => some .parenOpen
  | ')' => some .parenClose
  | '[' => some .bracketOpen
  | ']' => some .bracketClose
  | ':' => some .colon
  | '!' => some .bang
  | '.' => some .dot
  | '@' => some .atSign
  | '#' => some .sharp
  | '/' => some .slash
  | '*' => some .star
  | '+' => some .plus
  | '?' => some .question
  | _ => none

/-- Characters of a string after its opening quote, the closing quote included if there is
one. A backslash takes the next character with it; neither may be a line break. -/
def stringLength : List Char → Nat
  | [] => 0
  | ['\\'] => 0
  | '\\' :: c :: rest => if c = '\n' then 0 else stringLength rest + 2
  | c :: rest => if c = '"' then 1 else if c = '\n' then 0 else stringLength rest + 1

/-- The longest token that begins with `c`, and how many of the characters after it belong to it. -/
def longest? (c : Char) (rest : List Char) : Option (TokenKind × Nat) :=
  match punctuation? c with
  | some kind => some (kind, 0)
  | none =>
    let run (continues : Char → Bool) := (rest.takeWhile continues).length
    if c == '_' then
      some (if run continuesName = 0 then (.underscore, 0) else (.identifier, run continuesName))
    else if isLetter c then some (.identifier, run continuesName)
    else if isBlank c then some (.whitespace, run isBlank)
    else if c == '\n' then some (.newline, 0)
    else if c == '\r' && rest.head? == some '\n' then some (.newline, 1)
    else if c == ';' then some (.comment, run (· ≠ '\n'))
    else if c == '"' then some (.stringLiteral, stringLength rest)
    else none

/-- How many characters stand before the next one with which a token begins. -/
def garbageLength : List Char → Nat
  | [] => 0
  | c :: rest => if (longest? c rest).isSome then 0 else garbageLength rest + 1

/-- Cuts a text into tokens, strings left whole. -/
def scan : List Char → List (TokenKind × List Char)
  | [] => []
  | c :: rest =>
    let (kind, more) := (longest? c rest).getD (.garbage, garbageLength rest)
    (kind, c :: rest.take more) :: scan (rest.drop more)
termination_by text => text.length
decreasing_by simp only [List.length_drop, List.length_cons]; omega

/-- Whether a scanned string, its opening quote left out, ends in a quote of its own and not
in an escaped one. -/
def isClosed (body : List Char) : Bool :=
  body.getLast? == some '"' && (body.dropLast.reverse.takeWhile (· == '\\')).length % 2 == 0

def quoteMark : Token := ⟨.doubleQuote, "\""⟩

def contentTokens (content : List Char) : List Token :=
  if content.isEmpty then [] else [⟨.stringContent, String.ofList content⟩]

def splitString (body : List Char) : List Token :=
  quoteMark :: if isClosed body then contentTokens body.dropLast ++ [quoteMark] else contentTokens body

def ofScanned : TokenKind × List Char → List Token
  | (.stringLiteral, text) => splitString text.tail
  | (kind, text) => [⟨kind, String.ofList text⟩]

def ofText (text : String) : List Token := (scan text.toList).flatMap ofScanned

end Token

def spanned (start : Nat) : List Token → List (Token × Span)
  | [] => []
  | token :: rest => (token, ⟨start, start + token.length⟩) :: spanned (start + token.length) rest

end TreeQuery.Syntax
