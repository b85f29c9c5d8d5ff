import TreeQuery.Regex.Reading

/-! Escapes and other parts of a regular expression that stand for themselves. -/

namespace TreeQuery.Regex
open Text (Span)

namespace Reading

inductive Primitive where
  | literal (span : Span) (code : Nat)
  | named (span : Span)
  | assertion (span : Span)
deriving Repr, DecidableEq

def Primitive.span : Primitive → Span
  | literal span _ | named span | assertion span => span

def hexValue? (c : Char) : Option Nat :=
  if '0' ≤ c && c ≤ '9' then some (c.toNat - 48)
  else if 'a' ≤ c && c ≤ 'f' then some (c.toNat - 87)
  else if 'A' ≤ c && c ≤ 'F' then some (c.toNat - 55)
  else none

def isHexDigit (c : Char) : Bool := (hexValue? c).isSome

def hexNumber (digits : List Char) : Nat :=
  digits.foldl (fun number c => 16 * number + (hexValue? c).getD 0) 0

def hexCharacter (start stop : Nat) (digits : List Char) : Reading Nat :=
  if (hexNumber digits).isValidChar then return hexNumber digits else fail ⟨start, stop⟩ .hexInvalid

def takeHexDigits : Nat → Reading (List Char)
  | 0 => return []
  | count + 1 => do
    match ← peek with
    | none => failHere .escapeUnfinished
    | some c =>
      if !isHexDigit c then failAtChar .hexDigit
      discard next
      return c :: (← takeHexDigits count)

/-- Hexadecimal digits between braces, or as many of them as are due without. -/
def hexLiteral (due : Nat) : Reading Nat := do
  match ← next with
  | none => failHere .escapeUnfinished
  | some '\x7b' =>
    let brace ← offset
    discard next
    let digits ← takeRun isHexDigit
    match ← peek with
    | none => failFrom brace .escapeUnfinished
    | some '\x7d' =>
      let stop ← offset
      discard next
      if digits.isEmpty then failFrom brace .hexEmpty
      hexCharacter (brace + 1) stop digits
    | some _ => failAtChar .hexDigit
  | some _ =>
    let start ← offset
    let digits ← takeHexDigits due
    hexCharacter start (← offset) digits

def classNameOf : Reading Unit := do
  match ← next with
  | none => failHere .escapeUnfinished
  | some '\x7b' =>
    discard next
    discard (takeRun (· ≠ '\x7d'))
    if (← peek).isNone then failHere .escapeUnfinished
    take
  | some '\\' => failAtChar .classNameInvalid
  | some _ => discard next

def boundaryNames : List String := ["start", "end", "start-half", "end-half"]

def isBoundaryLetter (c : Char) : Bool :=
  ('A' ≤ c && c ≤ 'Z') || ('a' ≤ c && c ≤ 'z') || c = '-'

/-- The braces that may follow an escape for a word boundary, which began at `start`. Braces
without a name are left: they hold a count. -/
def boundaryKind (start : Nat) : Reading Unit := do
  let before ← get
  match ← next with
  | none => failFrom start .boundaryUnfinished
  | some c =>
    if !isBoundaryLetter c then set before
    else
      let first ← offset
      let letters ← takeRun isBoundaryLetter
      if (← peek) ≠ some '\x7d' then failFrom before.offset .boundaryUnclosed
      let stop ← offset
      take
      if !boundaryNames.contains (String.ofList letters) then fail ⟨first, stop⟩ .boundaryUnrecognized

def metaCharacters : List Char :=
  ['\\', '.', '+', '*', '?', '(', ')', '|', '[', ']', '\x7b', '\x7d', '^', '$', '#', '&', '-', '~']

def isEscapable (c : Char) : Bool :=
  metaCharacters.contains c ||
    (c.toNat < 128 && !c.isAlphanum && c ≠ '<' && c ≠ '>')

def controlOf? : Char → Option Nat
  | 'a' => some 7
  | 'f' => some 12
  | 't' => some 9
  | 'n' => some 10
  | 'r' => some 13
  | 'v' => some 11
  | _ => none

def escape : Reading Primitive := do
  let start ← offset
  take
  let spanHere : Reading Span := return ⟨start, ← offset⟩
  match ← peek with
  | none => failFrom start .escapeUnfinished
  | some c =>
    if c.isDigit then fail ⟨start, (← charSpan).stop⟩ .backreference
    match c with
    | 'x' => let code ← hexLiteral 2; return .literal (← spanHere) code
    | 'u' => let code ← hexLiteral 4; return .literal (← spanHere) code
    | 'U' => let code ← hexLiteral 8; return .literal (← spanHere) code
    | 'p' | 'P' => classNameOf; return .named (← spanHere)
    | _ =>
      take
      if isEscapable c then return .literal (← spanHere) c.toNat
      if let some code := controlOf? c then return .literal (← spanHere) code
      match c with
      | 'd' | 's' | 'w' | 'D' | 'S' | 'W' => return .named (← spanHere)
      | 'A' | 'z' | 'B' | '<' | '>' => return .assertion (← spanHere)
      | 'b' =>
        if (← peek) = some '\x7b' then boundaryKind start
        return .assertion (← spanHere)
      | _ => failFrom start .escapeUnrecognized

def literal (c : Char) : Reading Primitive := do
  let span ← charSpan
  take
  return .literal span c.toNat

end Reading

end TreeQuery.Regex
