import TreeQuery.Json.Problem
import TreeQuery.Text.LineIndex

/-! Reading JSON from left to right, for values that are wanted in a certain form. The first
problem ends the reading. One that concerns a whole object or array is placed where that
ends. -/

namespace TreeQuery.Json

structure Input where
  offset : Nat
  rest : List Char
deriving Repr, DecidableEq

namespace Input

def ofText (text : String) : Input := ⟨0, text.toList⟩

/-- One byte further than what has been read, unless nothing is left. -/
def nextOffset (input : Input) : Nat := if input.rest.isEmpty then input.offset else input.offset + 1

def tail (input : Input) : Input :=
  match input.rest with
  | [] => input
  | c :: rest => ⟨input.offset + c.utf8Size, rest⟩

def isBlank (c : Char) : Bool := c == ' ' || c == '\n' || c == '\t' || c == '\r'

def skipBlank (input : Input) : Input :=
  ⟨input.offset + (input.rest.takeWhile isBlank).length, input.rest.dropWhile isBlank⟩

def skipDigits (input : Input) : Input :=
  ⟨input.offset + (input.rest.takeWhile Char.isDigit).length, input.rest.dropWhile Char.isDigit⟩

end Input

inductive Outcome (α : Type) where
  | done (value : α) (next : Input)
  | failed (fault : Fault)
  /-- A problem of the construct being read, which is still to be placed. -/
  | unplaced (problem : Problem) (next : Input)

def Reader (α : Type) := Input → Outcome α

namespace Reader

protected def pure {α : Type} (value : α) : Reader α := fun input => .done value input

protected def bind {α β : Type} (first : Reader α) (second : α → Reader β) : Reader β := fun input =>
  match first input with
  | .done value next => second value next
  | .failed fault => .failed fault
  | .unplaced problem next => .unplaced problem next

instance : Monad Reader where
  pure := Reader.pure
  bind := Reader.bind

def failHere {α : Type} (problem : Problem) : Reader α := fun input => .failed ⟨problem, input.offset⟩

def failNext {α : Type} (problem : Problem) : Reader α := fun input => .failed ⟨problem, input.nextOffset⟩

def refuse {α : Type} (problem : Problem) : Reader α := fun input => .unplaced problem input

def peek : Reader (Option Char) := fun input => .done input.rest.head? input

def advance : Reader Unit := fun input => .done () input.tail

def peekSolid : Reader (Option Char) := fun input => .done input.skipBlank.rest.head? input.skipBlank

def word : List Char → Reader Unit
  | [] => return
  | wanted :: rest => do
    match ← peek with
    | none => failHere .eofInValue
    | some c =>
      if c = wanted then
        advance
        word rest
      else failNext .expectedIdent

def skipDigits : Reader Unit := fun input => .done () input.skipDigits

def digits : Reader (List Nat) := fun input =>
  .done ((input.rest.takeWhile Char.isDigit).map (·.toNat - '0'.toNat)) input.skipDigits

end Reader

def hexValue? (c : Char) : Option Nat :=
  if c.isDigit then some (c.toNat - '0'.toNat)
  else if 'a' ≤ c && c ≤ 'f' then some (c.toNat - 'a'.toNat + 10)
  else if 'A' ≤ c && c ≤ 'F' then some (c.toNat - 'A'.toNat + 10)
  else none

def hexUnit (offset : Nat) (chars : List Char) : Except Fault Nat :=
  let left := Text.utf8Length (chars.take 4)
  if left < 4 then .error ⟨.eofInString, offset + left⟩
  else match (chars.take 4).mapM hexValue? with
    | some values => .ok (values.foldl (16 * · + ·) 0)
    | none => .error ⟨.invalidEscape, offset + 4⟩

def simpleEscape? : Char → Option Char
  | '"' => some '"'
  | '\\' => some '\\'
  | '/' => some '/'
  | 'b' => some '\x08'
  | 'f' => some '\x0c'
  | 'n' => some '\n'
  | 'r' => some '\r'
  | 't' => some '\t'
  | _ => none

def isHighSurrogate (unit : Nat) : Bool := 0xD800 ≤ unit && unit ≤ 0xDBFF

def isLowSurrogate (unit : Nat) : Bool := 0xDC00 ≤ unit && unit ≤ 0xDFFF

/-- The second half of a pair of escapes: its unit, from what follows the first half. -/
def secondUnit (offset : Nat) : List Char → Except Fault Nat
  | [] => .error ⟨.eofInString, offset⟩
  | '\\' :: [] => .error ⟨.eofInString, offset + 1⟩
  | '\\' :: 'u' :: rest => do
    let unit ← hexUnit (offset + 2) rest
    if isLowSurrogate unit then .ok unit else .error ⟨.loneSurrogate, offset + 6⟩
  | '\\' :: _ => .error ⟨.unpairedSurrogate, offset + 2⟩
  | _ => .error ⟨.unpairedSurrogate, offset + 1⟩

/-- The characters of a string after its opening quote, up to and with its closing quote. -/
def stringFrom (read : List Char) (offset : Nat) : List Char → Outcome String
  | [] => .failed ⟨.eofInString, offset⟩
  | '"' :: rest => .done (String.ofList read.reverse) ⟨offset + 1, rest⟩
  | ['\\'] => .failed ⟨.eofInString, offset + 1⟩
  | '\\' :: 'u' :: rest =>
    match hexUnit (offset + 2) rest with
    | .error fault => .failed fault
    | .ok unit =>
      if isLowSurrogate unit then .failed ⟨.loneSurrogate, offset + 6⟩
      else if isHighSurrogate unit then
        match secondUnit (offset + 6) (rest.drop 4) with
        | .error fault => .failed fault
        | .ok low =>
          let code := (unit - 0xD800) * 0x400 + (low - 0xDC00) + 0x10000
          stringFrom (Char.ofNat code :: read) (offset + 12) (rest.drop 10)
      else stringFrom (Char.ofNat unit :: read) (offset + 6) (rest.drop 4)
  | '\\' :: c :: rest =>
    match simpleEscape? c with
    | some plain => stringFrom (plain :: read) (offset + 2) rest
    | none => .failed ⟨.invalidEscape, offset + 2⟩
  | c :: rest =>
    if c.toNat < 0x20 then .failed ⟨.controlCharacter, offset + 1⟩
    else stringFrom (c :: read) (offset + c.utf8Size) rest
termination_by chars => chars.length
decreasing_by all_goals (simp only [List.length_drop, List.length_cons]; omega)

/-- Passes over the characters of a string after its opening quote. Surrogates need not be
paired where nobody wants the string. -/
def skipStringFrom (offset : Nat) : List Char → Outcome Unit
  | [] => .failed ⟨.eofInString, offset⟩
  | '"' :: rest => .done () ⟨offset + 1, rest⟩
  | ['\\'] => .failed ⟨.eofInString, offset + 1⟩
  | '\\' :: 'u' :: rest =>
    match hexUnit (offset + 2) rest with
    | .error fault => .failed fault
    | .ok _ => skipStringFrom (offset + 6) (rest.drop 4)
  | '\\' :: c :: rest =>
    if (simpleEscape? c).isSome then skipStringFrom (offset + 2) rest
    else .failed ⟨.invalidEscape, offset + 2⟩
  | c :: rest =>
    if c.toNat < 0x20 then .failed ⟨.controlCharacter, offset⟩
    else skipStringFrom (offset + c.utf8Size) rest
termination_by chars => chars.length
decreasing_by all_goals (simp only [List.length_drop, List.length_cons]; omega)

namespace Reader

def stringRest : Reader String := fun input => stringFrom [] input.offset input.rest

def skipStringRest : Reader Unit := fun input => skipStringFrom input.offset input.rest

end Reader

end TreeQuery.Json
