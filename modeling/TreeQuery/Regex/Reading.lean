import TreeQuery.Regex.Problem
import TreeQuery.Text.CharacterClass
import TreeQuery.Text.LineIndex

/-! Readings of a regular expression. A reading moves a place forward through the characters,
or ends in a fault. Under the flag `x`, blanks and comments between characters are skipped. -/

namespace TreeQuery.Regex
open Text (Span isBlank utf8Length)

structure Place where
  offset : Nat
  rest : List Char
  verbose : Bool
  names : List String
deriving Repr, DecidableEq

/-- What is left after blanks and comments. A comment ends with its line. -/
def afterBlanks (inComment : Bool) : List Char → List Char
  | [] => []
  | c :: rest =>
    if inComment then afterBlanks (c ≠ '\n') rest
    else if c = '#' then afterBlanks true rest
    else if isBlank c then afterBlanks false rest
    else c :: rest

theorem length_afterBlanks_le (inComment : Bool) (text : List Char) :
    (afterBlanks inComment text).length ≤ text.length := by
  induction text generalizing inComment with
  | nil => simp [afterBlanks]
  | cons c rest ih =>
    have skipped := fun flag => Nat.le_succ_of_le (ih flag)
    rw [afterBlanks]
    split
    · exact skipped _
    · split
      · exact skipped _
      · split
        · exact skipped _
        · exact Nat.le_refl _

def skipBlanks (verbose : Bool) (text : List Char) : List Char :=
  if verbose then afterBlanks false text else text

theorem length_skipBlanks_le (verbose : Bool) (text : List Char) :
    (skipBlanks verbose text).length ≤ text.length := by
  unfold skipBlanks
  split
  · exact length_afterBlanks_le _ _
  · exact Nat.le_refl _

/-- Characters that pass a test, blanks between and after them skipped, and what is left. -/
def spacedRun (verbose : Bool) (keep : Char → Bool) : List Char → List Char × List Char
  | [] => ([], [])
  | c :: rest =>
    if keep c then
      let (run, left) := spacedRun verbose keep (skipBlanks verbose rest)
      (c :: run, left)
    else ([], c :: rest)
termination_by text => text.length
decreasing_by exact Nat.lt_succ_of_le (length_skipBlanks_le _ _)

abbrev Reading := StateT Place (Except Fault)

namespace Reading

def offset : Reading Nat := return (← get).offset

def peek : Reading (Option Char) := return (← get).rest.head?

def moveTo (rest : List Char) : Reading Unit :=
  modify fun place =>
    { place with offset := place.offset + (utf8Length place.rest - utf8Length rest), rest }

def take : Reading Unit := do moveTo (← get).rest.tail

def skip : Reading Unit := do
  let place ← get
  moveTo (skipBlanks place.verbose place.rest)

def next : Reading (Option Char) := do
  take
  skip
  peek

def takeIf (text : String) : Reading Bool := do
  let place ← get
  if text.toList.isPrefixOf place.rest then
    moveTo (place.rest.drop text.length)
    return true
  return false

def takeRun (keep : Char → Bool) : Reading (List Char) := do
  let place ← get
  let (run, left) := spacedRun place.verbose keep place.rest
  moveTo left
  return run

def fail {α : Type} (span : Span) (problem : Problem) : Reading α := throw ⟨span, problem⟩

def failFrom {α : Type} (start : Nat) (problem : Problem) : Reading α := do
  fail ⟨start, ← offset⟩ problem

def failHere {α : Type} (problem : Problem) : Reading α := do failFrom (← offset) problem

def charSpan : Reading Span := do
  let start ← offset
  return ⟨start, start + (((← peek).map Char.utf8Size).getD 0)⟩

def failAtChar {α : Type} (problem : Problem) : Reading α := do fail (← charSpan) problem

end Reading

end TreeQuery.Regex
