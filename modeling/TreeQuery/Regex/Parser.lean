import TreeQuery.Regex.Class

/-! Regular expressions: groups, alternatives and repetitions. An expression is read to its
end before its nesting is looked at. -/

namespace TreeQuery.Regex
open Text (Span isBlank isAlphabetic isNumeric)

structure Level where
  start : Nat
  branches : List Tree
  branchStart : Nat
  parts : List Tree
deriving Repr

namespace Level

def startingAt (offset : Nat) : Level := ⟨offset, [], offset, []⟩

def add (level : Level) (part : Tree) : Level := { level with parts := part :: level.parts }

def lastBranch (level : Level) (stop : Nat) : Tree :=
  .ofList ⟨level.branchStart, stop⟩ level.parts.reverse

def divide (level : Level) (bar : Nat) : Level :=
  ⟨level.start, level.lastBranch bar :: level.branches, bar + 1, []⟩

def tree (level : Level) (stop : Nat) : Tree :=
  if level.branches.isEmpty then level.lastBranch stop
  else .alternation ⟨level.start, stop⟩ (level.lastBranch stop :: level.branches).reverse

end Level

structure OpenGroup where
  parenthesis : Span
  /-- Whether blanks are skipped around the group. -/
  verbose : Bool
  outside : Level
deriving Repr

/-- How a group begins, and whether it changes the skipping of blanks: flags that stand by
themselves, or the head of a group. -/
inductive Opening where
  | flags (span : Span) (verbose : Option Bool)
  | group (parenthesis : Span) (verbose : Option Bool)
deriving Repr

def startsName (c : Char) : Bool := c = '_' || isAlphabetic c

def continuesName (c : Char) : Bool :=
  c = '_' || c = '.' || c = '[' || c = ']' || isAlphabetic c || isNumeric c

def longestName : List Char → List Char
  | [] => []
  | c :: rest => if startsName c then c :: rest.takeWhile continuesName else []

def flagLetters : List Char := ['i', 'm', 's', 'U', 'u', 'R', 'x']

def verboseBy (flags : List Char) : Option Bool :=
  if flags.contains 'x' then some (!(flags.takeWhile (· ≠ 'x')).contains '-') else none

namespace Reading

def groupName : Reading Unit := do
  let start ← offset
  let letters := longestName (← get).rest
  moveTo ((← get).rest.drop letters.length)
  let span := ⟨start, ← offset⟩
  match ← peek with
  | none => failHere .nameUnclosed
  | some '>' =>
    take
    if letters.isEmpty then fail span .nameEmpty
    let name := String.ofList letters
    if (← get).names.contains name then fail span .nameDuplicate
    modify fun place => { place with names := name :: place.names }
  | some _ => failAtChar .nameInvalid

/-- Flags up to a colon or a parenthesis, which is left. Every step takes a character. -/
def flags : (steps : Nat) → (read : List Char) → Reading (List Char)
  | 0, _ => failHere .flagUnfinished
  | steps + 1, read => do
    match ← peek with
    | none => failHere .flagUnfinished
    | some c =>
      if c = ':' || c = ')' then
        if read.getLast? = some '-' then failFrom ((← offset) - 1) .flagDangling
        return read
      if c ≠ '-' && !flagLetters.contains c then failAtChar .flagUnrecognized
      if read.contains c then failAtChar (if c = '-' then .flagNegatedTwice else .flagDuplicate)
      take
      flags steps (read ++ [c])

def opening : Reading Opening := do
  let parenthesis ← charSpan
  discard next
  let inside ← offset
  if ← takeIf "?=" <||> takeIf "?!" <||> takeIf "?<=" <||> takeIf "?<!" then
    failFrom parenthesis.start .lookaround
  if ← takeIf "?P<" <||> takeIf "?<" then
    groupName
    return .group parenthesis none
  if !(← takeIf "?") then return .group parenthesis none
  if (← peek).isNone then fail parenthesis .groupUnclosed
  let read ← flags ((← get).rest.length + 1) []
  let isClosed := (← peek) = some ')'
  take
  if !isClosed then return .group parenthesis (verboseBy read)
  if read.isEmpty then fail ⟨inside, inside⟩ .repetitionMissing
  return .flags ⟨parenthesis.start, ← offset⟩ (verboseBy read)

def setVerbose (verbose : Option Bool) : Reading Unit :=
  modify fun place => { place with verbose := verbose.getD place.verbose }

def repeatable (level : Level) : Reading (Tree × List Tree) :=
  match level.parts with
  | part :: before => if part.isRepeatable then return (part, before) else failHere .repetitionMissing
  | [] => failHere .repetitionMissing

def addRepetition (level : Level) (part : Tree) (before : List Tree) : Reading Level := do
  return { level with parts := .repetition ⟨part.span.start, ← offset⟩ part :: before }

/-- `?`, `*` and `+`, which a `?` makes lazy. -/
def operator (level : Level) : Reading Level := do
  let (part, before) ← repeatable level
  take
  discard (takeIf "?")
  addRepetition level part before

def takeBlanks : Reading Unit := do moveTo ((← get).rest.dropWhile isBlank)

/-- A number of repetitions. A fault is given back, as another one may come before it. -/
def count : Reading (Except Fault Nat) := do
  takeBlanks
  let start ← offset
  let digits ← takeRun Char.isDigit
  let span := ⟨start, ← offset⟩
  takeBlanks
  let number := digits.foldl (fun number c => 10 * number + (c.toNat - 48)) 0
  return if digits.isEmpty then .error ⟨span, .countEmpty⟩
    else if number < Nat.pow 2 32 then .ok number
    else .error ⟨span, .decimalInvalid⟩

/-- Counts in braces: `{n}`, `{n,}` and `{n,m}`. -/
def countedOperator (level : Level) : Reading Level := do
  let (part, before) ← repeatable level
  let start ← offset
  if (← next).isNone then failFrom start .countUnclosed
  let least ← count
  let isReversed ← match ← peek with
    | none => failFrom start .countUnclosed
    | some ',' =>
      match ← next with
      | none => failFrom start .countUnclosed
      | some '\x7d' => (fun _ => false) <$> (liftM least : Reading Nat)
      | some _ =>
        let least ← (liftM least : Reading Nat)
        let most ← count
        (fun most => most < least) <$> (liftM most : Reading Nat)
    | some _ => (fun _ => false) <$> (liftM least : Reading Nat)
  if (← peek) ≠ some '\x7d' then failFrom start .countUnclosed
  if (← next) = some '?' then take
  if isReversed then failFrom start .countReversed
  addRepetition level part before

def part (c : Char) : Reading Tree := do
  let primitive ← if c = '\\' then escape else literal c
  return .atom primitive.span

/-- The rest of an expression from inside some groups. Every step takes a character. -/
def rest : (steps : Nat) → Level → (around : List OpenGroup) → Reading Tree
  | 0, level, _ => return level.tree (← offset)
  | steps + 1, level, around => do
    skip
    match ← peek with
    | none =>
      match around with
      | [] => return level.tree (← offset)
      | group :: _ => fail group.parenthesis .groupUnclosed
    | some '(' =>
      let verbose := (← get).verbose
      match ← opening with
      | .flags span change =>
        setVerbose change
        rest steps (level.add (.flags span)) around
      | .group parenthesis change =>
        setVerbose change
        rest steps (.startingAt (← offset)) (⟨parenthesis, verbose, level⟩ :: around)
    | some ')' =>
      match around with
      | [] => failAtChar .groupUnopened
      | group :: around =>
        let inner := level.tree (← offset)
        take
        setVerbose (some group.verbose)
        rest steps (group.outside.add (.group ⟨group.parenthesis.start, ← offset⟩ inner)) around
    | some '|' =>
      let bar ← offset
      take
      rest steps (level.divide bar) around
    | some '[' => rest steps (level.add (← bracketedClass)) around
    | some '\x7b' => rest steps (← countedOperator level) around
    | some c =>
      if c = '?' || c = '*' || c = '+' then rest steps (← operator level) around
      else rest steps (level.add (← part c)) around

end Reading

def nestLimit : Nat := 250

def parse (pattern : String) : Except Fault Tree :=
  let text := pattern.toList
  match (Reading.rest (text.length + 1) (.startingAt 0) []).run ⟨0, text, false, []⟩ with
  | .error fault => .error fault
  | .ok (tree, _) =>
    match tree.tooDeep? nestLimit with
    | some span => .error ⟨span, .nestedTooDeep nestLimit⟩
    | none => .ok tree

def fault? (pattern : String) : Option Fault :=
  match parse pattern with
  | .ok _ => none
  | .error fault => some fault

end TreeQuery.Regex
