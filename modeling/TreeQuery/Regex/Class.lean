import TreeQuery.Regex.Escape
import TreeQuery.Regex.Tree

/-! Bracketed classes. They nest, and inside one `&&`, `--` and `~~` combine what stands to
their left with what follows. -/

namespace TreeQuery.Regex
open Text (Span isBlank)

structure OpenClass where
  /-- The bracket with what follows it directly: `^`, hyphens or a `]`. -/
  head : Span
  left : Option ClassSet
  start : Nat
  members : List ClassSet
deriving Repr

namespace OpenClass

def add (cls : OpenClass) (member : ClassSet) : OpenClass := { cls with members := member :: cls.members }

def set (cls : OpenClass) : ClassSet :=
  let right := ClassSet.ofList ⟨cls.start, cls.start⟩ cls.members.reverse
  match cls.left with
  | none => right
  | some left => .combined ⟨left.span.start, right.span.stop⟩ left right

def combine (cls : OpenClass) (offset : Nat) : OpenClass :=
  { cls with left := some cls.set, start := offset, members := [] }

end OpenClass

def asciiClassNames : List String :=
  ["alnum", "alpha", "ascii", "blank", "cntrl", "digit", "graph", "lower", "print", "punct", "space",
   "upper", "word", "xdigit"]

/-- What is left after a class with a name, as `[:alpha:]` or `[:^alpha:]`. -/
def afterNamedClass? : List Char → Option (List Char)
  | '[' :: ':' :: text =>
    let text := if text.head? = some '^' then text.tail else text
    let name := text.takeWhile (· ≠ ':')
    match text.drop name.length with
    | ':' :: ']' :: rest => if asciiClassNames.contains (String.ofList name) then some rest else none
    | _ => none
  | _ => none

/-- What comes after a hyphen. Under the flag `x`, blanks and a single `#` are looked past if
there is something behind them. -/
def afterHyphen? (place : Place) : Option Char :=
  let text := place.rest.tail
  if place.verbose then
    let beyond := text.dropWhile isBlank
    let beyond := if beyond.head? = some '#' then beyond.tail.dropWhile isBlank else beyond
    beyond.head?.or text.head?
  else text.head?

namespace Reading

/-- Hyphens right behind the bracket stand for themselves. -/
def leadingHyphens (start : Nat) : (steps : Nat) → Reading (List ClassSet)
  | 0 => return []
  | steps + 1 => do
    if (← peek) ≠ some '-' then return []
    let span ← charSpan
    if (← next).isNone then fail ⟨start, start⟩ .classUnclosed
    return .member span :: (← leadingHyphens start steps)

def classHead : Reading OpenClass := do
  let start ← offset
  if (← next).isNone then failFrom start .classUnclosed
  if (← peek) = some '^' then
    if (← next).isNone then failFrom start .classUnclosed
  let first ← offset
  let hyphens ← leadingHyphens start (← get).rest.length
  let mut members := hyphens.reverse
  if hyphens.isEmpty && (← peek) = some ']' then
    members := [.member (← charSpan)]
    if (← next).isNone then failFrom start .classUnclosed
  return ⟨⟨start, ← offset⟩, none, first, members⟩

def classPrimitive (c : Char) : Reading Primitive := if c = '\\' then escape else literal c

def single : Primitive → Reading ClassSet
  | .assertion span => fail span .classEscape
  | .literal span _ | .named span => return .member span

def rangeEnd : Primitive → Reading Nat
  | .literal _ code => return code
  | .named span | .assertion span => fail span .rangeLiteral

def classMember (cls : OpenClass) (c : Char) : Reading ClassSet := do
  let first ← classPrimitive c
  skip
  match ← peek with
  | none => fail cls.head .classUnclosed
  | some '-' =>
    let beyond := afterHyphen? (← get)
    if beyond = some ']' || beyond = some '-' then return ← single first
    match ← next with
    | none => fail cls.head .classUnclosed
    | some d =>
      let last ← classPrimitive d
      let span := ⟨first.span.start, last.span.stop⟩
      let low ← rangeEnd first
      let high ← rangeEnd last
      if high < low then fail span .rangeReversed
      return .member span
  | some _ => single first

def takeOperator : Reading Bool := takeIf "&&" <||> takeIf "--" <||> takeIf "~~"

def namedClass? : Reading (Option ClassSet) := do
  let start ← offset
  match afterNamedClass? (← get).rest with
  | none => return none
  | some rest =>
    moveTo rest
    return some (.member ⟨start, ← offset⟩)

/-- The rest of an open class, and of those around it. Every step takes a character. -/
def classRest : (steps : Nat) → OpenClass → (around : List OpenClass) → Reading Tree
  | 0, cls, _ => fail cls.head .classUnclosed
  | steps + 1, cls, around => do
    skip
    match ← peek with
    | none => fail cls.head .classUnclosed
    | some '[' =>
      match ← namedClass? with
      | some named => classRest steps (cls.add named) around
      | none => classRest steps (← classHead) (cls :: around)
    | some ']' =>
      take
      let span := ⟨cls.head.start, ← offset⟩
      match around with
      | [] => return .bracketed span cls.set
      | outer :: around => classRest steps (outer.add (.bracketed span cls.set)) around
    | some c =>
      if ← takeOperator then classRest steps (cls.combine (← offset)) around
      else classRest steps (cls.add (← classMember cls c)) around

def bracketedClass : Reading Tree := do
  let cls ← classHead
  classRest ((← get).rest.length + 1) cls []

end Reading

end TreeQuery.Regex
