import TreeQuery.Text.Span

/-! Regular expressions as trees. What a single character stands for is not kept: a tree
says where its parts stand and how they nest. -/

namespace TreeQuery.Regex
open Text (Span)

inductive ClassSet where
  | empty (span : Span)
  | member (span : Span)
  | bracketed (span : Span) (set : ClassSet)
  | union (span : Span) (sets : List ClassSet)
  | combined (span : Span) (left right : ClassSet)
deriving Repr

inductive Tree where
  | empty (span : Span)
  /-- Flags that hold for the rest of the group, as `(?i)`. -/
  | flags (span : Span)
  | atom (span : Span)
  | bracketed (span : Span) (set : ClassSet)
  | repetition (span : Span) (inner : Tree)
  | group (span : Span) (inner : Tree)
  | sequence (span : Span) (parts : List Tree)
  | alternation (span : Span) (branches : List Tree)
deriving Repr

namespace ClassSet

def span : ClassSet → Span
  | empty span | member span | bracketed span _ | union span _ | combined span _ _ => span

/-- Several members as one set. `place` is where the set would stand if there are none. -/
def ofList (place : Span) : List ClassSet → ClassSet
  | [] => empty place
  | [set] => set
  | first :: rest => union ⟨first.span.start, (rest.getLast?.getD first).span.stop⟩ (first :: rest)

mutual

def tooDeep? (room : Nat) : ClassSet → Option Span
  | empty _ | member _ => none
  | bracketed span set => match room with
    | 0 => some span
    | room + 1 => set.tooDeep? room
  | union span sets => match room with
    | 0 => some span
    | room + 1 => tooDeepIn? room sets
  | combined span left right => match room with
    | 0 => some span
    | room + 1 => (left.tooDeep? room).or (right.tooDeep? room)

def tooDeepIn? (room : Nat) : List ClassSet → Option Span
  | [] => none
  | set :: rest => (set.tooDeep? room).or (tooDeepIn? room rest)

end

end ClassSet

namespace Tree

def span : Tree → Span
  | empty span | flags span | atom span | bracketed span _ | repetition span _ | group span _
  | sequence span _ | alternation span _ => span

def isRepeatable : Tree → Bool
  | empty _ | flags _ => false
  | _ => true

def ofList (span : Span) : List Tree → Tree
  | [] => empty span
  | [tree] => tree
  | trees => sequence span trees

mutual

/-- The first part that nests more than `room` deep. -/
def tooDeep? (room : Nat) : Tree → Option Span
  | empty _ | flags _ | atom _ => none
  | bracketed span set => match room with
    | 0 => some span
    | room + 1 => set.tooDeep? room
  | repetition span inner | group span inner => match room with
    | 0 => some span
    | room + 1 => inner.tooDeep? room
  | sequence span trees | alternation span trees => match room with
    | 0 => some span
    | room + 1 => tooDeepIn? room trees

def tooDeepIn? (room : Nat) : List Tree → Option Span
  | [] => none
  | tree :: rest => (tree.tooDeep? room).or (tooDeepIn? room rest)

end

end Tree

end TreeQuery.Regex
