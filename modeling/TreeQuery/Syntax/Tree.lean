import TreeQuery.Syntax.Token
import TreeQuery.Text.Quoted
import TreeQuery.Text.Total

/-! Syntax trees. A tree keeps every token of its text, blank space and comments included,
and knows no positions: a place in a text is a tree together with the offset where it begins. -/

namespace TreeQuery.Syntax
open Text (Span)

inductive Tree where
  | leaf (token : Token)
  | node (kind : NodeKind) (children : List Tree)
deriving Repr

namespace Tree

mutual

def decideEq : (tree other : Tree) → Decidable (tree = other)
  | leaf token, leaf other => decidable_of_iff (token = other) (by simp)
  | node kind children, node other others =>
    have := decideEqOf children others
    decidable_of_iff (kind = other ∧ children = others) (by simp)
  | leaf _, node _ _ => isFalse nofun
  | node _ _, leaf _ => isFalse nofun

def decideEqOf : (trees others : List Tree) → Decidable (trees = others)
  | [], [] => isTrue rfl
  | tree :: rest, other :: others =>
    have := tree.decideEq other
    have := decideEqOf rest others
    decidable_of_iff (tree = other ∧ rest = others) (by simp)
  | [], _ :: _ => isFalse nofun
  | _ :: _, [] => isFalse nofun

end

instance : DecidableEq Tree := decideEq

def kind : Tree → Kind
  | leaf token => .token token.kind
  | node kind _ => .node kind

def children : Tree → List Tree
  | leaf _ => []
  | node _ children => children

mutual

def leaves : Tree → List Token
  | leaf token => [token]
  | node _ children => leavesOf children

def leavesOf : List Tree → List Token
  | [] => []
  | tree :: rest => tree.leaves ++ leavesOf rest

end

def text (tree : Tree) : String := String.join (tree.leaves.map Token.text)

mutual

/-- Length in bytes. -/
def length : Tree → Nat
  | leaf token => token.length
  | node _ children => lengthOf children

def lengthOf : List Tree → Nat
  | [] => 0
  | tree :: rest => tree.length + lengthOf rest

end

mutual

theorem length_eq_total_leaves : (tree : Tree) → tree.length = Text.total Token.length tree.leaves
  | leaf token => by simp [length, leaves]
  | node _ children => by rw [length, leaves, lengthOf_eq_total_leavesOf children]

theorem lengthOf_eq_total_leavesOf : (trees : List Tree) →
    lengthOf trees = Text.total Token.length (leavesOf trees)
  | [] => rfl
  | tree :: rest => by
    rw [lengthOf, leavesOf, Text.total_append, length_eq_total_leaves tree, lengthOf_eq_total_leavesOf rest]

end

mutual

def outlineLines (trivia : Bool) (depth : Nat) : Tree → List String
  | leaf token =>
    if token.isTrivia && !trivia then []
    else [String.ofList (List.replicate (2 * depth) ' ') ++ token.kind.name ++ " " ++ Text.quoted token.text]
  | node kind children =>
    (String.ofList (List.replicate (2 * depth) ' ') ++ kind.name) :: outlineLinesOf trivia (depth + 1) children

def outlineLinesOf (trivia : Bool) (depth : Nat) : List Tree → List String
  | [] => []
  | tree :: rest => tree.outlineLines trivia depth ++ outlineLinesOf trivia depth rest

end

def outline (tree : Tree) (trivia : Bool) : String :=
  String.join ((tree.outlineLines trivia 0).map (· ++ "\n"))

end Tree

/-- A tree at the byte offset where its text begins. -/
structure Placed where
  start : Nat
  tree : Tree
deriving Repr, DecidableEq

namespace Placed

def kind (place : Placed) : Kind := place.tree.kind

def stop (place : Placed) : Nat := place.start + place.tree.length

def span (place : Placed) : Span := ⟨place.start, place.stop⟩

def isNode (place : Placed) (kind : NodeKind) : Bool := place.kind = .node kind

def text (place : Placed) : String := place.tree.text

/-- Trees that stand side by side, the first beginning at `start`. -/
def line (start : Nat) : List Tree → List Placed
  | [] => []
  | tree :: rest => ⟨start, tree⟩ :: line (start + tree.length) rest

def children (place : Placed) : List Placed := line place.start place.tree.children

end Placed

/-- A tree in its surroundings: the nodes above it, the nearest first. -/
structure Site where
  place : Placed
  above : List Placed
deriving Repr, DecidableEq

def Site.isToken (site : Site) : Bool :=
  match site.place.kind with
  | .token _ => true
  | .node _ => false

namespace Tree

mutual

/-- Every tree inside a tree, itself first and children after their parents. -/
def sites (start : Nat) (above : List Placed) : Tree → List Site
  | leaf token => [⟨⟨start, leaf token⟩, above⟩]
  | node kind children =>
    ⟨⟨start, node kind children⟩, above⟩ :: sitesOf start (⟨start, node kind children⟩ :: above) children

def sitesOf (start : Nat) (above : List Placed) : List Tree → List Site
  | [] => []
  | tree :: rest => tree.sites start above ++ sitesOf (start + tree.length) above rest

end

def nodeSites (root : Tree) : List Site := (root.sites 0 []).filter fun site => !site.isToken

def tokenSites (root : Tree) : List Site := (root.sites 0 []).filter Site.isToken

end Tree

end TreeQuery.Syntax
