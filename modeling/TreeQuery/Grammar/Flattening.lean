import TreeQuery.Grammar.Descriptor

/-! Resolving supertypes. A list of references is replaced by the concrete kinds and literals
that it stands for: every supertype by its subtypes, breadth first, each supertype once. A
bound on the steps of one expansion cuts off extreme descriptions. -/

namespace TreeQuery.Grammar

def addNew (texts : List String) (text : String) : List String :=
  if texts.contains text then texts else texts ++ [text]

/-- Concrete kind names and literals, each once, in the order in which they were found. -/
structure FlatTypes where
  names : List String
  literals : List String
deriving Repr, DecidableEq

namespace FlatTypes

def empty : FlatTypes := ⟨[], []⟩

instance : Inhabited FlatTypes := ⟨empty⟩

def isEmpty (types : FlatTypes) : Bool := types.names.isEmpty && types.literals.isEmpty

def addName (types : FlatTypes) (name : String) : FlatTypes :=
  { types with names := addNew types.names name }

def addLiteral (types : FlatTypes) (value : String) : FlatTypes :=
  { types with literals := addNew types.literals value }

def extend (types more : FlatTypes) : FlatTypes :=
  ⟨more.names.foldl addNew types.names, more.literals.foldl addNew types.literals⟩

end FlatTypes

/-- The subtypes that a name declares. Of several declarations the last holds. -/
def subtypes? (kinds : List Declaration) (name : String) : Option (List Stub) :=
  kinds.reverse.findSome? fun
    | .supertype declared subtypes _ => if declared = name then some subtypes else none
    | _ => none

/-- References processed at most in one expansion. -/
def expansionLimit : Nat := 500

structure Expansion where
  expanded : List String
  waiting : List Stub
  found : FlatTypes
deriving Repr, DecidableEq

namespace Expansion

def step (kinds : List Declaration) (state : Expansion) : Expansion :=
  match state.waiting with
  | [] => state
  | .literal value :: waiting => { state with waiting, found := state.found.addLiteral value }
  | .named name :: waiting =>
    match subtypes? kinds name with
    | none => { state with waiting, found := state.found.addName name }
    | some subtypes =>
      if state.expanded.contains name then { state with waiting }
      else { state with expanded := name :: state.expanded, waiting := waiting ++ subtypes }

def run (kinds : List Declaration) : (steps : Nat) → Expansion → Expansion
  | 0, state => state
  | steps + 1, state => if state.waiting.isEmpty then state else run kinds steps (step kinds state)

end Expansion

/-- A supertype resolved as far as the limit lets it, added to what was found before. -/
def expansion (kinds : List Declaration) (name : String) (subtypes : List Stub) (found : FlatTypes) : Expansion :=
  Expansion.run kinds expansionLimit ⟨[name], subtypes, found⟩

def expandSupertype (kinds : List Declaration) (name : String) (subtypes : List Stub)
    (found : FlatTypes) : FlatTypes :=
  (expansion kinds name subtypes found).found

def flattenStub (kinds : List Declaration) (found : FlatTypes) : Stub → FlatTypes
  | .literal value => found.addLiteral value
  | .named name =>
    match subtypes? kinds name with
    | none => found.addName name
    | some subtypes => expandSupertype kinds name subtypes found

def flatten (kinds : List Declaration) (stubs : List Stub) : FlatTypes :=
  stubs.foldl (flattenStub kinds) .empty

def flattenSupertype (kinds : List Declaration) (name : String) (subtypes : List Stub) : FlatTypes :=
  expandSupertype kinds name subtypes .empty

end TreeQuery.Grammar
