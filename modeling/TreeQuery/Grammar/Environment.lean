import TreeQuery.Grammar.Flattening

/-! What a grammar lets a query say: its kinds, supertypes, fields and literals, with all
supertypes resolved. Built once from a description; empty before any is loaded. -/

namespace TreeQuery.Grammar

structure Subnode where
  multiple : Bool
  required : Bool
  types : FlatTypes
deriving Repr, DecidableEq

namespace Subnode

def ofSlot (kinds : List Declaration) (slot : Slot) : Subnode :=
  ⟨slot.multiple, slot.required, flatten kinds slot.types⟩

/-- The union of two declarations of one field: it may hold many if either may, and is
required if both are. -/
def merge (a b : Subnode) : Subnode :=
  ⟨a.multiple || b.multiple, a.required && b.required, a.types.extend b.types⟩

end Subnode

structure NamedKind where
  name : String
  /-- The union of the children and of every field. -/
  types : FlatTypes
  fields : Registry Subnode
  children : Option Subnode
  flags : Flags
deriving Repr, DecidableEq

namespace NamedKind

def leaf (name : String) (flags : Flags) : NamedKind := ⟨name, .empty, .empty, none, flags⟩

def branch (kinds : List Declaration) (name : String) (fields : Registry Slot) (children : Option Slot)
    (flags : Flags) : NamedKind :=
  let fields := fields.mapValues (.ofSlot kinds)
  let children := children.map (.ofSlot kinds)
  let types := (fields.values ++ children.toList).foldl (fun types slot => types.extend slot.types) .empty
  ⟨name, types, fields, children, flags⟩

def acceptsSubnodes (kind : NamedKind) : Bool := kind.children.isSome || !kind.fields.isEmpty

end NamedKind

structure Supertype where
  name : String
  members : FlatTypes
  flags : Flags
deriving Repr, DecidableEq

structure Environment where
  literals : List String
  kinds : Registry NamedKind
  /-- Each field name with the union of all its declarations. -/
  fields : Registry Subnode
  supertypes : Registry Supertype
deriving Repr, DecidableEq

namespace Environment

def empty : Environment := ⟨[], .empty, .empty, .empty⟩

instance : Inhabited Environment := ⟨empty⟩

/-- Takes in one declaration. A name declared again is declared anew. -/
def declare (kinds : List Declaration) (env : Environment) : Declaration → Environment
  | .literal value _ => { env with literals := addNew env.literals value }
  | .leaf name flags => { env with kinds := env.kinds.insert name (.leaf name flags) }
  | .branch name fields children flags =>
    { env with kinds := env.kinds.insert name (.branch kinds name fields children flags) }
  | .supertype name subtypes flags =>
    { env with supertypes := env.supertypes.insert name ⟨name, flattenSupertype kinds name subtypes, flags⟩ }

def mergeField (fields : Registry Subnode) (field : String × Subnode) : Registry Subnode :=
  fields.alter field.1 fun
    | none => field.2
    | some before => before.merge field.2

def unionOfFields (kinds : List NamedKind) : Registry Subnode :=
  (kinds.flatMap (·.fields.entries)).foldl mergeField .empty

def ofDeclarations (kinds : List Declaration) : Environment :=
  let env := kinds.foldl (declare kinds) .empty
  { env with fields := unionOfFields env.kinds.values }

/-- The environment of a description, the empty one if that is refused. -/
def ofText (source : String) : Environment :=
  match declarations source with
  | .ok kinds => ofDeclarations kinds
  | .error _ => empty

def isEmpty (env : Environment) : Bool := env.kinds.isEmpty && env.literals.isEmpty

/-- Every name that can stand for a node: concrete kinds, then supertypes. -/
def kindNames (env : Environment) : List String := env.kinds.names ++ env.supertypes.names

end Environment

end TreeQuery.Grammar
