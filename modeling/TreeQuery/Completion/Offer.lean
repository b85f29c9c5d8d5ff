import TreeQuery.Completion.Context
import TreeQuery.Completion.Pool
import TreeQuery.Syntax.CaptureIndex

/-! The items offered in a context. Where the kind, the parent or the field of the context is
known to the grammar, only what fits it is offered; otherwise everything is. -/

namespace TreeQuery.Completion
open Grammar Syntax

/-- The capture names of a document. The one being typed is left out unless it stands
elsewhere too. -/
def captureNames (captures : Option CaptureIndex) (typing : Option String) : List Item :=
  match captures with
  | none => []
  | some index =>
    (index.names.filter fun name => some name ≠ typing || 1 < index.count name).map (.plain .capture)

def everything (pools : Pools) (captures : Option CaptureIndex) : List Item :=
  let side (wrapped : Bool) :=
    pools.nodes.items wrapped ++ pools.fields.items wrapped ++ pools.literals.items wrapped ++
      pools.builtins.items wrapped
  side true ++ side false ++ captureNames captures none

def overlaps (env : Environment) (name : String) (kinds : List String) : Bool :=
  (env.supertypes.get? name).any (·.members.names.any kinds.contains)

def isExtra (env : Environment) (name : String) : Bool := (env.kinds.get? name).any (·.flags.extra)

def literalsWithin (pools : Pools) (wrapped : Bool) (types : FlatTypes) : List Item :=
  pools.literals.itemsWhere wrapped types.literals.contains

/-- Node names allowed under a kind or for a supertype; where they stand by themselves, also
literals. -/
def nodesWithin (env : Environment) (pools : Pools) (wrapped : Bool) (enclosing : Option String) : List Item :=
  let nodes :=
    match enclosing.bind env.kinds.get? with
    | some kind =>
      pools.nodes.itemsWhere wrapped (fun name =>
        kind.types.names.contains name || isExtra env name || overlaps env name kind.types.names) ++
      (if wrapped then literalsWithin pools true kind.types else [])
    | none =>
      match enclosing.bind env.supertypes.get? with
      | some supertype => pools.nodes.itemsWhere wrapped supertype.members.names.contains
      | none => pools.nodes.items wrapped ++ (if wrapped then pools.literals.items true else [])
  nodes ++ pools.builtins.items wrapped

/-- The parent's own declaration of a field, else the union of all. -/
def declaredField? (env : Environment) (field : String) (parent : Option String) : Option Subnode :=
  ((parent.bind env.kinds.get?).bind (·.fields.get? field)).or (env.fields.get? field)

def fieldValues (env : Environment) (pools : Pools) (wrapped : Bool) (field : String)
    (parent : Option String) : List Item :=
  match declaredField? env field parent with
  | none => nodesWithin env pools wrapped none
  | some declared =>
    pools.nodes.itemsWhere wrapped (fun name =>
      declared.types.names.contains name || overlaps env name declared.types.names) ++
    (if wrapped then literalsWithin pools true declared.types else []) ++
    pools.builtins.items wrapped

def fieldNames (env : Environment) (pools : Pools) (wrapped : Bool) (parent : Option String) : List Item :=
  match parent.bind env.kinds.get? with
  | some kind => pools.fields.itemsWhere wrapped kind.fields.contains
  | none => pools.fields.items wrapped

def stringContents (env : Environment) (pools : Pools) (parent field : Option String) : List Item :=
  match field.bind (declaredField? env · parent) with
  | some declared => literalsWithin pools false declared.types
  | none =>
    match parent.bind env.kinds.get? with
    | some kind => literalsWithin pools false kind.types
    | none => pools.literals.items false

def offer (env : Environment) (pools : Pools) (captures : Option CaptureIndex) : Context → List Item
  | .none => []
  | .unhandled => everything pools captures
  | .capture identifier => captureNames captures identifier
  | .node wrapped enclosing | .child wrapped enclosing => nodesWithin env pools wrapped enclosing
  | .fieldValue wrapped field parent => fieldValues env pools wrapped field parent
  | .fieldName wrapped parent => fieldNames env pools wrapped parent
  | .negatedField parent => fieldNames env pools false parent
  | .stringContent parent field => stringContents env pools parent field

end TreeQuery.Completion
