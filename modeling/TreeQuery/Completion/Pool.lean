import TreeQuery.Grammar.Environment
import TreeQuery.Text.Escape
import TreeQuery.Text.Listing

/-! Completion items, and the pools of them that a grammar gives rise to. Every name has a
bare item and a wrapped one: `identifier` and `(identifier)`, `name` and `name: `, `+` and
`"+"`. -/

namespace TreeQuery.Completion
open Grammar Text

inductive ItemKind where
  | node | field | literal | capture | builtin
deriving Repr, DecidableEq

def ItemKind.name : ItemKind → String
  | node => "node"
  | field => "field"
  | literal => "literal"
  | capture => "capture"
  | builtin => "builtin"

structure Item where
  label : String
  kind : ItemKind
  insertText : Option String
  documentation : Option String
deriving Repr, DecidableEq

namespace Item

def plain (kind : ItemKind) (label : String) : Item := ⟨label, kind, none, none⟩

/-- What ends up in the document when the item is accepted. -/
def text (item : Item) : String := item.insertText.getD item.label

end Item

structure Rendition where
  bare : Item
  wrapped : Item
deriving Repr, DecidableEq

abbrev Pool := Registry Rendition

namespace Pool

def side (wrapped : Bool) (rendition : Rendition) : Item :=
  if wrapped then rendition.wrapped else rendition.bare

def items (pool : Pool) (wrapped : Bool) : List Item := pool.values.map (side wrapped)

def itemsWhere (pool : Pool) (wrapped : Bool) (keep : String → Bool) : List Item :=
  (pool.entries.filter (keep ·.1)).map (side wrapped ·.2)

end Pool

def documentedNames : Nat := 8

def builtinNames : List String := ["_", "ERROR", "MISSING"]

def describeKind (kind : NamedKind) : String :=
  (if kind.fields.isEmpty then "no fields" else "fields: " ++ listing kind.fields.names documentedNames) ++
    (if kind.children.isSome then "; accepts children" else "; no children")

def describeSupertype (supertype : Supertype) : String :=
  "supertype of " ++ listing supertype.members.names documentedNames

def describeField (field : Subnode) : Option String :=
  if field.types.names.isEmpty then none else some ("accepts " ++ listing field.types.names documentedNames)

def parenthesized (name : String) : String := "(" ++ name ++ ")"

def nodeRendition (name documentation : String) : Rendition :=
  ⟨⟨name, .node, none, some documentation⟩, ⟨name, .node, some (parenthesized name), some documentation⟩⟩

def fieldRendition (name : String) (documentation : Option String) : Rendition :=
  ⟨⟨name, .field, none, documentation⟩, ⟨name, .field, some (name ++ ": "), documentation⟩⟩

def literalRendition (value : String) : Rendition :=
  ⟨.plain .literal value, .plain .literal (quote value)⟩

def builtinRendition (name : String) : Rendition :=
  ⟨.plain .builtin name, ⟨name, .builtin, some (parenthesized name), none⟩⟩

def poolOf (entries : List (String × Rendition)) : Pool :=
  entries.foldl (fun pool (name, rendition) => pool.insert name rendition) .empty

structure Pools where
  nodes : Pool
  fields : Pool
  literals : Pool
  builtins : Pool
deriving Repr, DecidableEq

namespace Pools

/-- No items at all, not even the built-in names. -/
def empty : Pools := ⟨.empty, .empty, .empty, .empty⟩

instance : Inhabited Pools := ⟨empty⟩

def ofEnvironment (env : Environment) : Pools where
  nodes := poolOf <|
    env.kinds.entries.map (fun (name, kind) => (name, nodeRendition name (describeKind kind))) ++
    env.supertypes.entries.map (fun (name, supertype) => (name, nodeRendition name (describeSupertype supertype)))
  fields := poolOf (env.fields.entries.map fun (name, field) => (name, fieldRendition name (describeField field)))
  literals := poolOf (env.literals.map fun value => (value, literalRendition value))
  builtins := poolOf (builtinNames.map fun name => (name, builtinRendition name))

end Pools

end TreeQuery.Completion
