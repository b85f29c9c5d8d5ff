import TreeQuery.Completion.Offer
import TreeQuery.Json.Value

/-! What the commands write, as JSON. -/

namespace TreeQuery.CommandLine
open Json (Value)
open Completion Grammar

def name? (name : Option String) : Value := .ofOption .string name

def contextMembers : Context → List (String × Value)
  | .unhandled => [("type", .string "unhandled")]
  | .none => [("type", .string "none")]
  | .capture identifier => [("type", .string "capture"), ("identifier", name? identifier)]
  | .node wrapped enclosing =>
    [("type", .string "node"), ("transform", .boolean wrapped), ("enclosingNodeType", name? enclosing)]
  | .child wrapped enclosing =>
    [("type", .string "child"), ("transform", .boolean wrapped), ("enclosingNodeType", name? enclosing)]
  | .fieldValue wrapped field parent =>
    [("type", .string "field_value"), ("transform", .boolean wrapped), ("fieldName", .string field),
     ("parentType", name? parent)]
  | .fieldName wrapped parent =>
    [("type", .string "field_name"), ("transform", .boolean wrapped), ("parentType", name? parent)]
  | .negatedField parent => [("type", .string "negated_field"), ("parentType", name? parent)]
  | .stringContent parent field =>
    [("type", .string "empty_string"), ("parentType", name? parent), ("fieldName", name? field)]

/-- An item. Members that are not set are left out. -/
def itemMembers (item : Item) : List (String × Value) :=
  [("label", .string item.label), ("kind", .string item.kind.name)] ++
    (item.insertText.map fun text => ("insertText", .string text)).toList ++
    (item.documentation.map fun text => ("documentation", .string text)).toList

def completionsValue (context : Context) (items : List Item) : Value :=
  .object [("context", .object (contextMembers context)),
    ("items", .list (items.map fun item => .object (itemMembers item)))]

def typesValue (types : FlatTypes) : Value :=
  .object [("literals", .strings types.literals), ("type_names", .strings types.names)]

def subnodeValue (subnode : Subnode) : Value :=
  .object [("multiple", .boolean subnode.multiple), ("required", .boolean subnode.required),
    ("types", typesValue subnode.types)]

def byName (members : List (String × Value)) : List (String × Value) :=
  members.mergeSort fun a b => a.1 ≤ b.1

def kindValue (kind : NamedKind) : Value :=
  .object [("children", .ofOption subnodeValue kind.children), ("extra", .boolean kind.flags.extra),
    ("fields", .object (byName (kind.fields.mapValues subnodeValue).entries)),
    ("name", .string kind.name), ("root", .boolean kind.flags.root), ("types", typesValue kind.types)]

def supertypeValue (supertype : Supertype) : Value :=
  .object [("extra", .boolean supertype.flags.extra), ("name", .string supertype.name),
    ("root", .boolean supertype.flags.root), ("subtypes", typesValue supertype.members)]

def environmentValue (env : Environment) : Value :=
  .object [("fields", .strings env.fields.names), ("kinds", .strings env.kinds.names),
    ("literals", .strings env.literals), ("supertypes", .strings env.supertypes.names)]

end TreeQuery.CommandLine
