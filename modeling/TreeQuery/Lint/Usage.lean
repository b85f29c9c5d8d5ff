import TreeQuery.Diagnostic.Report
import TreeQuery.Grammar.Environment
import TreeQuery.Syntax.Construct
import TreeQuery.Text.EditDistance
import TreeQuery.Text.Listing

/-! How named nodes are used. A kind name has to be known to the grammar, and the items of a
node, groupings and lists looked through, have to fit its kind. The items of a kind that is
not known are left to their own checks. -/

namespace TreeQuery.Lint
open Syntax Grammar Diagnostic Text

structure Settings where
  env : Environment
  suggestionDistance : Nat

/-- Kind names accepted wherever a named node may stand. -/
def pseudoKinds : List String := ["ERROR", "MISSING"]

inductive Resolved where
  | kind (kind : NamedKind)
  /-- A supertype, a wildcard or a pseudo kind: of its items only field names are checked. -/
  | anyKind
  | unknown

structure Allowed where
  types : FlatTypes
  owner : String

mutual

/-- An item, or the items inside it if it is a grouping or a list. -/
def spread (start : Nat) : Tree → List Placed
  | .leaf _ => []
  | .node kind children =>
    if kind = .grouping || kind = .list then spreadAll start children
    else if kind.isItem then [⟨start, .node kind children⟩]
    else []

def spreadAll (start : Nat) : List Tree → List Placed
  | [] => []
  | tree :: rest => spread start tree ++ spreadAll (start + tree.length) rest

end

def flatItems (place : Placed) : List Placed := spreadAll place.start place.tree.children

def flatValues (field : Placed) : List Placed :=
  (field.value?.map fun value => spread value.start value.tree).getD []

/-- The name by which a child or a value is checked, if it is checked at all: of
`(supertype/subtype)` the subtype. -/
def checkableName? (node : Placed) : Option Placed := do
  if node.isWildcard then none
  let name ← node.kindName?
  if pseudoKinds.contains name.text then none
  return node.subtype?.getD name

variable (settings : Settings)

def suggestion (name : String) (candidates : List String) : Option String :=
  nearest? name candidates settings.suggestionDistance

def unknownKind (name : Placed) : Report :=
  ((Report.of .unknownNodeType name.span).withDetail name.text).suggesting ""
    (suggestion settings name.text settings.env.kindNames)

/-- `(supertype/subtype)` matches a node of the subtype and is checked like one. -/
def resolveSubtype (name subtype : Placed) : Resolved × List Report :=
  let env := settings.env
  match env.supertypes.get? name.text with
  | none =>
    if env.kinds.contains name.text then
      (.unknown, [(Report.of .invalidSubtype name.span).withDetail (backticked name.text ++ " is not a supertype")])
    else (.unknown, [unknownKind settings name])
  | some supertype =>
    if supertype.members.names.contains subtype.text then
      (((env.kinds.get? subtype.text).map .kind).getD .unknown, [])
    else
      let detail := backticked subtype.text ++ " is not a subtype of " ++ backticked name.text
      (.unknown, [((Report.of .invalidSubtype subtype.span).withDetail detail).suggesting ""
        (suggestion settings subtype.text supertype.members.names)])

def resolve (node : Placed) : Resolved × List Report :=
  if node.isWildcard then (.anyKind, [])
  else match node.kindName? with
    | none => (.unknown, [])
    | some name =>
      if pseudoKinds.contains name.text then (.anyKind, [])
      else match node.subtype? with
        | some subtype => resolveSubtype settings name subtype
        | none =>
          match settings.env.kinds.get? name.text with
          | some kind => (.kind kind, [])
          | none =>
            if settings.env.supertypes.contains name.text then (.anyKind, [])
            else (.unknown, [unknownKind settings name])

/-- Whether a kind may stand where these types are allowed. Extras may stand anywhere, and a
supertype where any of its members may; an unknown kind is reported elsewhere. -/
def kindFits (name : String) (types : FlatTypes) : Bool :=
  types.names.contains name ||
    match settings.env.kinds.get? name with
    | some kind => kind.flags.extra
    | none =>
      match settings.env.supertypes.get? name with
      | some supertype => supertype.members.names.any types.names.contains
      | none => true

def checkChildKind (parent : NamedKind) (child : Placed) : List Report :=
  match checkableName? child with
  | none => []
  | some name =>
    let kind := name.text
    if !settings.env.kinds.contains kind && !settings.env.supertypes.contains kind then []
    else if (settings.env.kinds.get? kind).any (·.flags.extra) then []
    else if !parent.acceptsSubnodes then [(Report.of .nodeHasNoChildren name.span).withDetail parent.name]
    else if kindFits settings kind parent.types then []
    else
      let detail := backticked kind ++ " is not a valid child of " ++ backticked parent.name
      [(Report.of .invalidChildType name.span).withDetail detail]

def shownLiteral (value : String) : String := backticked ("\"" ++ value ++ "\"")

def checkChildLiteral (parent : NamedKind) (child : Placed) : List Report :=
  match child.string? with
  | none => []
  | some string =>
    if parent.types.literals.isEmpty then [(Report.of .noLiteralChildren string.span).withDetail parent.name]
    else if parent.types.literals.contains string.stringValue then []
    else
      let detail := shownLiteral string.stringValue ++ " is not a valid child of " ++ backticked parent.name
      [(Report.of .invalidChildLiteral string.span).withDetail detail]

def checkFieldValue (allowed : Allowed) (value : Placed) : List Report :=
  let refuse (shown : String) (place : Placed) : List Report :=
    [(Report.of .invalidFieldValue place.span).withDetail (shown ++ " is not a valid value for " ++ allowed.owner)]
  match value.kind with
  | .node .namedNode =>
    match checkableName? value with
    | none => []
    | some name =>
      if kindFits settings name.text allowed.types then [] else refuse (backticked name.text) name
  | .node .anonymousNode =>
    match value.string? with
    | none => []
    | some string =>
      if allowed.types.literals.contains string.stringValue then []
      else refuse (shownLiteral string.stringValue) string
  | _ => []

/-- A field that its parent does not have, or that no kind has where the parent is open. -/
def unknownField (parent : Resolved) (parentSpan : Span) (name : Placed) : Report :=
  let report := (Report.of .unknownField name.span).withDetail name.text
  match parent with
  | .kind kind =>
    let report := report.withRelated ("on " ++ backticked kind.name) parentSpan
    if kind.fields.isEmpty then report.withHint (backticked kind.name ++ " has no fields")
    else
      (report.suggesting "" (suggestion settings name.text kind.fields.names)).withHint
        ("valid fields for " ++ backticked kind.name ++ ": " ++ listing kind.fields.names 5)
  | _ => report.suggesting "" (suggestion settings name.text settings.env.fields.names)

def checkField (parent : Resolved) (parentSpan : Span) (field : Placed) : List Report :=
  match field.identifier? with
  | none => []
  | some name =>
    let declared := match parent with
      | .kind kind => kind.fields.get? name.text
      | _ => settings.env.fields.get? name.text
    match declared with
    | none => [unknownField settings parent parentSpan name]
    | some declared =>
      (flatValues field).flatMap (checkFieldValue settings ⟨declared.types, "field " ++ backticked name.text⟩)

/-- A negated field has to exist somewhere. That its parent never or always has it is only
suspicious. -/
def checkNegatedField (parent : Resolved) (negated : Placed) : List Report :=
  match negated.identifier? with
  | none => []
  | some name =>
    if !settings.env.fields.contains name.text then
      [((Report.of .unknownField name.span).withDetail name.text).suggesting ""
        (suggestion settings name.text settings.env.fields.names)]
    else match parent with
      | .kind kind =>
        match kind.fields.get? name.text with
        | none =>
          let detail := backticked kind.name ++ " never has field " ++ backticked name.text
          [(Report.of .redundantNegation negated.span).withDetail detail]
        | some field =>
          if field.required then
            let detail := backticked kind.name ++ " always has field " ++ backticked name.text ++
              "; this pattern never matches"
            [(Report.of .negatedRequiredField negated.span).withDetail detail]
          else []
      | _ => []

def checkItem (parent : Resolved) (parentSpan : Span) (item : Placed) : List Report :=
  match item.kind, parent with
  | .node .namedNode, .kind kind => checkChildKind settings kind item
  | .node .anonymousNode, .kind kind => checkChildLiteral kind item
  | .node .fieldDefinition, _ => checkField settings parent parentSpan item
  | .node .negatedField, _ => checkNegatedField settings parent item
  | _, _ => []

def checkNode (node : Placed) : List Report :=
  match resolve settings node with
  | (.unknown, reports) => reports
  | (parent, reports) =>
    let parentSpan := (node.kindName?.getD node).span
    reports ++ (flatItems node).flatMap (checkItem settings parent parentSpan)

end TreeQuery.Lint
