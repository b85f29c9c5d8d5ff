import TreeQuery.Syntax.Construct

/-! What may be inserted at a place of a query. Only the tree is looked at: the nearest thing
that pins down what is being typed, the terminal, and the nearest construct that it belongs
to, the enclosing one. The two select the context. -/

namespace TreeQuery.Completion
open Syntax

/-- `wrapped` asks for the form of a name that stands by itself, `(identifier)` or `name: `,
and not for the bare name. -/
inductive Context where
  | unhandled
  | none
  | capture (identifier : Option String)
  | node (wrapped : Bool) (enclosing : Option String)
  | child (wrapped : Bool) (enclosing : Option String)
  | fieldValue (wrapped : Bool) (field : String) (parent : Option String)
  | fieldName (wrapped : Bool) (parent : Option String)
  | negatedField (parent : Option String)
  | stringContent (parent : Option String) (field : Option String)
deriving Repr, DecidableEq

def isTerminal : Kind → Bool
  | .token .atSign | .token .colon | .token .bang | .token .identifier | .token .stringContent => true
  | .node .namedNode | .node .grouping | .node .list | .node .program | .node .string => true
  | _ => false

def isEnclosing : Kind → Bool
  | .node .program | .node .capture | .node .namedNode | .node .fieldDefinition | .node .negatedField => true
  | _ => false

/-- A construct in which a kind name can stand without belonging to another one. -/
def isTransparent (place : Placed) : Bool :=
  place.isNode .grouping || place.isNode .list || place.isNode .error

def tokenBefore? (root : Tree) (offset : Nat) : Option Site :=
  root.tokenSites.find? fun site => site.place.start < offset && offset ≤ site.place.stop

/-- Whether a token ends a construct: a closer, a quantifier, or a quote that is not the first. -/
def closesConstruct (site : Site) : Bool :=
  match site.place.kind with
  | .token .parenClose | .token .bracketClose => true
  | .token .star | .token .plus | .token .question => site.above.head?.any (·.isNode .quantifier)
  | .token .doubleQuote => site.above.head?.any (·.start < site.place.start)
  | _ => false

/-- The nodes above a token without the constructs that end exactly at the offset. -/
def leaveClosed (offset : Nat) : List Placed → List Placed
  | place :: above :: rest =>
    if !place.isNode .program && place.stop = offset then leaveClosed offset (above :: rest)
    else place :: above :: rest
  | places => places

/-- The colon of a field definition without a value, if only trivia stands between it and the
token. -/
def danglingColon? (root : Tree) (token : Placed) : Option Site := do
  let before := root.tokenSites.takeWhile (·.place.start < token.start)
  let colon ← (before.reverse.dropWhile (·.place.kind.isTrivia)).head?
  let field ← colon.above.head?
  if colon.place.kind = .token .colon && field.isNode .fieldDefinition && field.value?.isNone then some colon
  else Option.none

/-- The element the cursor is in, then the nodes above it, the nearest first. -/
def chainAt? (root : Tree) (offset : Nat) : Option (List Placed) := do
  let site ← tokenBefore? root offset
  let token := site.place
  if token.stop = offset && closesConstruct site then return leaveClosed offset site.above
  if token.kind.isTrivia && token.kind ≠ .token .comment then
    if let some colon := danglingColon? root token then return colon.place :: colon.above
  return token :: site.above

def kindOf? (place : Placed) : Option String :=
  if !place.isNode .namedNode || place.isWildcard then Option.none else place.kindName?.map Placed.text

def parentKind? (above : List Placed) : Option String := do
  kindOf? (← above.find? (·.isNode .namedNode))

def isEmptyContainer (place : Placed) : Bool :=
  (place.isNode .grouping || place.isNode .list) && place.items.isEmpty

def fieldValueIn (wrapped : Bool) (field : Placed) (above : List Placed) : Context :=
  match field.identifier? with
  | some name => .fieldValue wrapped name.text (parentKind? above)
  | Option.none => .unhandled

def kindNameIn (above : List Placed) : Context :=
  match above.dropWhile isTransparent with
  | holder :: rest =>
    if holder.isNode .fieldDefinition then fieldValueIn false holder rest
    else if holder.isNode .namedNode then .node false (kindOf? holder)
    else .node false Option.none
  | [] => .node false Option.none

/-- An identifier in a named node: its kind name, a subtype, what is missing, or the start of
a field name. `parent` is the node right above the identifier. -/
def identifierIn (named : Placed) (above : List Placed) (token parent : Placed) : Context :=
  if named.kindName?.any (·.start = token.start) then kindNameIn above
  else if named.subtype?.any (·.start = token.start) then .node false (named.kindName?.map Placed.text)
  else if parent.isNode .namedNode then .node false Option.none
  else .fieldName true (kindOf? named)

def contextIn (enclosing : Placed) (above : List Placed) (terminal parent : Placed) : Context :=
  match enclosing.kind, terminal.kind with
  | .node .program, .node .program | .node .program, .node .list | .node .program, .token .identifier =>
    .node true Option.none
  | .node .program, .node .grouping => .node (!isEmptyContainer terminal) Option.none
  | .node .program, .node .string | .node .program, .token .stringContent =>
    .stringContent Option.none Option.none
  | .node .capture, .token .identifier => .capture (some terminal.text)
  | .node .namedNode, .node .namedNode | .node .namedNode, .node .list => .child true (kindOf? enclosing)
  | .node .namedNode, .token .identifier => identifierIn enclosing above terminal parent
  | .node .namedNode, .node .grouping =>
    if isEmptyContainer terminal then .node false (kindOf? enclosing) else .child true (kindOf? enclosing)
  | .node .namedNode, .node .string | .node .namedNode, .token .stringContent =>
    .stringContent (kindOf? enclosing) Option.none
  | .node .fieldDefinition, .token .identifier => .fieldName false (parentKind? above)
  | .node .fieldDefinition, .token .colon | .node .fieldDefinition, .node .namedNode
  | .node .fieldDefinition, .node .program | .node .fieldDefinition, .node .list =>
    fieldValueIn true enclosing above
  | .node .fieldDefinition, .node .grouping => fieldValueIn (!isEmptyContainer terminal) enclosing above
  | .node .fieldDefinition, .node .string | .node .fieldDefinition, .token .stringContent =>
    .stringContent (parentKind? above) (enclosing.identifier?.map Placed.text)
  | .node .negatedField, .token .bang | .node .negatedField, .token .identifier
  | .node .negatedField, .node .namedNode | .node .negatedField, .node .grouping
  | .node .negatedField, .node .list | .node .negatedField, .node .program =>
    .negatedField (parentKind? above)
  | _, _ => .unhandled

def contextOf (chain : List Placed) : Context :=
  if chain.any (·.kind = .token .comment) then .none
  else
    match chain.dropWhile (!isTerminal ·.kind), chain.dropWhile (!isEnclosing ·.kind) with
    | terminal :: around, enclosing :: above =>
      if terminal.kind = .token .atSign then .capture Option.none
      else if chain.any (·.isNode .predicate) && !enclosing.isNode .capture then .none
      else contextIn enclosing above terminal (around.headD terminal)
    | _, _ => .unhandled

def classify (root : Tree) (offset : Nat) : Context :=
  if offset = 0 then .node true Option.none
  else if root.length < offset then .none
  else match chainAt? root offset with
    | some chain => contextOf chain
    | Option.none => .none

end TreeQuery.Completion
