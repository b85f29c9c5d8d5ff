import TreeQuery.Syntax.Construct

/-! The constructs that the checks look at. One walk over the tree binds each construct to the
checks that concern it, in document order. -/

namespace TreeQuery.Lint
open Syntax

/-- The checks, in the order in which they report. -/
inductive Check where
  | node
  /-- Field definitions that no named node owns. -/
  | field
  | negatedField
  | emptyContainer | hangingCapture | missingFieldValue | missingParameters
  | predicate | regexPredicate
deriving Repr, DecidableEq

namespace Check

def all : List Check :=
  [node, field, negatedField, emptyContainer, hangingCapture, missingFieldValue, missingParameters,
   predicate, regexPredicate]

def name : Check → String
  | node => "node"
  | field => "field"
  | negatedField => "negated_field"
  | emptyContainer => "empty_container"
  | hangingCapture => "hanging_capture"
  | missingFieldValue => "missing_field_value"
  | missingParameters => "missing_parameters"
  | predicate => "predicate"
  | regexPredicate => "regex_predicate"

end Check

def regexPredicateNames : List String := ["match?", "not-match?", "any-match?", "any-not-match?"]

/-- Whether no named node owns a field: groupings and lists aside, it stands at the top level
or in the value of another field. Fields in error nodes are left alone. -/
def isUnowned (above : List Placed) : Bool :=
  match above.find? fun place => !(place.isNode .grouping || place.isNode .list) with
  | some owner => owner.isNode .program || owner.isNode .fieldDefinition
  | none => false

def checksOf (site : Site) : List Check :=
  let place := site.place
  let whenever (condition : Bool) (check : Check) : List Check := if condition then [check] else []
  match place.kind with
  | .node .namedNode => [.node]
  | .node .grouping | .node .list => whenever place.items.isEmpty .emptyContainer
  | .node .capture => whenever place.identifier?.isNone .hangingCapture
  | .node .fieldDefinition =>
    whenever (isUnowned site.above) .field ++ whenever place.value?.isNone .missingFieldValue
  | .node .negatedField => whenever (isUnowned site.above) .negatedField
  | .node .predicate =>
    whenever (place.parameters?.all Placed.isBlank) .missingParameters ++
      whenever (place.predicateName?.any regexPredicateNames.contains) .regexPredicate ++ [.predicate]
  | _ => []

structure Finding where
  check : Check
  place : Placed
deriving Repr

def findings (root : Tree) : List Finding :=
  root.nodeSites.flatMap fun site => (checksOf site).map (⟨·, site.place⟩)

end TreeQuery.Lint
