import TreeQuery.Diagnostic.Report
import TreeQuery.Regex.Problem
import TreeQuery.Syntax.Construct
import TreeQuery.Text.EditDistance

/-! Predicates and directives. A name outside the known ones is only suspicious, since tools
define their own. A regular expression that does not parse is an error. -/

namespace TreeQuery.Lint
open Syntax Diagnostic Text

def knownPredicates : List String :=
  ["eq?", "not-eq?", "any-eq?", "any-not-eq?", "match?", "not-match?", "any-match?", "any-not-match?",
   "any-of?", "not-any-of?", "is?", "is-not?", "lua-match?", "not-lua-match?", "contains?",
   "not-contains?", "has-ancestor?", "not-has-ancestor?", "has-parent?", "not-has-parent?", "kind-eq?",
   "not-kind-eq?"]

def knownDirectives : List String :=
  ["set!", "select-adjacent!", "strip!", "offset!", "gsub!", "trim!", "inject-language!"]

def isKnown (name : String) : Bool := knownPredicates.contains name || knownDirectives.contains name

def checkPredicateName (suggestionDistance : Nat) (predicate : Placed) : List Report :=
  match predicate.identifier?, predicate.predicateMark?, predicate.predicateName? with
  | some name, some mark, some fullName =>
    if isKnown fullName then []
    else
      let report := (Report.of .unknownPredicate ⟨name.start, mark.stop⟩).withDetail fullName
      [report.suggesting "#" (nearest? fullName (knownPredicates ++ knownDirectives) suggestionDistance)]
  | _, _, _ => []

/-- The place in the query of a span of a string's value: the whole string where escapes
shift the bytes. -/
def spanInString (string : Placed) (value : String) (span : Span) : Span :=
  match string.content? with
  | none => string.span
  | some content =>
    if content.text ≠ value || content.stop < content.start + span.stop then string.span
    else ⟨content.start + span.start, content.start + span.stop⟩

/-- The pattern is the first string among the arguments. -/
def checkRegex (finder : Regex.Finder) (predicate : Placed) : List Report :=
  match predicate.parameters?.bind (·.strings.head?) with
  | none => []
  | some string =>
    let value := string.stringValue
    match finder value with
    | none => []
    | some fault =>
      [(Report.of .invalidRegex (spanInString string value fault.span)).withDetail fault.problem.message]

end TreeQuery.Lint
