import TreeQuery.Lint.Finding
import TreeQuery.Lint.Predicate
import TreeQuery.Lint.Usage
import TreeQuery.Regex.Parser

/-! Running the checks over a document. No check fails: what cannot be resolved is reported,
and without a grammar the checks that need one report nothing. Patterns are read by
`Regex.fault?` unless another finder is given. -/

namespace TreeQuery.Lint
open Syntax Diagnostic

def Check.needsGrammar : Check → Bool
  | .node | .field | .negatedField => true
  | _ => false

def Check.reports (settings : Settings) (finder : Regex.Finder) (place : Placed) : Check → List Report
  | .node => checkNode settings place
  | .field => checkField settings .anyKind place.span place
  | .negatedField => checkNegatedField settings .anyKind place
  | .emptyContainer => [.of (if place.isNode .list then .emptyList else .emptyGrouping) place.span]
  | .hangingCapture => [.of .hangingCapture place.span]
  | .missingFieldValue =>
    let report := Report.of .missingFieldValue place.span
    [(place.identifier?.map fun name => report.withDetail (Text.backticked name.text)).getD report]
  | .missingParameters =>
    let report := Report.of .missingPredicateParameters place.span
    [(place.predicateName?.map fun name => report.withDetail (Text.backticked ("#" ++ name))).getD report]
  | .predicate => checkPredicateName settings.suggestionDistance place
  | .regexPredicate => checkRegex finder place

def runCheck (settings : Settings) (found : List Finding) (check : Check) (finder : Regex.Finder := Regex.fault?) :
    List Report :=
  if check.needsGrammar && settings.env.isEmpty then []
  else found.flatMap fun finding =>
    if finding.check = check then check.reports settings finder finding.place else []

/-- The reports of all checks, one check after the other. -/
def run (settings : Settings) (root : Tree) (finder : Regex.Finder := Regex.fault?) : List Report :=
  Check.all.flatMap (runCheck settings (findings root) · finder)

end TreeQuery.Lint
