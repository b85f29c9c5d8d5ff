import TreeQuery.Diagnostic.Kind
import TreeQuery.Text.Span

/-! Reports: findings at a place of a query, with their message, further places and hints. -/

namespace TreeQuery.Diagnostic
open Text (Span)

structure Related where
  span : Span
  message : String
deriving Repr, DecidableEq

structure Report where
  kind : Kind
  span : Span
  message : String
  related : List Related
  hints : List String
deriving Repr, DecidableEq

namespace Report

def of (kind : Kind) (span : Span) : Report := ⟨kind, span, kind.summary, [], kind.hint?.toList⟩

def withDetail (report : Report) (detail : String) : Report :=
  { report with message := report.kind.message (some detail) }

def withHint (report : Report) (hint : String) : Report :=
  { report with hints := report.hints ++ [hint] }

def withRelated (report : Report) (message : String) (span : Span) : Report :=
  { report with related := report.related ++ [⟨span, message⟩] }

def suggesting (report : Report) (mark : String) : Option String → Report
  | none => report
  | some name => report.withHint ("did you mean `" ++ mark ++ name ++ "`?")

def severity (report : Report) : Severity := report.kind.severity

def isError (report : Report) : Bool := report.severity = .error

def isWarning (report : Report) : Bool := report.severity = .warning

def describeSpan (span : Span) : String := toString span.start ++ ".." ++ toString span.stop

def describe (report : Report) : String :=
  let related := report.related.map fun place =>
    " (related: " ++ place.message ++ " at " ++ describeSpan place.span ++ ")"
  let hints := report.hints.map fun hint => " (hint: " ++ hint ++ ")"
  report.severity.name ++ " at " ++ describeSpan report.span ++ ": " ++ report.message ++
    String.join related ++ String.join hints

/-- Document order: by start, then by end, then by kind. -/
def precedes (a b : Report) : Bool :=
  a.span.start < b.span.start || a.span.start = b.span.start &&
    (a.span.stop < b.span.stop || a.span.stop = b.span.stop && a.kind.rank ≤ b.kind.rank)

/-- Reports in document order. Those at one place and of one kind keep their order. -/
def sort (reports : List Report) : List Report := reports.mergeSort precedes

def errorCount (reports : List Report) : Nat := reports.countP isError

def warningCount (reports : List Report) : Nat := reports.countP isWarning

end Report

end TreeQuery.Diagnostic
