import TreeQuery.Diagnostic.Report
import TreeQuery.Snippet.Excerpt

/-! Reports as a reader sees them: a title, the excerpt of the query that shows their places,
and their hints. -/

namespace TreeQuery.Diagnostic
open Text (Span visible)
open Snippet (Row Ink Mark Excerpt inked inkedString blanks)

structure Options where
  /-- What the query is called. Without a name no place is given. -/
  path : Option String
  isColored : Bool
deriving Repr, DecidableEq

def Severity.code (severity : Severity) : Ink → String
  | .plain => ""
  | .strong => "\x1b[1m"
  | .accent => "\x1b[1m\x1b[94m"
  | .severity => match severity with
    | .error => "\x1b[1m\x1b[91m"
    | .warning => "\x1b[1m\x1b[33m"

namespace Report

/-- What is marked for a span: an empty one marks the character behind it, if there is one. -/
def markedSpan (source : String) (span : Span) : Span :=
  let length := source.utf8ByteSize
  let start := min span.start length
  let stop := min span.stop length
  if start < stop then ⟨start, stop⟩
  else
    let before := Snippet.fitting source.toList start
    let next := source.toList.drop before.length
    if Text.utf8Length before = start then ⟨start, start + ((next.head?.map Char.utf8Size).getD 0)⟩
    else ⟨start, start⟩

def marks (source : String) (report : Report) : List Mark :=
  ⟨markedSpan source report.span, none, true⟩ ::
    report.related.map fun place => ⟨markedSpan source place.span, some place.message, false⟩

def indentedRows (lead : Row) (ink : Ink) (text : List Char) : List Row :=
  match text.splitOn '\n' with
  | [] => [lead]
  | first :: rest =>
    (lead ++ inked ink first) :: rest.map fun line => inked .plain (blanks lead.length) ++ inked ink line

def titleRows (report : Report) : List Row :=
  let name := report.severity.name ++ "[" ++ report.kind.source ++ "]"
  indentedRows (inkedString .severity name ++ inkedString .strong ": ") .strong (visible report.message.toList)

def originRow (digits : Nat) (path : String) (place : Option (Nat × Nat)) : Row :=
  let shown := match place with
    | some (line, column) => path ++ ":" ++ toString line ++ ":" ++ toString column
    | none => path
  inked .plain (blanks digits) ++ inkedString .accent "--> " ++ inkedString .plain shown

def hintRows (digits : Nat) (hint : String) : List Row :=
  let lead := inked .plain (blanks (digits + 1)) ++ inkedString .accent "= " ++ inkedString .strong "help" ++
    inkedString .plain ": "
  indentedRows lead .plain hint.toList

def rows (options : Options) (source : String) (report : Report) : List Row :=
  let excerpt := Excerpt.ofMarks source (report.marks source)
  let digits := excerpt.layout.digits
  let gutter : Row := inked .plain (blanks (digits + 1)) ++ inked .accent ['|']
  report.titleRows ++
    (options.path.map fun path => originRow digits path excerpt.primaryPlace?).toList ++ [gutter] ++
    excerpt.rows ++
    (if report.hints.isEmpty then [] else gutter :: report.hints.flatMap (hintRows digits))

def render (options : Options) (source : String) (report : Report) : String :=
  let code := if options.isColored then report.severity.code else fun _ => ""
  "\n".intercalate ((report.rows options source).map (Row.render code))

def renderAll (options : Options) (source : String) (reports : List Report) : String :=
  "\n\n".intercalate (reports.map (render options source))

def describeAll (reports : List Report) : String := "\n".intercalate (reports.map describe)

end Report

end TreeQuery.Diagnostic
