import TreeQuery.Analyzer
import TreeQuery.CommandLine.Command
import TreeQuery.CommandLine.Output
import TreeQuery.Diagnostic.Rendering

/-! Running a command. The command asks for the texts it needs; whoever runs it provides them,
from files or from elsewhere. -/

namespace TreeQuery.CommandLine
open Diagnostic (Report)
open Grammar (Environment Refusal)

inductive TextSource where
  | standardInput
  | file (path : String)
deriving Repr, DecidableEq

inductive LoadFault where
  | notFound
  | isDirectory
  | notUtf8
  | other (reason : String)
deriving Repr, DecidableEq

def LoadFault.message : LoadFault → String
  | notFound => "No such file or directory (os error 2)"
  | isDirectory => "Is a directory (os error 21)"
  | notUtf8 => "stream did not contain valid UTF-8"
  | other reason => reason

inductive Failure where
  | file (path : String) (fault : LoadFault)
  | standardInput (fault : LoadFault)
  | queryMissing
  | grammar (path : String) (refusal : Refusal)
  | cursorOutside (line column : Nat)
  | kindUnknown (kind : String) (suggestion : Option String)
deriving Repr, DecidableEq

def Failure.message : Failure → String
  | file path fault => "failed to read '" ++ path ++ "': " ++ fault.message
  | standardInput fault => "failed to read stdin: " ++ fault.message
  | queryMissing => "query is required: use a positional path or -q/--query"
  | grammar path refusal => "invalid grammar '" ++ path ++ "': " ++ refusal.message
  | cursorOutside line column =>
    "line " ++ toString line ++ ", column " ++ toString column ++ " is outside the query"
  | kindUnknown kind suggestion =>
    "unknown kind `" ++ kind ++ "`" ++
      ((suggestion.map fun name => " (did you mean `" ++ name ++ "`?)").getD "")

structure Outcome where
  isSuccess : Bool
  output : String
  errors : String
deriving Repr, DecidableEq

def Outcome.exitCode (outcome : Outcome) : Nat := if outcome.isSuccess then 0 else 1

def Outcome.written (text : String) : Outcome := ⟨true, text ++ "\n", ""⟩

abbrev Loader (m : Type → Type) := TextSource → m (Except LoadFault String)

structure Query where
  name : String
  text : String
deriving Repr, DecidableEq

section

variable {m : Type → Type} [Monad m] (load : Loader m)

def loadFile (path : String) : ExceptT Failure m String := do
  match ← ExceptT.lift (load (.file path)) with
  | .ok text => return text
  | .error fault => throw (.file path fault)

def loadQuery : QuerySource → ExceptT Failure m Query
  | .missing => throw .queryMissing
  | .text query => return ⟨"<query>", query⟩
  | .path "-" => do
    match ← ExceptT.lift (load .standardInput) with
    | .ok text => return ⟨"<stdin>", text⟩
    | .error fault => throw (.standardInput fault)
  | .path path => return ⟨path, ← loadFile load path⟩

/-- An analyzer with the grammar of a file. A grammar that is refused is a failure. -/
def loadAnalyzer (path : String) : ExceptT Failure m Analyzer := do
  match (Analyzer.new .default).tryLoad (← loadFile load path) with
  | .ok analyzer => return analyzer
  | .error refusal => throw (.grammar path refusal)

/-- Reports of a check, rendered. Nothing is written if there are none. -/
def reported (isColored : Bool) (query : Query) (reports : List Report) : String :=
  if reports.isEmpty then "" else Report.renderAll ⟨some query.name, isColored⟩ query.text reports ++ "\n"

def runCheck (isTerminal : Bool) (source : QuerySource) (grammar : Option String) (isStrict : Bool)
    (color : Color) : ExceptT Failure m Outcome := do
  let query ← loadQuery load source
  let analyzer ← match grammar with
    | some path => loadAnalyzer load path
    | none => pure (.new .default)
  let reports := analyzer.diagnostics (analyzer.document query.text)
  let isColored := match color with
    | .auto => isTerminal
    | .always => true
    | .never => false
  return ⟨passes isStrict reports, "", reported isColored query reports⟩

/-- The offset of a cursor. A line that the query does not have is a failure, a column past the
end of its line is not. -/
def cursorOffset (document : Document) : Cursor → Except Failure Nat
  | .offset offset => .ok offset
  | .place line column =>
    match document.offset? ⟨line - 1, column - 1⟩ with
    | some offset => .ok offset
    | none => .error (.cursorOutside line column)

def runComplete (source : QuerySource) (grammar : String) (cursor : Cursor) (isCompact : Bool) :
    ExceptT Failure m Outcome := do
  let query ← loadQuery load source
  let analyzer ← loadAnalyzer load grammar
  let document := analyzer.document query.text
  let offset ← ExceptT.mk (pure (cursorOffset document cursor))
  let (context, items) := analyzer.completions document offset
  return .written ((completionsValue context items).write isCompact)

def kindSuggestionDistance : Nat := 2

/-- A kind of a grammar, or all of its names. A concrete kind hides a supertype of its name. -/
def describeTypes (env : Environment) : Option String → Except Failure Json.Value
  | none => .ok (environmentValue env)
  | some name =>
    match env.kinds.get? name, env.supertypes.get? name with
    | some kind, _ => .ok (kindValue kind)
    | none, some supertype => .ok (supertypeValue supertype)
    | none, none => .error (.kindUnknown name (Text.nearest? name env.kindNames kindSuggestionDistance))

def runTypes (grammar : String) (kind : Option String) (isCompact : Bool) : ExceptT Failure m Outcome := do
  let analyzer ← loadAnalyzer load grammar
  let value ← ExceptT.mk (pure (describeTypes analyzer.snapshot.env kind))
  return .written (value.write isCompact)

def run (isTerminal : Bool) : Command → ExceptT Failure m Outcome
  | .check query grammar isStrict color => runCheck load isTerminal query grammar isStrict color
  | .complete query grammar cursor isCompact => runComplete load query grammar cursor isCompact
  | .types grammar kind isCompact => runTypes load grammar kind isCompact

end

end TreeQuery.CommandLine
