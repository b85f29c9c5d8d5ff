import TreeQuery.Completion.Offer
import TreeQuery.Document
import TreeQuery.Lint.Run

/-! The analyzer: settings, and the grammar that queries are checked against and completed
from. A grammar that is refused leaves the analyzer as it was, or empties it, as the caller
chooses. -/

namespace TreeQuery
open Grammar Completion Diagnostic

structure Snapshot where
  env : Environment
  pools : Pools
deriving Repr, DecidableEq

namespace Snapshot

/-- The state before any grammar: nothing is known, and nothing at all is offered. -/
def initial : Snapshot := ⟨.empty, .empty⟩

def ofEnvironment (env : Environment) : Snapshot := ⟨env, .ofEnvironment env⟩

def completions (snapshot : Snapshot) (document : Document) (offset : Nat) : Context × List Item :=
  let context := classify document.tree offset
  (context, offer snapshot.env snapshot.pools (some document.captures) context)

end Snapshot

structure Config where
  nestingLimit : Nat
  suggestionDistance : Nat
deriving Repr, DecidableEq

def Config.default : Config := ⟨Syntax.Parser.defaultLimit, 2⟩

structure Analyzer where
  config : Config
  snapshot : Snapshot
deriving Repr, DecidableEq

namespace Analyzer

def new (config : Config) : Analyzer := ⟨config, .initial⟩

def withEnvironment (analyzer : Analyzer) (env : Environment) : Analyzer :=
  { analyzer with snapshot := .ofEnvironment env }

/-- Loads a description. One that is refused changes nothing. -/
def tryLoad (analyzer : Analyzer) (description : String) : Except Refusal Analyzer :=
  match declarations description with
  | .ok kinds => .ok (analyzer.withEnvironment (.ofDeclarations kinds))
  | .error refusal => .error refusal

/-- Loads a description, or the empty environment if it is refused. -/
def load (analyzer : Analyzer) (description : String) : Analyzer :=
  match analyzer.tryLoad description with
  | .ok loaded => loaded
  | .error _ => analyzer.withEnvironment .empty

def document (analyzer : Analyzer) (source : String) : Document :=
  .ofText analyzer.config.nestingLimit source

def completions (analyzer : Analyzer) (document : Document) (offset : Nat) : Context × List Item :=
  analyzer.snapshot.completions document offset

/-- On a line that the document does not have, nothing is offered. -/
def completionsAt (analyzer : Analyzer) (document : Document) (position : Text.Position) :
    Context × List Item :=
  match document.offset? position with
  | some offset => analyzer.completions document offset
  | none => (.none, [])

/-- Regular expressions are read by `finder`. -/
def diagnostics (analyzer : Analyzer) (document : Document) (finder : Regex.Finder := Regex.fault?) : List Report :=
  Report.sort <| document.parsed.reports ++
    Lint.run ⟨analyzer.snapshot.env, analyzer.config.suggestionDistance⟩ document.tree finder

end Analyzer

/-- Whether reports let a document pass. Under `strict`, warnings do not. -/
def passes (strict : Bool) (reports : List Report) : Bool :=
  reports.all fun report => !report.isError && !(strict && report.isWarning)

end TreeQuery
