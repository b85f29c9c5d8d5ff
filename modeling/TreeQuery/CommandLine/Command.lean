import TreeQuery.CommandLine.Argument

/-! The commands, and how arguments name them. -/

namespace TreeQuery.CommandLine

inductive Color where
  | auto
  | always
  | never
deriving Repr, DecidableEq

inductive QuerySource where
  | missing
  | text (query : String)
  /-- A file; `-` stands for the standard input. -/
  | path (path : String)
deriving Repr, DecidableEq

/-- A byte offset, or line and column, both from 1, the column in UTF-16 units. -/
inductive Cursor where
  | offset (offset : Nat)
  | place (line column : Nat)
deriving Repr, DecidableEq

inductive Command where
  | check (query : QuerySource) (grammar : Option String) (isStrict : Bool) (color : Color)
  | complete (query : QuerySource) (grammar : String) (cursor : Cursor) (isCompact : Bool)
  | types (grammar : String) (kind : Option String) (isCompact : Bool)
deriving Repr, DecidableEq

structure Invocation where
  command : Command
  logLevel : Option String
deriving Repr, DecidableEq

def helpSwitch : Argument := ⟨"help", some 'h', .help⟩

def logLevelOption : Argument := ⟨"log-level", none, .text⟩

def queryOption : Argument := ⟨"query", some 'q', .text⟩

def grammarOption : Argument := ⟨"grammar", some 'g', .path⟩

def queryPath : Argument := ⟨"QUERY", none, .path⟩

def compactSwitch : Argument := ⟨"compact", none, .nothing⟩

def rootForm : Form := ⟨[helpSwitch, logLevelOption], none, ["check", "complete", "types", "help"]⟩

def checkForm : Form :=
  ⟨[helpSwitch, logLevelOption, queryOption, grammarOption, ⟨"strict", none, .nothing⟩,
    ⟨"color", none, .choice ["auto", "always", "never"]⟩], some queryPath, []⟩

def completeForm : Form :=
  ⟨[helpSwitch, logLevelOption, queryOption, grammarOption, compactSwitch, ⟨"offset", none, .number 0⟩,
    ⟨"line", none, .number 1⟩, ⟨"column", none, .number 1⟩], some queryPath, []⟩

def typesForm : Form :=
  ⟨[helpSwitch, logLevelOption, grammarOption, compactSwitch], some ⟨"KIND", none, .text⟩, []⟩

abbrev Arguments := Registry Given

namespace Arguments

def text? (arguments : Arguments) (name : String) : Option String :=
  match arguments.get? name with
  | some (.text value) => some value
  | _ => none

def number? (arguments : Arguments) (name : String) : Option Nat :=
  match arguments.get? name with
  | some (.number value) => some value
  | _ => none

def isOn (arguments : Arguments) (name : String) : Bool := Registry.contains arguments name

def query (arguments : Arguments) : Except UsageError QuerySource :=
  match arguments.text? queryOption.name, arguments.text? queryPath.name with
  | some _, some _ => .error .conflict
  | some text, none => .ok (.text text)
  | none, some path => .ok (.path path)
  | none, none => .ok .missing

def color (arguments : Arguments) : Color :=
  match arguments.text? "color" with
  | some "always" => .always
  | some "never" => .never
  | _ => .auto

def cursor? (arguments : Arguments) : Except UsageError (Option Cursor) :=
  match arguments.number? "offset", arguments.number? "line", arguments.number? "column" with
  | some offset, none, none => .ok (some (.offset offset))
  | some _, _, _ => .error .conflict
  | none, some line, some column => .ok (some (.place line column))
  | none, _, _ => .ok none

def grammar? (arguments : Arguments) : Option String := arguments.text? grammarOption.name

end Arguments

namespace Command

def checkOf (arguments : Arguments) : Except UsageError Command := do
  return .check (← arguments.query) arguments.grammar? (arguments.isOn "strict") arguments.color

/-- Arguments that exclude each other are refused before one that is missing. -/
def completeOf (arguments : Arguments) : Except UsageError Command := do
  let query ← arguments.query
  match ← arguments.cursor?, arguments.grammar? with
  | some cursor, some grammar => return .complete query grammar cursor (arguments.isOn compactSwitch.name)
  | _, _ => throw .argumentMissing

def typesOf (arguments : Arguments) : Except UsageError Command :=
  match arguments.grammar? with
  | some grammar => .ok (.types grammar (arguments.text? "KIND") (arguments.isOn compactSwitch.name))
  | none => .error .argumentMissing

def described? : String → Option (Form × (Arguments → Except UsageError Command))
  | "check" => some (checkForm, checkOf)
  | "complete" => some (completeForm, completeOf)
  | "types" => some (typesForm, typesOf)
  | _ => none

end Command

def usage : String :=
  "Usage:\n" ++
  "  check QUERY|-|-q TEXT [-g FILE] [--strict] [--color auto|always|never]\n" ++
  "  complete QUERY|-|-q TEXT -g FILE --offset N|--line L --column C [--compact]\n" ++
  "  types -g FILE [KIND] [--compact]\n"

/-- `help` with the name of a command, or of nothing else. -/
def helpFor : List String → UsageError
  | [] => .help
  | [name] => if rootForm.commands.contains name then .help else .commandUnknown
  | _ => .commandUnknown

namespace Invocation

/-- The invocation that arguments spell. What is given to a command is looked at before what
is given in front of it. -/
def ofArguments (arguments : List String) : Except UsageError Invocation := do
  match ← Reading.initial.all rootForm arguments with
  | (root, none) =>
    let root ← root.settle
    throw (if root.given.isEmpty then .nothingGiven else .commandMissing)
  | (root, some (name, rest)) =>
    match Command.described? name with
    | none => throw (helpFor rest)
    | some (form, command) =>
      let (reading, _) ← Reading.initial.all form rest
      let given := (← reading.settle).given
      let command ← command given
      let outer := (← root.settle).given
      return ⟨command, (Arguments.text? given logLevelOption.name).or (Arguments.text? outer logLevelOption.name)⟩

end Invocation

end TreeQuery.CommandLine
