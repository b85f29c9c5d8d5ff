import TreeQuery.Registry

/-! Arguments of a command: switches, options with a value, and at most one argument without
a name. `--name value`, `--name=value`, `-n value`, `-nvalue` and `-n=value` give an option its
value. After `--` no argument is an option. -/

namespace TreeQuery.CommandLine

inductive UsageError where
  | help
  | nothingGiven
  | commandMissing
  | commandUnknown
  | argumentUnknown
  /-- An option without its value, a value that is not among the choices, or an empty path. -/
  | valueInvalid
  | numberInvalid
  | valueUnwanted
  /-- Arguments that exclude each other, or one that is given twice. -/
  | conflict
  | argumentMissing
deriving Repr, DecidableEq

namespace UsageError

/-- Asking for help is no mistake. -/
def exitCode : UsageError → Nat
  | help => 0
  | _ => 2

def message : UsageError → String
  | help => "help"
  | nothingGiven | commandMissing => "a command is missing"
  | commandUnknown => "unknown command"
  | argumentUnknown => "unexpected argument"
  | valueInvalid => "a value is missing or not one of the choices"
  | numberInvalid => "a number is invalid or out of range"
  | valueUnwanted => "a value for an option that takes none"
  | conflict => "arguments that exclude each other"
  | argumentMissing => "an argument is missing"

end UsageError

inductive Takes where
  | nothing
  | help
  | text
  | path
  | choice (names : List String)
  /-- A number from `least` to 2 ^ 32 - 1. -/
  | number (least : Nat)
deriving Repr, DecidableEq

def Takes.hasValue : Takes → Bool
  | .nothing | .help => false
  | _ => true

structure Argument where
  name : String
  short : Option Char
  takes : Takes
deriving Repr, DecidableEq

inductive Given where
  | nothing
  | text (value : String)
  | number (value : Nat)
deriving Repr, DecidableEq

structure Form where
  options : List Argument
  positional : Option Argument
  commands : List String
deriving Repr, DecidableEq

def digitsValue (digits : List Char) : Nat :=
  digits.foldl (fun number c => 10 * number + (c.toNat - 48)) 0

/-- A number in decimal with an optional sign. Zero may have either sign. -/
def readNumber? (text : String) : Option Nat :=
  let read (digits : List Char) : Option Nat :=
    if digits.isEmpty || !digits.all Char.isDigit then none else some (digitsValue digits)
  match text.toList with
  | '+' :: digits => read digits
  | '-' :: digits => (read digits).filter (· = 0)
  | digits => read digits

def Takes.accept (takes : Takes) (value : String) : Except UsageError Given :=
  match takes with
  | .nothing | .help => .error .valueUnwanted
  | .text => .ok (.text value)
  | .path => if value.isEmpty then .error .valueInvalid else .ok (.text value)
  | .choice names => if names.contains value then .ok (.text value) else .error .valueInvalid
  | .number least =>
    match readNumber? value with
    | some value => if least ≤ value && value < Nat.pow 2 32 then .ok (.number value) else .error .numberInvalid
    | none => .error .numberInvalid

structure Pending where
  argument : Argument
  value : Option String
deriving Repr, DecidableEq

structure Reading where
  given : Registry Given
  pending : Option Pending
  hasPositional : Bool
  isEscaped : Bool
deriving Repr, DecidableEq

namespace Reading

def initial : Reading := ⟨.empty, none, false, false⟩

def add (reading : Reading) (name : String) (given : Given) : Reading :=
  { reading with given := reading.given.insert name given }

def give (reading : Reading) (argument : Argument) (value : String) : Except UsageError Reading := do
  if reading.given.contains argument.name then throw .conflict
  return reading.add argument.name (← argument.takes.accept value)

/-- Checks the value of the pending argument. A value that is missing stays missing. -/
def settle (reading : Reading) : Except UsageError Reading :=
  match reading.pending with
  | none => .ok reading
  | some ⟨_, none⟩ => .error .valueInvalid
  | some ⟨argument, some value⟩ => { reading with pending := none }.give argument value

def switchOn (reading : Reading) (argument : Argument) : Except UsageError Reading := do
  let reading ← reading.settle
  if argument.takes = .help then throw .help
  if reading.given.contains argument.name then throw .conflict
  return reading.add argument.name .nothing

def option (reading : Reading) (argument : Argument) (attached : Option String) : Except UsageError Reading := do
  let reading ← reading.settle
  match attached with
  | some value => reading.give argument value
  | none => return { reading with pending := some ⟨argument, none⟩ }

def long (options : List Argument) (reading : Reading) (name : String) (attached : Option String) :
    Except UsageError Reading :=
  match options.find? (·.name = name) with
  | none => .error .argumentUnknown
  | some argument =>
    if argument.takes.hasValue then reading.option argument attached
    else if attached.isSome then .error .valueUnwanted
    else reading.switchOn argument

/-- Letters behind a single hyphen. An option takes what is left of them for its value. -/
def short (options : List Argument) (reading : Reading) : List Char → Except UsageError Reading
  | [] => .ok reading
  | letter :: rest =>
    match options.find? (·.short = some letter) with
    | none => .error .argumentUnknown
    | some argument =>
      if argument.takes.hasValue then
        let attached := match rest with
          | [] => none
          | '=' :: value => some (String.ofList value)
          | value => some (String.ofList value)
        reading.option argument attached
      else do short options (← reading.switchOn argument) rest

/-- Whether an argument has come whose value is the next one. -/
def isWaiting (reading : Reading) : Bool := reading.pending.any (·.value.isNone)

def positional (form : Form) (reading : Reading) (value : String) : Except UsageError Reading :=
  match form.positional with
  | some argument =>
    if reading.hasPositional then .error .argumentUnknown
    else do
      let reading ← reading.settle
      return { reading with pending := some ⟨argument, some value⟩, hasPositional := true }
  | none =>
    if reading.isEscaped && form.commands.contains value then .error .argumentUnknown
    else .error .commandUnknown

def argument (form : Form) (reading : Reading) (text : String) : Except UsageError Reading :=
  if reading.isEscaped then reading.positional form text
  else match text.toList with
    | ['-', '-'] => .ok { reading with isEscaped := true }
    | '-' :: '-' :: name =>
      let attached := match name.dropWhile (· ≠ '=') with
        | [] => none
        | _ :: value => some (String.ofList value)
      reading.long form.options (String.ofList (name.takeWhile (· ≠ '='))) attached
    | '-' :: letter :: letters => reading.short form.options (letter :: letters)
    | _ =>
      if reading.isWaiting then
        .ok { reading with pending := reading.pending.map fun waiting => { waiting with value := some text } }
      else reading.positional form text

def isCommand (form : Form) (reading : Reading) (text : String) : Bool :=
  !reading.isEscaped && !reading.isWaiting && form.commands.contains text

/-- Reads arguments up to the name of a command, which is given back with what follows it. -/
def all (form : Form) (reading : Reading) :
    List String → Except UsageError (Reading × Option (String × List String))
  | [] => .ok (reading, none)
  | text :: rest =>
    if reading.isCommand form text then .ok (reading, some (text, rest))
    else do all form (← reading.argument form text) rest

end Reading

end TreeQuery.CommandLine
