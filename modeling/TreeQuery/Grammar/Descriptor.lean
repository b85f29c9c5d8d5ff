import TreeQuery.Json.Record

/-! The description of a grammar's node kinds, as it is read and as it is classified. Every
entry is a literal, a leaf, a supertype or a branch; an entry that would be two of these is
refused. -/

namespace TreeQuery.Grammar

inductive Stub where
  | named (name : String)
  | literal (value : String)
deriving Repr, DecidableEq

namespace Stub

def text : Stub → String
  | named name => name
  | literal value => value

def isNamed : Stub → Bool
  | named _ => true
  | literal _ => false

def of (isNamed : Bool) (text : String) : Stub := if isNamed then named text else literal text

end Stub

/-- What a field or the children of a kind may hold, supertypes not yet resolved. -/
structure Slot where
  multiple : Bool
  required : Bool
  types : List Stub
deriving Repr, DecidableEq

/-- `root`: the kind may be the root of a tree. `extra`: it may appear anywhere. -/
structure Flags where
  root : Bool
  extra : Bool
deriving Repr, DecidableEq

structure Entry where
  name : String
  isNamed : Bool
  flags : Flags
  fields : Registry Slot
  children : Option Slot
  subtypes : Option (List Stub)
deriving Repr, DecidableEq

inductive Declaration where
  | literal (value : String) (flags : Flags)
  | leaf (name : String) (flags : Flags)
  | supertype (name : String) (subtypes : List Stub) (flags : Flags)
  | branch (name : String) (fields : Registry Slot) (children : Option Slot) (flags : Flags)
deriving Repr, DecidableEq

namespace Declaration

def stub : Declaration → Stub
  | literal value _ => .literal value
  | leaf name _ | supertype name _ _ | branch name _ _ _ => .named name

def flags : Declaration → Flags
  | literal _ flags | leaf _ flags | supertype _ _ flags | branch _ _ _ flags => flags

def isLiteral : Declaration → Bool
  | literal .. => true
  | _ => false

def isLeaf : Declaration → Bool
  | leaf .. => true
  | _ => false

def isSupertype : Declaration → Bool
  | supertype .. => true
  | _ => false

def isBranch : Declaration → Bool
  | branch .. => true
  | _ => false

end Declaration

inductive Defect where
  | emptyName
  | literalWithStructure
  | supertypeWithStructure
deriving Repr, DecidableEq

def Defect.reason : Defect → String
  | emptyName => "kind name is empty"
  | literalWithStructure => "literal kind declares structure"
  | supertypeWithStructure => "supertype declares fields or children"

inductive Refusal where
  | unreadable (found : Json.Located)
  | malformed (kind : String) (defect : Defect)
deriving Repr, DecidableEq

def Refusal.message : Refusal → String
  | unreadable found => "invalid grammar descriptor: " ++ found.message
  | malformed kind defect => "malformed kind `" ++ kind ++ "`: " ++ defect.reason

namespace Entry

def hasStructure (entry : Entry) : Bool := !entry.fields.isEmpty || entry.children.isSome

def classify (entry : Entry) : Except Refusal Declaration :=
  if entry.name.isEmpty then .error (.malformed entry.name .emptyName)
  else if !entry.isNamed then
    if entry.hasStructure || entry.subtypes.isSome then .error (.malformed entry.name .literalWithStructure)
    else .ok (.literal entry.name entry.flags)
  else match entry.subtypes with
    | some subtypes =>
      if entry.hasStructure then .error (.malformed entry.name .supertypeWithStructure)
      else .ok (.supertype entry.name subtypes entry.flags)
    | none =>
      .ok (if entry.hasStructure then .branch entry.name entry.fields entry.children entry.flags
        else .leaf entry.name entry.flags)

end Entry

/-! Reading the description from JSON. -/

open Json (Reader)

def readStub : Reader Stub := do
  let (text, isNamed) ← Reader.record "struct RawStub"
    [⟨"type", do let text ← Reader.string; return fun (_, isNamed) => (text, isNamed), true, true⟩,
     ⟨"named", do let isNamed ← Reader.boolean; return fun (text, _) => (text, isNamed), true, true⟩]
    ("", false)
  return .of isNamed text

def readSlot : Reader Slot := Reader.record "struct RawChildren"
  [⟨"multiple", do let multiple ← Reader.boolean; return ({ · with multiple }), true, true⟩,
   ⟨"required", do let required ← Reader.boolean; return ({ · with required }), true, true⟩,
   ⟨"types", do let types ← Reader.list readStub; return ({ · with types }), true, true⟩]
  ⟨false, false, []⟩

def readEntry : Reader Entry := Reader.record "struct RawNode"
  [⟨"type", do let name ← Reader.string; return ({ · with name }), true, true⟩,
   ⟨"named", do let isNamed ← Reader.boolean; return ({ · with isNamed }), true, true⟩,
   ⟨"root", do
      let root ← Reader.boolean
      return fun entry => { entry with flags := { entry.flags with root } }, false, false⟩,
   ⟨"extra", do
      let extra ← Reader.boolean
      return fun entry => { entry with flags := { entry.flags with extra } }, false, false⟩,
   ⟨"fields", do let fields ← Reader.map readSlot; return ({ · with fields }), false, false⟩,
   ⟨"children", do let children ← Reader.optional readSlot; return ({ · with children }), false, true⟩,
   ⟨"subtypes", do
      let subtypes ← Reader.optional (Reader.list readStub)
      return ({ · with subtypes }), false, true⟩]
  ⟨"", false, ⟨false, false⟩, .empty, none, none⟩

/-- The declarations of a description. A text that cannot be read is refused before any
entry is classified. -/
def declarations (source : String) : Except Refusal (List Declaration) :=
  match (Reader.list readEntry).run source with
  | .error found => .error (.unreadable found)
  | .ok entries => entries.mapM Entry.classify

end TreeQuery.Grammar
