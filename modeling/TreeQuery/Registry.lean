/-! Values under names, in the order in which the names first came. A value given again
under a name takes the place of the one before it. -/

namespace TreeQuery

structure Registry (α : Type) where
  entries : List (String × α)
deriving Repr, DecidableEq

namespace Registry

variable {α : Type}

def empty : Registry α := ⟨[]⟩

instance : Inhabited (Registry α) := ⟨empty⟩

/-- Replaces the value under a name by what `change` makes of it, or adds one. -/
def alterEntries (name : String) (change : Option α → α) : List (String × α) → List (String × α)
  | [] => [(name, change none)]
  | (key, value) :: rest =>
    if key = name then (key, change (some value)) :: rest else (key, value) :: alterEntries name change rest

def alter (registry : Registry α) (name : String) (change : Option α → α) : Registry α :=
  ⟨alterEntries name change registry.entries⟩

def insert (registry : Registry α) (name : String) (value : α) : Registry α :=
  registry.alter name fun _ => value

def erase (registry : Registry α) (name : String) : Registry α :=
  ⟨registry.entries.filter (·.1 ≠ name)⟩

def get? (registry : Registry α) (name : String) : Option α := registry.entries.lookup name

def contains (registry : Registry α) (name : String) : Bool := (registry.get? name).isSome

def names (registry : Registry α) : List String := registry.entries.map (·.1)

def values (registry : Registry α) : List α := registry.entries.map (·.2)

def isEmpty (registry : Registry α) : Bool := registry.entries.isEmpty

def size (registry : Registry α) : Nat := registry.entries.length

def mapValues {β : Type} (registry : Registry α) (f : α → β) : Registry β :=
  ⟨registry.entries.map fun (name, value) => (name, f value)⟩

end Registry

end TreeQuery
