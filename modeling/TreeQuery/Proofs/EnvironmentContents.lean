import TreeQuery.Grammar.Environment
import TreeQuery.Proofs.RegistryLookup
import TreeQuery.Proofs.SupertypeReach

/-! What an environment holds under a name, read off the declarations that it was built from.
Names that are declared twice are held once, so that an entry has its declaration always and
a declaration has its entry only where names are distinct. -/

namespace TreeQuery.Grammar

namespace Declaration

def isConcrete : Declaration → Bool
  | leaf .. | branch .. => true
  | _ => false

def stubs : Declaration → List Stub
  | branch _ fields children _ => (fields.values ++ children.toList).flatMap Slot.types
  | _ => []

/-- The kind's own declaration of a field. -/
def slot? (field : String) : Declaration → Option Slot
  | branch _ fields _ _ => fields.get? field
  | _ => none

end Declaration

/-- The entry that a declaration makes for a concrete kind. -/
inductive NamedKind.Drawn (kinds : List Declaration) : Declaration → NamedKind → Prop
  | leaf (name : String) (flags : Flags) : Drawn kinds (.leaf name flags) (.leaf name flags)
  | branch (name : String) (fields : Registry Slot) (children : Option Slot) (flags : Flags) :
    Drawn kinds (.branch name fields children flags) (.branch kinds name fields children flags)

namespace NamedKind.Drawn

variable {kinds : List Declaration} {declared : Declaration} {kind : NamedKind} {target : Stub}

theorem concrete (drawn : Drawn kinds declared kind) : declared.isConcrete = true := by
  cases drawn <;> rfl

theorem flags_same (drawn : Drawn kinds declared kind) : kind.flags = declared.flags := by
  cases drawn <;> rfl

theorem closed (drawn : Drawn kinds declared kind) (refuses : kind.acceptsSubnodes = false) (target : Stub) :
    ¬ kind.types.Has target := by
  cases drawn with
  | leaf => exact FlatTypes.has_empty
  | branch name fields children flags =>
    have bare : (fields.mapValues (Subnode.ofSlot kinds)).values ++ (children.map (Subnode.ofSlot kinds)).toList = [] := by
      simpa [acceptsSubnodes, NamedKind.branch, Registry.isEmpty, Registry.values, and_comm] using refuses
    unfold NamedKind.branch
    simp only [bare]
    exact FlatTypes.has_empty

theorem fields_get? (drawn : Drawn kinds declared kind) (field : String) :
    kind.fields.get? field = (declared.slot? field).map (.ofSlot kinds) := by
  cases drawn with
  | leaf => rfl
  | branch => exact Registry.get?_mapValues ..

theorem has_union (slots : List Subnode) (found : FlatTypes) :
    (slots.foldl (fun types slot => types.extend slot.types) found).Has target ↔
      found.Has target ∨ ∃ slot ∈ slots, slot.types.Has target := by
  induction slots generalizing found with
  | nil => simp
  | cons slot rest ih => simp [ih, FlatTypes.has_extend, or_assoc]

theorem branch_slots (fields : Registry Slot) (children : Option Slot) :
    (fields.mapValues (Subnode.ofSlot kinds)).values ++ (children.map (Subnode.ofSlot kinds)).toList =
      (fields.values ++ children.toList).map (Subnode.ofSlot kinds) := by
  rw [List.map_append, ← Option.toList_map]
  simp [Registry.values, Registry.mapValues]

/-- A kind allows among its items what its own references reach. -/
theorem has_types (distinct : Distinct kinds) (limited : WithinLimit kinds) (drawn : Drawn kinds declared kind)
    (target : Stub) :
    kind.types.Has target ↔ Reach kinds declared.stubs target := by
  cases drawn with
  | leaf =>
    constructor
    · exact fun has => absurd has FlatTypes.has_empty
    · exact fun ⟨_, member, _⟩ => absurd member List.not_mem_nil
  | branch name fields children flags =>
    simp only [NamedKind.branch, branch_slots, has_union, Declaration.stubs]
    constructor
    · rintro (before | ⟨_, made, has⟩)
      · exact absurd before FlatTypes.has_empty
      · obtain ⟨slot, member, rfl⟩ := List.mem_map.mp made
        obtain ⟨stub, among, reaches⟩ := (has_flatten distinct limited slot.types target).mp has
        exact ⟨stub, List.mem_flatMap.mpr ⟨slot, member, among⟩, reaches⟩
    · rintro ⟨stub, among, reaches⟩
      obtain ⟨slot, member, among⟩ := List.mem_flatMap.mp among
      have has := (has_flatten distinct limited slot.types target).mpr ⟨stub, among, reaches⟩
      exact .inr ⟨_, List.mem_map.mpr ⟨slot, member, rfl⟩, has⟩

end NamedKind.Drawn

namespace Environment

/-- Every entry comes from a declaration of its name. -/
structure Drawn (kinds : List Declaration) (env : Environment) : Prop where
  kind : ∀ name kind, env.kinds.get? name = some kind →
    ∃ declared ∈ kinds, declared.stub = .named name ∧ NamedKind.Drawn kinds declared kind
  supertype : ∀ name supertype, env.supertypes.get? name = some supertype →
    ∃ subtypes flags, Declaration.supertype name subtypes flags ∈ kinds ∧
      supertype = ⟨name, flattenSupertype kinds name subtypes, flags⟩

/-- The environment knows the name of a declaration as what it declares. -/
def Lists (env : Environment) : Declaration → Prop
  | .literal value _ => value ∈ env.literals
  | .leaf name _ | .branch name .. => env.kinds.contains name = true
  | .supertype name .. => env.supertypes.contains name = true

variable {kinds : List Declaration} {env : Environment} {declared : Declaration}

private theorem declare_drawn (member : declared ∈ kinds) (drawn : Drawn kinds env) :
    Drawn kinds (declare kinds env declared) := by
  have inserted {name : String} {made : NamedKind} (same : declared.stub = .named name)
      (own : NamedKind.Drawn kinds declared made) : Drawn kinds { env with kinds := env.kinds.insert name made } := by
    refine ⟨fun other kind found => ?_, drawn.supertype⟩
    rw [Registry.get?_insert] at found
    split at found
    next here =>
      cases found
      exact ⟨declared, member, here ▸ same, own⟩
    next => exact drawn.kind other kind found
  cases declared with
  | literal value flags => exact ⟨drawn.kind, drawn.supertype⟩
  | leaf name flags => exact inserted rfl (.leaf name flags)
  | branch name fields children flags => exact inserted rfl (.branch name fields children flags)
  | supertype name subtypes flags =>
    refine ⟨drawn.kind, fun other supertype found => ?_⟩
    simp only [declare, Registry.get?_insert] at found
    split at found
    next here =>
      cases found
      exact ⟨subtypes, flags, here ▸ member, here ▸ rfl⟩
    next => exact drawn.supertype other supertype found

private theorem declare_lists (env : Environment) (declared : Declaration) : (declare kinds env declared).Lists declared := by
  cases declared with
  | literal => exact (mem_addNew ..).mpr (.inr rfl)
  | leaf | branch | supertype => exact (Registry.contains_insert ..).mpr (.inl rfl)

private theorem declare_keeps (other : Declaration) (lists : env.Lists other) : (declare kinds env declared).Lists other := by
  cases other with
  | literal =>
    cases declared with
    | literal => exact (mem_addNew ..).mpr (.inl lists)
    | _ => exact lists
  | leaf | branch =>
    cases declared with
    | leaf | branch => exact (Registry.contains_insert ..).mpr (.inr lists)
    | _ => exact lists
  | supertype =>
    cases declared with
    | supertype => exact (Registry.contains_insert ..).mpr (.inr lists)
    | _ => exact lists

theorem ofDeclarations_drawn (kinds : List Declaration) : Drawn kinds (ofDeclarations kinds) := by
  have begin : Drawn kinds empty := ⟨nofun, nofun⟩
  have drawn : Drawn kinds (kinds.foldl (declare kinds) empty) :=
    List.foldlRecOn kinds (declare kinds) begin fun _ drawn _ member => declare_drawn member drawn
  exact ⟨drawn.kind, drawn.supertype⟩

theorem ofDeclarations_lists (member : declared ∈ kinds) : (ofDeclarations kinds).Lists declared := by
  have lists : (kinds.foldl (declare kinds) empty).Lists declared := by
    obtain ⟨before, after, split⟩ := List.append_of_mem member
    have made : (declare kinds (before.foldl (declare kinds) empty) declared).Lists declared := declare_lists ..
    rw [congrArg (List.foldl (declare kinds) empty) split, List.foldl_append, List.foldl_cons]
    exact List.foldlRecOn (motive := (Lists · declared)) after _ made fun _ lists _ _ => declare_keeps declared lists
  cases declared <;> exact lists

end Environment

end TreeQuery.Grammar
