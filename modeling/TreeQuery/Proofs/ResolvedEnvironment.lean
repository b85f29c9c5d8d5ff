import TreeQuery.Proofs.EnvironmentContents

/-! No supertype is left in an environment. Whatever a description declares, twice or in a circle, and wherever
an expansion is cut off: every set of types that the environment allows somewhere holds concrete names only. -/

namespace TreeQuery.Grammar

/-- Every set of types that an environment allows somewhere: in a kind, in one of its fields, among its children,
in a field of any kind, and in place of a supertype. -/
def Environment.allowed (env : Environment) : List FlatTypes :=
  env.kinds.values.flatMap (fun kind => kind.types :: (kind.fields.values ++ kind.children.toList).map Subnode.types) ++
    env.fields.values.map Subnode.types ++ env.supertypes.values.map Supertype.members

variable {kinds : List Declaration} {types more : FlatTypes}

namespace FlatTypes

private theorem empty_plain : FlatTypes.empty.Plain kinds := List.forall_mem_nil _

private theorem Plain.addName {name : String} (plain : types.Plain kinds) (concrete : subtypes? kinds name = none) :
    (types.addName name).Plain kinds := by
  intro other member
  rcases (mem_addNew ..).mp member with before | same
  · exact plain other before
  · exact same ▸ concrete

private theorem Plain.extend (plain : types.Plain kinds) (further : more.Plain kinds) : (types.extend more).Plain kinds := by
  intro name member
  exact ((mem_addAll ..).mp member).elim (plain name) (further name)

end FlatTypes

theorem flatten_plain (kinds : List Declaration) (stubs : List Stub) : (flatten kinds stubs).Plain kinds := by
  refine List.foldlRecOn stubs (flattenStub kinds) FlatTypes.empty_plain fun found plain stub _ => ?_
  unfold flattenStub
  split
  · exact plain
  · split
    next concrete => exact plain.addName concrete
    next => exact expandSupertype_plain plain

private theorem flattenSupertype_plain (kinds : List Declaration) (name : String) (subtypes : List Stub) :
    (flattenSupertype kinds name subtypes).Plain kinds := expandSupertype_plain FlatTypes.empty_plain

/-- A kind, its fields and its children allow concrete names only. -/
structure NamedKind.Plain (kinds : List Declaration) (kind : NamedKind) : Prop where
  types : kind.types.Plain kinds
  slots : ∀ slot ∈ kind.fields.values ++ kind.children.toList, slot.types.Plain kinds

private theorem NamedKind.branch_plain (kinds : List Declaration) (name : String) (fields : Registry Slot)
    (children : Option Slot)
    (flags : Flags) : (NamedKind.branch kinds name fields children flags).Plain kinds := by
  have slots : ∀ slot ∈ (fields.mapValues (Subnode.ofSlot kinds)).values ++ (children.map (Subnode.ofSlot kinds)).toList,
      slot.types.Plain kinds := by
    intro slot member
    rw [NamedKind.Drawn.branch_slots] at member
    obtain ⟨declared, _, rfl⟩ := List.mem_map.mp member
    exact flatten_plain kinds declared.types
  refine ⟨?_, slots⟩
  exact List.foldlRecOn _ _ FlatTypes.empty_plain fun types plain slot member => plain.extend (slots slot member)

namespace Environment

/-- What is kept while declarations are taken in. -/
structure Plain (kinds : List Declaration) (env : Environment) : Prop where
  named : ∀ kind ∈ env.kinds.values, kind.Plain kinds
  supertypes : ∀ supertype ∈ env.supertypes.values, supertype.members.Plain kinds

private theorem declare_plain {env : Environment} (plain : env.Plain kinds) (declared : Declaration) :
    (declare kinds env declared).Plain kinds := by
  cases declared with
  | literal => exact ⟨plain.named, plain.supertypes⟩
  | leaf name flags =>
    have bare : (NamedKind.leaf name flags).Plain kinds := ⟨FlatTypes.empty_plain, List.forall_mem_nil _⟩
    exact ⟨Registry.insert_all plain.named bare, plain.supertypes⟩
  | branch name fields children flags =>
    exact ⟨Registry.insert_all plain.named (NamedKind.branch_plain kinds name fields children flags), plain.supertypes⟩
  | supertype name subtypes flags =>
    exact ⟨plain.named, Registry.insert_all plain.supertypes (flattenSupertype_plain kinds name subtypes)⟩

private theorem unionOfFields_plain {named : List NamedKind} (plain : ∀ kind ∈ named, kind.Plain kinds) :
    ∀ slot ∈ (unionOfFields named).values, slot.types.Plain kinds := by
  have none : ∀ slot ∈ (Registry.empty : Registry Subnode).values, slot.types.Plain kinds := List.forall_mem_nil _
  refine List.foldlRecOn (motive := fun fields => ∀ slot ∈ fields.values, slot.types.Plain kinds) _ mergeField none
    fun fields before field member => ?_
  obtain ⟨kind, among, held⟩ := List.mem_flatMap.mp member
  have own : field.2.types.Plain kinds :=
    (plain kind among).slots _ (List.mem_append_left _ (List.mem_map_of_mem held))
  exact Registry.alter_all before own fun _ merged => merged.extend own

/-- No set of types that an environment allows names a supertype of the description. -/
theorem ofDeclarations_resolved (kinds : List Declaration) (types : FlatTypes) (allowed : types ∈ (ofDeclarations kinds).allowed)
    (name : String) (listed : name ∈ types.names) (subtypes : List Stub) (flags : Flags) :
    Declaration.supertype name subtypes flags ∉ kinds := by
  have plain : (kinds.foldl (declare kinds) empty).Plain kinds :=
    List.foldlRecOn kinds (declare kinds) ⟨List.forall_mem_nil _, List.forall_mem_nil _⟩ fun _ plain declared _ =>
      declare_plain plain declared
  have fields := unionOfFields_plain plain.named
  suffices concrete : types.Plain kinds from plain_of_subtypes? (concrete name listed) subtypes flags
  rcases List.mem_append.mp allowed with first | member
  · rcases List.mem_append.mp first with own | shared
    · obtain ⟨kind, among, own⟩ := List.mem_flatMap.mp own
      have kindPlain := plain.named kind among
      rcases List.mem_cons.mp own with rfl | slot
      · exact kindPlain.types
      · obtain ⟨held, among, rfl⟩ := List.mem_map.mp slot
        exact kindPlain.slots held among
    · obtain ⟨slot, held, rfl⟩ := List.mem_map.mp shared
      exact fields slot held
  · obtain ⟨supertype, held, rfl⟩ := List.mem_map.mp member
    exact plain.supertypes supertype held

/-- A name declared as a leaf and as two supertypes that name each other. -/
theorem cyclic_resolved :
    let flags : Flags := ⟨false, false⟩
    let kinds : List Declaration := [.supertype "a" [.named "b", .named "x"] flags,
      .supertype "b" [.named "a", .literal "y"] flags, .leaf "a" flags,
      .branch "c" ⟨[("value", ⟨false, true, [.named "a"]⟩)]⟩ none flags]
    ⟨["x"], ["y"]⟩ ∈ (ofDeclarations kinds).allowed ∧ .supertype "x" [] flags ∉ kinds := by
  intro flags kinds
  have allowed : ⟨["x"], ["y"]⟩ ∈ (ofDeclarations kinds).allowed := by decide +kernel
  exact ⟨allowed, ofDeclarations_resolved kinds ⟨["x"], ["y"]⟩ allowed "x" List.mem_cons_self [] flags⟩

end Environment

end TreeQuery.Grammar
