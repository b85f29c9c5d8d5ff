import TreeQuery.Proofs.FieldUnion

/-! The order in which a description declares its kinds. Where named entries have names of their own, an
environment is told by what it holds under each name, and that is told by the declarations, in whatever order. -/

namespace TreeQuery.Grammar

variable {kinds others : List Declaration} {name : String}

private theorem Distinct.perm (distinct : Distinct kinds) (permuted : kinds.Perm others) : Distinct others := by
  refine (permuted.pairwise_iff fun {one other} apart named same => ?_).mp distinct
  exact apart (same ▸ named) same.symm

/-- Each name stands for the same subtypes. -/
private theorem subtypes?_perm (distinct : Distinct kinds) (permuted : kinds.Perm others) :
    subtypes? kinds = subtypes? others := by
  funext name
  cases found : subtypes? kinds name with
  | some subtypes =>
    obtain ⟨flags, declared⟩ := declared_of_subtypes? found
    exact (subtypes?_of_declared (distinct.perm permuted) (permuted.subset declared)).symm
  | none =>
    refine (Option.eq_none_iff_forall_ne_some.mpr fun subtypes other => ?_).symm
    obtain ⟨flags, declared⟩ := declared_of_subtypes? other
    exact plain_of_subtypes? found subtypes flags (permuted.symm.subset declared)

section Resolving

variable (same : subtypes? kinds = subtypes? others)
include same

private theorem Expansion.step_congr : step kinds = step others := by
  funext state
  simp only [step, same]

private theorem Expansion.run_congr (steps : Nat) : run kinds steps = run others steps := by
  induction steps with
  | zero => rfl
  | succ steps ih =>
    funext state
    simp only [run, ih, step_congr same]

private theorem expandSupertype_congr : expandSupertype kinds = expandSupertype others := by
  funext name subtypes found
  simp only [expandSupertype, expansion, Expansion.run_congr same]

private theorem flatten_congr : flatten kinds = flatten others := by
  funext stubs
  have each : flattenStub kinds = flattenStub others := by
    funext found stub
    simp only [flattenStub, same, expandSupertype_congr same]
  simp only [flatten, each]

private theorem NamedKind.Drawn.congr {declared : Declaration} {kind : NamedKind} (drawn : Drawn kinds declared kind) :
    Drawn others declared kind := by
  cases drawn with
  | leaf name flags => exact .leaf name flags
  | branch name fields children flags =>
    have slots : Subnode.ofSlot kinds = Subnode.ofSlot others := by
      funext slot
      simp only [Subnode.ofSlot, flatten_congr same]
    have made : NamedKind.branch kinds = NamedKind.branch others := by
      funext name fields children flags
      simp only [NamedKind.branch, slots]
    rw [made]
    exact .branch name fields children flags

end Resolving

private theorem NamedKind.Drawn.unique {declared : Declaration} {kind other : NamedKind} (drawn : Drawn kinds declared kind)
    (again : Drawn kinds declared other) : kind = other := by
  cases drawn <;> cases again <;> rfl

namespace Environment

/-- Equal in every answer, if not in the order of what they list. -/
structure Alike (one other : Environment) : Prop where
  kind : ∀ name, one.kinds.get? name = other.kinds.get? name
  supertype : ∀ name, one.supertypes.get? name = other.supertypes.get? name
  field : ∀ name, Option.Rel Subnode.Alike (one.fields.get? name) (other.fields.get? name)
  literal : ∀ value, value ∈ one.literals ↔ value ∈ other.literals

private theorem kinds_get?_iff (distinct : Distinct kinds) {kind : NamedKind} :
    (ofDeclarations kinds).kinds.get? name = some kind ↔
      ∃ declared ∈ kinds, declared.stub = .named name ∧ NamedKind.Drawn kinds declared kind := by
  constructor
  · exact (ofDeclarations_drawn kinds).kind name kind
  · rintro ⟨declared, member, same, own⟩
    have lists := ofDeclarations_lists member
    obtain ⟨other, held⟩ : ∃ other, (ofDeclarations kinds).kinds.get? name = some other := by
      apply (Registry.contains_iff ..).mp
      cases own <;> cases same <;> exact lists
    obtain ⟨again, among, named, drawn⟩ := (ofDeclarations_drawn kinds).kind name other held
    cases declared_once distinct member among (same ▸ rfl) (same.trans named.symm)
    rw [held, own.unique drawn]

private theorem supertypes_get?_iff (distinct : Distinct kinds) {supertype : Supertype} :
    (ofDeclarations kinds).supertypes.get? name = some supertype ↔
      ∃ subtypes flags, Declaration.supertype name subtypes flags ∈ kinds ∧
        supertype = ⟨name, flattenSupertype kinds name subtypes, flags⟩ := by
  constructor
  · exact (ofDeclarations_drawn kinds).supertype name supertype
  · rintro ⟨subtypes, flags, member, rfl⟩
    obtain ⟨other, held⟩ := (Registry.contains_iff ..).mp (ofDeclarations_lists member)
    obtain ⟨_, _, among, rfl⟩ := (ofDeclarations_drawn kinds).supertype name other held
    cases declared_once distinct member among rfl rfl
    exact held

private theorem declare_literal {env : Environment} {declared : Declaration} {value : String}
    (member : value ∈ (declare kinds env declared).literals) :
    value ∈ env.literals ∨ ∃ flags, declared = .literal value flags := by
  cases declared with
  | literal text flags =>
    rcases (mem_addNew ..).mp member with before | rfl
    · exact .inl before
    · exact .inr ⟨flags, rfl⟩
  | leaf | supertype | branch => exact .inl member

private theorem literals_iff {value : String} :
    value ∈ (ofDeclarations kinds).literals ↔ ∃ flags, Declaration.literal value flags ∈ kinds := by
  constructor
  · have none : value ∉ empty.literals := List.not_mem_nil
    refine List.foldlRecOn (motive := fun env => value ∈ env.literals → ∃ flags, Declaration.literal value flags ∈ kinds)
      kinds (declare kinds) (absurd · none) fun env before declared among member => ?_
    rcases declare_literal member with early | ⟨flags, rfl⟩
    · exact before early
    · exact ⟨flags, among⟩
  · rintro ⟨flags, member⟩
    exact ofDeclarations_lists member

private theorem declare_values {env : Environment} {declared : Declaration} (member : declared ∈ kinds)
    (before : ∀ kind ∈ env.kinds.values, ∃ declared ∈ kinds, NamedKind.Drawn kinds declared kind) :
    ∀ kind ∈ (declare kinds env declared).kinds.values, ∃ declared ∈ kinds, NamedKind.Drawn kinds declared kind := by
  cases declared with
  | literal | supertype => exact before
  | leaf name flags => exact Registry.insert_all before ⟨_, member, .leaf name flags⟩
  | branch name fields children flags => exact Registry.insert_all before ⟨_, member, .branch name fields children flags⟩

private theorem mem_kinds (distinct : Distinct kinds) {kind : NamedKind} :
    kind ∈ (ofDeclarations kinds).kinds.values ↔ ∃ declared ∈ kinds, NamedKind.Drawn kinds declared kind := by
  constructor
  · have drawn : ∀ kind ∈ (kinds.foldl (declare kinds) empty).kinds.values,
        ∃ declared ∈ kinds, NamedKind.Drawn kinds declared kind :=
      List.foldlRecOn (motive := fun env => ∀ kind ∈ env.kinds.values, ∃ declared ∈ kinds, NamedKind.Drawn kinds declared kind)
        kinds (declare kinds) (List.forall_mem_nil _) fun _ before _ member => declare_values member before
    exact drawn kind
  · rintro ⟨declared, member, own⟩
    obtain ⟨name, same⟩ : ∃ name, declared.stub = .named name := by cases own <;> exact ⟨_, rfl⟩
    have held := (kinds_get?_iff distinct).mpr ⟨declared, member, same, own⟩
    exact List.mem_map.mpr ⟨_, Registry.entry_of_get? held, rfl⟩

/-- The order of the declarations makes no difference to what an environment answers. -/
theorem ofDeclarations_perm (distinct : Distinct kinds) (permuted : kinds.Perm others) :
    (ofDeclarations kinds).Alike (ofDeclarations others) := by
  have apart := distinct.perm permuted
  have same := subtypes?_perm distinct permuted
  have drawn {declared : Declaration} {kind : NamedKind} :
      NamedKind.Drawn kinds declared kind ↔ NamedKind.Drawn others declared kind := ⟨.congr same, .congr same.symm⟩
  refine ⟨fun name => ?_, fun name => ?_, fun name => ?_, fun value => ?_⟩
  · refine Option.ext fun kind => ?_
    simp only [kinds_get?_iff distinct, kinds_get?_iff apart, permuted.mem_iff, drawn]
  · refine Option.ext fun supertype => ?_
    simp only [supertypes_get?_iff distinct, supertypes_get?_iff apart, permuted.mem_iff, flattenSupertype,
      expandSupertype_congr same]
  · change Option.Rel _ ((unionOfFields (ofDeclarations kinds).kinds.values).get? name)
      ((unionOfFields (ofDeclarations others).kinds.values).get? name)
    rw [unionOfFields_get?, unionOfFields_get?]
    refine Subnode.unite_alike fun slot => ?_
    simp only [mem_slotsOf, mem_kinds distinct, mem_kinds apart, permuted.mem_iff, drawn]
  · simp only [literals_iff, permuted.mem_iff]

variable {one other : Environment}

theorem Alike.contains (alike : one.Alike other) (name : String) : one.kinds.contains name = other.kinds.contains name := by
  rw [Registry.contains, Registry.contains, alike.kind]

theorem Alike.field_cases (alike : one.Alike other) (name : String) :
    one.fields.get? name = none ∧ other.fields.get? name = none ∨
      ∃ slot twin, one.fields.get? name = some slot ∧ other.fields.get? name = some twin ∧ slot.Alike twin := by
  have same := alike.field name
  generalize one.fields.get? name = here, other.fields.get? name = there at same
  cases same with
  | none => exact .inl ⟨rfl, rfl⟩
  | some same => exact .inr ⟨_, _, rfl, rfl, same⟩

theorem Alike.isEmpty (alike : one.Alike other) : one.isEmpty = other.isEmpty := by
  have kinds (env : Environment) : env.kinds.isEmpty = true ↔ ∀ name, env.kinds.get? name = none := by
    obtain ⟨_, ⟨entries⟩, _, _⟩ := env
    cases entries with
    | nil => exact ⟨fun _ _ => rfl, fun _ => rfl⟩
    | cons entry rest =>
      refine ⟨nofun, fun none => ?_⟩
      simpa [Registry.get?] using none entry.1
  have literals (env : Environment) : env.literals.isEmpty = true ↔ ∀ value, value ∉ env.literals := by
    rw [List.isEmpty_iff, List.eq_nil_iff_forall_not_mem]
  rw [Bool.eq_iff_iff, Environment.isEmpty, Environment.isEmpty, Bool.and_eq_true, Bool.and_eq_true, kinds, kinds, literals,
    literals]
  simp only [alike.kind, alike.literal]

end Environment

end TreeQuery.Grammar
