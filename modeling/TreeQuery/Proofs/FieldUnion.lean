import TreeQuery.Proofs.EnvironmentContents

/-! What an environment holds under a field name: all that the single kinds declare under it, whatever
the order in which they were joined. -/

namespace TreeQuery.Grammar

namespace Subnode

/-- One declaration after the other merged into the first. -/
def unite : List Subnode → Option Subnode
  | [] => none
  | first :: rest => some (rest.foldl merge first)

/-- Equal, the order of the types apart. -/
structure Alike (one other : Subnode) : Prop where
  multiple : one.multiple = other.multiple
  required : one.required = other.required
  types : ∀ target, one.types.Has target ↔ other.types.Has target

/-- The union of some declarations, each property by itself. -/
structure Unites (slots : List Subnode) (union : Subnode) : Prop where
  multiple : union.multiple = true ↔ ∃ slot ∈ slots, slot.multiple = true
  required : union.required = true ↔ ∀ slot ∈ slots, slot.required = true
  types : ∀ target, union.types.Has target ↔ ∃ slot ∈ slots, slot.types.Has target

variable {slots others : List Subnode} {union other : Subnode}

private theorem merge_unites (unites : Unites slots union) (slot : Subnode) : Unites (slots ++ [slot]) (union.merge slot) := by
  refine ⟨?_, ?_, fun target => ?_⟩
  · simp [merge, unites.multiple, or_and_right, exists_or]
  · simp [merge, unites.required, or_imp, forall_and]
  · simp [merge, FlatTypes.has_extend, unites.types, or_and_right, exists_or]

theorem unite_unites (found : unite slots = some union) : Unites slots union := by
  cases slots with
  | nil => cases found
  | cons first rest =>
    obtain rfl : rest.foldl merge first = union := Option.some.inj found
    have joined (before : List Subnode) {union : Subnode} (unites : Unites before union) :
        Unites (before ++ rest) (rest.foldl merge union) := by
      induction rest generalizing before union with
      | nil => simpa using unites
      | cons slot rest ih => simpa using ih rfl _ (merge_unites unites slot)
    exact joined [first] ⟨by simp, by simp, by simp⟩

theorem unite_isSome : (unite slots).isSome = true ↔ ∃ slot, slot ∈ slots := by
  cases slots with
  | nil => simp [unite]
  | cons first rest => simp [unite]

private theorem Unites.alike (unites : Unites slots union) (more : Unites others other)
    (same : ∀ slot, slot ∈ slots ↔ slot ∈ others) : union.Alike other := by
  refine ⟨?_, ?_, fun target => ?_⟩
  · rw [Bool.eq_iff_iff, unites.multiple, more.multiple]
    simp only [same]
  · rw [Bool.eq_iff_iff, unites.required, more.required]
    simp only [same]
  · rw [unites.types, more.types]
    simp only [same]

/-- The order in which declarations are merged does not matter. -/
theorem unite_alike (same : ∀ slot, slot ∈ slots ↔ slot ∈ others) : Option.Rel Alike (unite slots) (unite others) := by
  cases found : unite slots with
  | none =>
    have none : unite others = none := by
      rw [← Option.not_isSome_iff_eq_none, unite_isSome] at found ⊢
      simpa only [same] using found
    rw [none]
    exact .none
  | some union =>
    obtain ⟨other, more⟩ : ∃ other, unite others = some other := by
      rw [← Option.isSome_iff_exists, unite_isSome]
      simpa only [same] using unite_isSome.mp (Option.isSome_of_eq_some found)
    rw [more]
    exact .some ((unite_unites found).alike (unite_unites more) same)

end Subnode

/-- What some kinds declare under a field name, one declaration after the other. -/
def slotsOf (kinds : List NamedKind) (field : String) : List Subnode :=
  ((kinds.flatMap (·.fields.entries)).filter (·.1 = field)).map (·.2)

theorem mem_slotsOf {kinds : List NamedKind} {field : String} {slot : Subnode} :
    slot ∈ slotsOf kinds field ↔ ∃ kind ∈ kinds, (field, slot) ∈ kind.fields.entries := by
  simp only [slotsOf, List.mem_map, List.mem_filter, List.mem_flatMap, decide_eq_true_eq]
  constructor
  · rintro ⟨⟨_, _⟩, ⟨declared, rfl⟩, rfl⟩
    exact declared
  · intro declared
    exact ⟨(field, slot), ⟨declared, rfl⟩, rfl⟩

private theorem mergeFields_get? (entries : List (String × Subnode)) (before : Registry Subnode) (field : String) :
    (entries.foldl Environment.mergeField before).get? field =
      Subnode.unite ((before.get? field).toList ++ (entries.filter (·.1 = field)).map (·.2)) := by
  induction entries generalizing before with
  | nil => cases held : before.get? field <;> simp [held, Subnode.unite]
  | cons entry rest ih =>
    obtain ⟨name, slot⟩ := entry
    rw [List.foldl_cons, ih, Environment.mergeField, Registry.get?_alter]
    by_cases same : field = name
    · subst same
      cases held : before.get? field <;> simp [Subnode.unite]
    · have other : ¬ name = field := fun back => same back.symm
      simp [same, other]

/-- A field is the union of its declarations by all kinds, and there is none where no kind declares it. -/
theorem unionOfFields_get? (kinds : List NamedKind) (field : String) :
    (Environment.unionOfFields kinds).get? field = Subnode.unite (slotsOf kinds field) :=
  mergeFields_get? _ _ field

end TreeQuery.Grammar
