import TreeQuery.Registry

/-! What a registry answers after it was changed. -/

namespace TreeQuery.Registry

variable {α β : Type}

private theorem lookup_entry (key name : String) (value : α) (rest : List (String × α)) :
    ((name, value) :: rest).lookup key = if key = name then some value else rest.lookup key := by
  by_cases same : key = name
  · rw [if_pos same, same, List.lookup_cons_self]
  · rw [if_neg same, List.lookup_cons, beq_eq_false_iff_ne.mpr same]

theorem get?_alter (registry : Registry α) (name key : String) (change : Option α → α) :
    (registry.alter name change).get? key =
      if key = name then some (change (registry.get? name)) else registry.get? key := by
  obtain ⟨entries⟩ := registry
  simp only [alter, get?]
  induction entries with
  | nil => rw [alterEntries, lookup_entry]; rfl
  | cons entry rest ih =>
    obtain ⟨first, value⟩ := entry
    unfold alterEntries
    by_cases here : first = name
    · subst here
      rw [if_pos rfl, lookup_entry, lookup_entry, lookup_entry, if_pos rfl]
      split <;> rfl
    · have other : ¬ name = first := fun same => here same.symm
      rw [if_neg here, lookup_entry, lookup_entry, lookup_entry, if_neg other, ih]
      by_cases same : key = first
      · rw [if_pos same, if_neg (same ▸ here), if_pos same]
      · rw [if_neg same, if_neg same]

theorem get?_insert (registry : Registry α) (name key : String) (value : α) :
    (registry.insert name value).get? key = if key = name then some value else registry.get? key :=
  registry.get?_alter name key _

theorem get?_mapValues (registry : Registry α) (f : α → β) (key : String) :
    (registry.mapValues f).get? key = (registry.get? key).map f := by
  obtain ⟨entries⟩ := registry
  simp only [mapValues, get?]
  induction entries with
  | nil => rfl
  | cons entry rest ih =>
    obtain ⟨name, value⟩ := entry
    rw [List.map_cons, lookup_entry, lookup_entry, ih]
    split <;> rfl

theorem contains_iff (registry : Registry α) (name : String) :
    registry.contains name = true ↔ ∃ value, registry.get? name = some value :=
  Option.isSome_iff_exists

theorem mem_names (registry : Registry α) (name : String) :
    name ∈ registry.names ↔ registry.contains name = true := by
  unfold contains get? names
  rw [List.lookup_isSome_iff]
  simp

theorem entry_of_get? {registry : Registry α} {name : String} {value : α}
    (found : registry.get? name = some value) : (name, value) ∈ registry.entries := by
  obtain ⟨before, after, whole, _⟩ := List.lookup_eq_some_iff.mp found
  simp [whole]

theorem entry_of_insert {registry : Registry α} {key : String} {value : α} {entry : String × α}
    (member : entry ∈ (registry.insert key value).entries) :
    entry = (key, value) ∨ entry ∈ registry.entries := by
  obtain ⟨entries⟩ := registry
  simp only [insert, alter] at member ⊢
  induction entries with
  | nil => exact .inl (List.mem_singleton.mp member)
  | cons head rest ih =>
    obtain ⟨first, old⟩ := head
    unfold alterEntries at member
    split at member
    next same =>
      rcases List.mem_cons.mp member with here | later
      · exact .inl (same ▸ here)
      · exact .inr (List.mem_cons_of_mem _ later)
    next =>
      rcases List.mem_cons.mp member with here | later
      · exact .inr (here ▸ List.mem_cons_self)
      · exact (ih later).imp id (List.mem_cons_of_mem _)

/-- What holds of every value still does after a change that keeps it. -/
theorem alter_all {holds : α → Prop} {registry : Registry α} {name : String} {change : Option α → α}
    (all : ∀ value ∈ registry.values, holds value) (fresh : holds (change none))
    (kept : ∀ value, holds value → holds (change (some value))) :
    ∀ value ∈ (registry.alter name change).values, holds value := by
  obtain ⟨entries⟩ := registry
  simp only [values, alter] at all ⊢
  induction entries with
  | nil =>
    intro value member
    exact List.mem_singleton.mp member ▸ fresh
  | cons head rest ih =>
    obtain ⟨key, old⟩ := head
    obtain ⟨first, others⟩ := List.forall_mem_cons.mp all
    unfold alterEntries
    split
    · exact List.forall_mem_cons.mpr ⟨kept old first, others⟩
    · exact List.forall_mem_cons.mpr ⟨first, ih others⟩

theorem insert_all {holds : α → Prop} {registry : Registry α} {name : String} {value : α}
    (all : ∀ value ∈ registry.values, holds value) (own : holds value) :
    ∀ other ∈ (registry.insert name value).values, holds other := by
  change ∀ other ∈ (registry.alter name fun _ => value).values, holds other
  exact alter_all all own fun _ _ => own

theorem contains_insert (registry : Registry α) (key name : String) (value : α) :
    (registry.insert key value).contains name = true ↔ name = key ∨ registry.contains name = true := by
  unfold contains
  rw [get?_insert]
  split <;> simp [*]

end TreeQuery.Registry
