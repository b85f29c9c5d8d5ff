import TreeQuery.Proofs.FieldUnion
import TreeQuery.Proofs.ItemVerdicts

/-! The fields of an environment, of whatever kind. What stands under a field name is the union of what the kinds that
the environment ended up with declare under it, so that a value that one of these kinds takes is taken where the
kind is not known. -/

namespace TreeQuery.Grammar

/-- The fields of a kind and its children. -/
def NamedKind.slots (kind : NamedKind) : List Subnode := kind.fields.values ++ kind.children.toList

/-- A kind allows what one of its slots allows. -/
def NamedKind.Gathered (kind : NamedKind) : Prop :=
  ∀ target, kind.types.Has target ↔ ∃ slot ∈ kind.slots, slot.types.Has target

private theorem NamedKind.leaf_gathered (name : String) (flags : Flags) : (NamedKind.leaf name flags).Gathered := by
  intro target
  refine iff_of_false FlatTypes.has_empty ?_
  rintro ⟨slot, member, _⟩
  exact List.not_mem_nil member

private theorem NamedKind.branch_gathered (kinds : List Declaration) (name : String) (fields : Registry Slot)
    (children : Option Slot) (flags : Flags) : (NamedKind.branch kinds name fields children flags).Gathered := by
  intro target
  exact (NamedKind.Drawn.has_union (NamedKind.branch kinds name fields children flags).slots .empty).trans
    (or_iff_right FlatTypes.has_empty)

namespace Environment

/-- Some kind declares the field so. -/
def Declares (env : Environment) (field : String) (slot : Subnode) : Prop :=
  ∃ kind ∈ env.kinds.values, (field, slot) ∈ kind.fields.entries

/-- A field is held if some kind has it, as the union of all that is declared under its name. -/
structure Indexed (env : Environment) : Prop where
  held : ∀ field, env.fields.contains field = true ↔ ∃ kind ∈ env.kinds.values, kind.fields.contains field = true
  multiple : ∀ field union, env.fields.get? field = some union →
    (union.multiple = true ↔ ∃ slot, env.Declares field slot ∧ slot.multiple = true)
  required : ∀ field union, env.fields.get? field = some union →
    (union.required = true ↔ ∀ slot, env.Declares field slot → slot.required = true)
  types : ∀ field union, env.fields.get? field = some union →
    ∀ target, union.types.Has target ↔ ∃ slot, env.Declares field slot ∧ slot.types.Has target

private theorem declares_iff {env : Environment} {field : String} {slot : Subnode} :
    env.Declares field slot ↔ slot ∈ slotsOf env.kinds.values field := mem_slotsOf.symm

/-- Kinds that were declared anew are gone when the fields are joined. -/
private theorem ofDeclarations_get?_field (kinds : List Declaration) (field : String) :
    (ofDeclarations kinds).fields.get? field = Subnode.unite (slotsOf (ofDeclarations kinds).kinds.values field) :=
  unionOfFields_get? _ field

private theorem ofDeclarations_indexed (kinds : List Declaration) : (ofDeclarations kinds).Indexed := by
  have unites {field : String} {union : Subnode} (found : (ofDeclarations kinds).fields.get? field = some union) :
      Subnode.Unites (slotsOf (ofDeclarations kinds).kinds.values field) union :=
    Subnode.unite_unites ((ofDeclarations_get?_field kinds field).symm.trans found)
  refine ⟨fun field => ?_, fun field union found => ?_, fun field union found => ?_, fun field union found target => ?_⟩
  · rw [Registry.contains, ofDeclarations_get?_field, Subnode.unite_isSome]
    simp only [mem_slotsOf, ← Registry.mem_names]
    constructor
    · rintro ⟨slot, kind, among, entry⟩
      exact ⟨kind, among, List.mem_map.mpr ⟨_, entry, rfl⟩⟩
    · rintro ⟨kind, among, named⟩
      obtain ⟨⟨_, slot⟩, entry, rfl⟩ := List.mem_map.mp named
      exact ⟨slot, kind, among, entry⟩
  · simpa only [declares_iff] using (unites found).multiple
  · simpa only [declares_iff] using (unites found).required
  · simpa only [declares_iff] using (unites found).types target

private theorem ofDeclarations_gathered (kinds : List Declaration) :
    ∀ kind ∈ (ofDeclarations kinds).kinds.values, kind.Gathered := by
  have none : ∀ kind ∈ empty.kinds.values, kind.Gathered := List.forall_mem_nil _
  refine List.foldlRecOn (motive := fun env => ∀ kind ∈ env.kinds.values, kind.Gathered) kinds (declare kinds) none
    fun env before declared _ => ?_
  cases declared with
  | literal | supertype => exact before
  | leaf name flags => exact Registry.insert_all before (NamedKind.leaf_gathered name flags)
  | branch name fields children flags =>
    exact Registry.insert_all before (NamedKind.branch_gathered kinds name fields children flags)

end Environment

end TreeQuery.Grammar

namespace TreeQuery.Lint
open Syntax Grammar Diagnostic

variable {settings : Settings} {types more : FlatTypes}

section Wider

variable (wider : ∀ target, types.Has target → more.Has target)
include wider

/-- What fits where less is allowed fits where more is. -/
private theorem kindFits_wider {name : String} (fits : kindFits settings name types = true) :
    kindFits settings name more = true := by
  have listed (other : String) (member : types.names.contains other = true) : more.names.contains other = true :=
    List.contains_iff_mem.mpr (wider (.named other) (List.contains_iff_mem.mp member))
  rw [kindFits, Bool.or_eq_true] at fits ⊢
  refine fits.imp (listed name) fun elsewhere => ?_
  split at elsewhere
  next => exact elsewhere
  next =>
    split at elsewhere
    next supertype _ =>
      obtain ⟨member, among, shared⟩ := List.any_eq_true.mp elsewhere
      exact List.any_eq_true.mpr ⟨member, among, listed member shared⟩
    next => rfl

private theorem checkFieldValue_wider {owner other : String} {value : Placed}
    (taken : checkFieldValue settings ⟨types, owner⟩ value = []) : checkFieldValue settings ⟨more, other⟩ value = [] := by
  unfold checkFieldValue at taken ⊢
  split at taken
  next =>
    split at taken
    next => rfl
    next name _ =>
      split at taken
      next fits => exact if_pos (kindFits_wider wider fits)
      next => cases taken
  next =>
    split at taken
    next => rfl
    next string _ =>
      split at taken
      next within =>
        exact if_pos (List.contains_iff_mem.mpr (wider (.literal _) (List.contains_iff_mem.mp within)))
      next => cases taken
  next => rfl

end Wider

/-- The fields of an environment are the unions of what its kinds declare, the types of a kind those of its slots. A value
that is taken in a field of a kind is taken in the field of that name of no kind in particular. -/
theorem fields_united (kinds : List Declaration) :
    let env := Environment.ofDeclarations kinds
    env.Indexed ∧ (∀ kind ∈ env.kinds.values, kind.Gathered) ∧
      ∀ kind ∈ env.kinds.values, ∀ field slot, kind.fields.get? field = some slot →
        ∃ union, env.fields.get? field = some union ∧ ∀ distance owner other value,
          checkFieldValue ⟨env, distance⟩ ⟨slot.types, owner⟩ value = [] →
          checkFieldValue ⟨env, distance⟩ ⟨union.types, other⟩ value = [] := by
  intro env
  have indexed : env.Indexed := Environment.ofDeclarations_indexed kinds
  refine ⟨indexed, Environment.ofDeclarations_gathered kinds, fun kind among field slot declared => ?_⟩
  obtain ⟨union, found⟩ := (Registry.contains_iff ..).mp
    ((indexed.held field).mpr ⟨kind, among, (Registry.contains_iff ..).mpr ⟨slot, declared⟩⟩)
  have declares : env.Declares field slot := ⟨kind, among, Registry.entry_of_get? declared⟩
  have wider (target : Stub) (has : slot.types.Has target) : union.types.Has target :=
    (indexed.types field union found target).mpr ⟨slot, declares, has⟩
  exact ⟨union, found, fun distance owner other value => checkFieldValue_wider wider⟩

/-- A kind that is declared anew no longer has the field that it had. -/
theorem redeclared_united :
    let flags : Flags := ⟨false, false⟩
    let slot (name : String) : Slot := ⟨false, true, [.named name]⟩
    let kinds : List Declaration := [.branch "a" ⟨[("f", slot "x"), ("g", slot "x")]⟩ none flags, .leaf "x" flags,
      .leaf "y" flags, .branch "b" ⟨[("f", slot "y")]⟩ none flags, .branch "a" ⟨[("f", slot "x")]⟩ none flags]
    let env := Environment.ofDeclarations kinds
    let value : Placed :=
      ⟨0, .node .namedNode [.leaf ⟨.parenOpen, "("⟩, .leaf ⟨.identifier, "x"⟩, .leaf ⟨.parenClose, ")"⟩]⟩
    env.fields.contains "g" = false ∧ env.fields.get? "f" = some ⟨false, true, ⟨["x", "y"], []⟩⟩ ∧
      checkFieldValue ⟨env, 3⟩ ⟨⟨["x"], []⟩, "field f of a"⟩ value = [] ∧
      checkFieldValue ⟨env, 3⟩ ⟨⟨["x", "y"], []⟩, "field f"⟩ value = [] := by
  intro flags slot kinds env value
  obtain ⟨indexed, _, wider⟩ := fields_united kinds
  have gone : env.fields.contains "g" = false := by
    refine Bool.eq_false_iff.mpr fun held => ?_
    have none : ¬ ∃ kind ∈ env.kinds.values, kind.fields.contains "g" = true := by decide +kernel
    exact none ((indexed.held "g").mp held)
  have joined : env.fields.get? "f" = some ⟨false, true, ⟨["x", "y"], []⟩⟩ := by decide +kernel
  have taken : checkFieldValue ⟨env, 3⟩ ⟨⟨["x"], []⟩, "field f of a"⟩ value = [] := by decide +kernel
  let kind : NamedKind := .branch kinds "a" ⟨[("f", slot "x")]⟩ none flags
  have among : kind ∈ env.kinds.values := by decide +kernel
  have declared : kind.fields.get? "f" = some ⟨false, true, ⟨["x"], []⟩⟩ := by decide +kernel
  obtain ⟨union, found, keeps⟩ := wider kind among "f" _ declared
  obtain rfl : union = _ := Option.some.inj (found.symm.trans joined)
  exact ⟨gone, joined, taken, keeps 3 _ _ value taken⟩

end TreeQuery.Lint
