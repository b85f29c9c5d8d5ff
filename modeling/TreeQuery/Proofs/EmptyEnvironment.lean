import TreeQuery.Completion.Offer
import TreeQuery.Proofs.EnvironmentContents
import TreeQuery.Proofs.ItemPools

/-! What an environment without kinds and literals offers. With nothing to filter by, every pool is
offered whole, except inside a supertype: an environment counts as empty whatever supertypes it has. -/

namespace TreeQuery.Completion
open Grammar

namespace Context

/-- The kind that a node has to fit, for the contexts that offer nodes by it. -/
def enclosing? : Context → Option String
  | .node _ enclosing | .child _ enclosing => enclosing
  | _ => Option.none

/-- The same context with no kind, parent or field to go by. A field value keeps its field name. -/
def unbound : Context → Context
  | .node wrapped _ => .node wrapped Option.none
  | .child wrapped _ => .child wrapped Option.none
  | .fieldValue wrapped field _ => .fieldValue wrapped field Option.none
  | .fieldName wrapped _ => .fieldName wrapped Option.none
  | .negatedField _ => .negatedField Option.none
  | .stringContent _ _ => .stringContent Option.none Option.none
  | context => context

end Context

/-- Whole pools, for the contexts whose items are filtered where something is known. -/
def unfiltered? (pools : Pools) : Context → Option (List Item)
  | .node wrapped _ | .child wrapped _ | .fieldValue wrapped _ _ =>
    some (pools.nodes.items wrapped ++ (if wrapped then pools.literals.items true else []) ++ pools.builtins.items wrapped)
  | .fieldName wrapped _ => some (pools.fields.items wrapped)
  | .negatedField _ => some (pools.fields.items false)
  | .stringContent _ _ => some (pools.literals.items false)
  | .unhandled | .none | .capture _ => none

variable {env : Environment} {pools : Pools} {captures : Option Syntax.CaptureIndex} {context : Context}
  {items : List Item} {name : String}

private theorem unfiltered?_unbound (pools : Pools) (context : Context) :
    unfiltered? pools context.unbound = unfiltered? pools context := by
  cases context <;> rfl

private theorem enclosing?_unbound (context : Context) : context.unbound.enclosing? = none := by
  cases context <;> rfl

section Unknown

variable (kinds : env.kinds = .empty) (fields : env.fields = .empty)
include kinds

private theorem unknown_kind (name : Option String) : name.bind env.kinds.get? = none := by
  rw [kinds]
  cases name <;> rfl

private theorem nodesWithin_unknown {enclosing : Option String} (outside : enclosing.bind env.supertypes.get? = none)
    (wrapped : Bool) : some (nodesWithin env pools wrapped enclosing) = unfiltered? pools (.node wrapped enclosing) := by
  simp only [nodesWithin, unknown_kind kinds, outside, unfiltered?]

include fields

private theorem unknown_field (field : String) (parent : Option String) : declaredField? env field parent = none := by
  rw [declaredField?, unknown_kind kinds, fields]
  rfl

/-- Where neither kinds nor fields are known, whole pools are offered outside supertypes. -/
theorem offer_unknown (filters : unfiltered? pools context = some items)
    (outside : context.enclosing?.bind env.supertypes.get? = none) : offer env pools captures context = items := by
  apply Option.some.inj
  rw [← filters]
  cases context with
  | unhandled | none | capture => cases filters
  | node wrapped | child wrapped => exact nodesWithin_unknown kinds outside wrapped
  | fieldValue wrapped field parent =>
    rw [offer, fieldValues, unknown_field kinds fields]
    exact nodesWithin_unknown kinds rfl wrapped
  | fieldName wrapped parent => rw [offer, fieldNames, unknown_kind kinds]; rfl
  | negatedField parent => rw [offer, fieldNames, unknown_kind kinds]; rfl
  | stringContent parent field =>
    have undeclared : field.bind (declaredField? env · parent) = none := by
      cases field with
      | none => rfl
      | some field => exact unknown_field kinds fields field parent
    rw [offer, stringContents, undeclared, unknown_kind kinds]
    rfl

end Unknown

section Empty

variable {kinds : List Declaration} (empty : (Environment.ofDeclarations kinds).isEmpty = true)
include empty

private theorem empty_kinds : (Environment.ofDeclarations kinds).kinds = .empty := by
  have bare := (Bool.and_eq_true_iff.mp empty).1
  exact congrArg Registry.mk (List.isEmpty_iff.mp bare)

private theorem empty_fields : (Environment.ofDeclarations kinds).fields = .empty := by
  have union : (Environment.ofDeclarations kinds).fields =
      Environment.unionOfFields (Environment.ofDeclarations kinds).kinds.values := rfl
  rw [union, empty_kinds empty]
  rfl

/-- Without kinds, supertypes are all that can be named. -/
private theorem declared_supertype (known : name ∈ (Environment.ofDeclarations kinds).kindNames) :
    (subtypes? kinds name).isSome = true := by
  rw [Environment.kindNames, empty_kinds empty] at known
  obtain ⟨supertype, found⟩ := (Registry.contains_iff ..).mp ((Registry.mem_names ..).mp known)
  obtain ⟨subtypes, flags, declared, _⟩ := (Environment.ofDeclarations_drawn kinds).supertype name supertype found
  exact subtypes?_isSome_iff.mpr ⟨subtypes, flags, declared⟩

/-- A supertype has no supertypes among its members, and nothing else is in the pool. -/
private theorem members_unnamed {supertype : Supertype}
    (found : (Environment.ofDeclarations kinds).supertypes.get? name = some supertype) (wrapped : Bool) :
    (Pools.ofEnvironment (.ofDeclarations kinds)).nodes.itemsWhere wrapped supertype.members.names.contains = [] := by
  obtain ⟨subtypes, flags, _, rfl⟩ := (Environment.ofDeclarations_drawn kinds).supertype name supertype found
  have plain : (flattenSupertype kinds name subtypes).Plain kinds := expandSupertype_plain nofun
  apply List.eq_nil_iff_forall_not_mem.mpr
  intro item member
  obtain ⟨other, rendition, entry, kept, _⟩ := mem_itemsWhere.mp member
  have known := declared_supertype empty (mem_nodes wrapped entry).1
  have unknown := plain other (List.contains_iff_mem.mp kept)
  simp [unknown] at known

private theorem supertype_filters {supertype : Supertype}
    (found : (Environment.ofDeclarations kinds).supertypes.get? name = some supertype) (wrapped : Bool) :
    some (nodesWithin (.ofDeclarations kinds) (.ofEnvironment (.ofDeclarations kinds)) wrapped (some name)) ≠
      unfiltered? (.ofEnvironment (.ofDeclarations kinds)) (.node wrapped (some name)) := by
  intro same
  have known : name ∈ (Environment.ofDeclarations kinds).kindNames :=
    List.mem_append_right _ ((Registry.mem_names ..).mpr ((Registry.contains_iff ..).mpr ⟨_, found⟩))
  obtain ⟨rendition, entry⟩ := nodes_has known
  have held : Pool.side wrapped rendition ∈ (Pools.ofEnvironment (.ofDeclarations kinds)).nodes.items wrapped :=
    List.mem_map.mpr ⟨rendition, List.mem_map.mpr ⟨_, entry, rfl⟩, rfl⟩
  have offered := List.mem_append_left ((Pools.ofEnvironment (.ofDeclarations kinds)).builtins.items wrapped)
    (List.mem_append_left (if wrapped then (Pools.ofEnvironment (.ofDeclarations kinds)).literals.items true else []) held)
  rw [← Option.some.inj same, nodesWithin, unknown_kind (empty_kinds empty), Option.bind_some, found] at offered
  simp only [members_unnamed empty found, List.nil_append] at offered
  cases (mem_nodes wrapped entry).2.1.symm.trans (mem_builtins offered)

/-- Without kinds and literals, every variant that filters offers its whole pools where nothing is known
to filter by, and so it does for any kind, parent and field unless a node has to fit a supertype. -/
theorem offer_whole_iff (captures : Option Syntax.CaptureIndex) (context : Context)
    (filters : unfiltered? (.ofEnvironment (.ofDeclarations kinds)) context = some items) :
    offer (.ofDeclarations kinds) (.ofEnvironment (.ofDeclarations kinds)) captures context.unbound = items ∧
      (offer (.ofDeclarations kinds) (.ofEnvironment (.ofDeclarations kinds)) captures context = items ↔
        ∀ name, context.enclosing? = some name → (Environment.ofDeclarations kinds).supertypes.contains name = false) := by
  have kindless := empty_kinds empty
  have fieldless := empty_fields empty
  refine ⟨?_, ?_, ?_⟩
  · apply offer_unknown kindless fieldless ((unfiltered?_unbound ..).trans filters)
    rw [enclosing?_unbound]
    rfl
  · intro whole name inside
    apply Bool.eq_false_iff.mpr
    intro declared
    obtain ⟨supertype, found⟩ := (Registry.contains_iff ..).mp declared
    subst whole
    cases context with
    | node wrapped | child wrapped => cases inside; exact supertype_filters empty found wrapped filters.symm
    | _ => cases inside
  · intro outside
    apply offer_unknown kindless fieldless filters
    cases within : context.enclosing? with
    | none => rfl
    | some name => exact Option.not_isSome_iff_eq_none.mp (Bool.eq_false_iff.mp (outside name within))

end Empty

/-- A description of a supertype alone. -/
def supertypeAlone : List Declaration := [.supertype "expression" [.named "name"] ⟨false, false⟩]

theorem statement_offers_whole :
    (Environment.ofDeclarations supertypeAlone).isEmpty = true ∧
      offer (.ofDeclarations supertypeAlone) (.ofEnvironment (.ofDeclarations supertypeAlone)) none
        (.child true (some "statement")) =
          (nodeRendition "expression" "supertype of `name`").wrapped ::
            builtinNames.map fun name => (builtinRendition name).wrapped := by
  have empty : (Environment.ofDeclarations supertypeAlone).isEmpty = true := by decide
  have whole := offer_whole_iff empty none (.child true (some "statement")) rfl
  refine ⟨empty, whole.2.mpr ?_⟩
  intro name inside
  cases inside
  decide

/-- The supertype filters what is offered in it, and leaves not even its own name. -/
theorem supertype_not_whole :
    (Environment.ofDeclarations supertypeAlone).isEmpty = true ∧
      offer (.ofDeclarations supertypeAlone) (.ofEnvironment (.ofDeclarations supertypeAlone)) none
        (.child true (some "expression")) ≠
      offer (.ofDeclarations supertypeAlone) (.ofEnvironment (.ofDeclarations supertypeAlone)) none
        (.child true none) := by
  decide +kernel

end TreeQuery.Completion
