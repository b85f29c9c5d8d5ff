import TreeQuery.Proofs.EnvironmentContents
import TreeQuery.Proofs.ItemPlaces
import TreeQuery.Proofs.ItemVerdicts

/-! The checks of a named node against the description itself. What an item may be follows from
the declarations alone; that the environment resolves supertypes and joins fields beforehand
makes no difference to any verdict. -/

namespace TreeQuery.Lint
open Syntax Grammar Diagnostic

/-- A kind that may stand where these references are declared: an extra, what they reach, or a
supertype that has a concrete kind in common with them. -/
inductive MayStand (kinds : List Declaration) (stubs : List Stub) (name : String) : Prop
  | extra {declared : Declaration} (member : declared ∈ kinds) (same : declared.stub = .named name)
    (concrete : declared.isConcrete = true) (flagged : declared.flags.extra = true) : MayStand kinds stubs name
  | reached (reach : Reach kinds stubs (.named name)) : MayStand kinds stubs name
  | shared {subtypes : List Stub} {flags : Flags} {common : String}
    (group : Declaration.supertype name subtypes flags ∈ kinds) (stands : Reaches kinds (.named name) (.named common))
    (reach : Reach kinds stubs (.named common)) : MayStand kinds stubs name

/-- Some entry of the description has this name. -/
def Known (kinds : List Declaration) (name : String) : Prop := ∃ declared ∈ kinds, declared.stub = .named name

variable {kinds : List Declaration} {stubs : List Stub} {settings : Settings} {types : FlatTypes} {name : String}

private theorem known_listed (drawn : settings.env = .ofDeclarations kinds) (known : Known kinds name) :
    settings.env.kinds.contains name = true ∨ settings.env.supertypes.contains name = true := by
  obtain ⟨declared, member, same⟩ := known
  have lists := drawn ▸ Environment.ofDeclarations_lists member
  cases declared with
  | literal => cases same
  | leaf | branch => cases same; exact .inl lists
  | supertype => cases same; exact .inr lists

/-- The environment decides as the declarations do whether a kind may stand somewhere. -/
private theorem kindFits_iff (distinct : Distinct kinds) (limited : WithinLimit kinds)
    (drawn : settings.env = .ofDeclarations kinds) (known : Known kinds name)
    (allowed : ∀ target, types.Has target ↔ Reach kinds stubs target) :
    kindFits settings name types = true ↔ MayStand kinds stubs name := by
  have contents := drawn ▸ Environment.ofDeclarations_drawn kinds
  have within (name : String) : name ∈ types.names ↔ Reach kinds stubs (.named name) := allowed (.named name)
  cases found : settings.env.kinds.get? name with
  | some kind =>
    obtain ⟨declared, member, same, own⟩ := contents.kind name kind found
    rw [kindFits_concrete found, own.flags_same, within]
    constructor
    · rintro (reach | flagged)
      · exact .reached reach
      · exact .extra member same own.concrete flagged
    · intro stands
      cases stands with
      | extra among named _ flagged =>
        cases declared_once distinct among member (named ▸ rfl) (named.trans same.symm)
        exact .inr flagged
      | reached reach => exact .inl reach
      | shared group =>
        cases declared_once distinct group member rfl same.symm
        cases own
  | none =>
    have absent : ¬ settings.env.kinds.contains name = true := by simp [Registry.contains, found]
    obtain ⟨supertype, entry⟩ := (Registry.contains_iff ..).mp ((known_listed drawn known).resolve_left absent)
    obtain ⟨subtypes, flags, group, rfl⟩ := contents.supertype name supertype entry
    have stands (common : String) : common ∈ (flattenSupertype kinds name subtypes).names ↔
        Reaches kinds (.named name) (.named common) :=
      has_flattenSupertype distinct limited group (.named common)
    simp only [kindFits_supertype found entry, within, stands]
    constructor
    · rintro (reach | ⟨common, member, reach⟩)
      · exact .reached reach
      · exact .shared group member reach
    · intro stands
      cases stands with
      | extra among named concrete =>
        cases declared_once distinct group among rfl named.symm
        cases concrete
      | reached reach => exact .inl reach
      | shared _ member reach => exact .inr ⟨_, member, reach⟩

variable {node : Placed} {kind : NamedKind} {reports : List Report}

private theorem resolveSubtype_kind {name subtype : Placed}
    (resolved : resolveSubtype settings name subtype = (.kind kind, reports)) :
    reports = [] ∧ settings.env.kinds.get? subtype.text = some kind := by
  simp only [resolveSubtype] at resolved
  split at resolved
  next => split at resolved <;> cases resolved
  next =>
    split at resolved
    next =>
      cases found : settings.env.kinds.get? subtype.text with
      | none => simp [found] at resolved
      | some held =>
        simp only [found, Option.map_some, Option.getD_some, Prod.mk.injEq, Resolved.kind.injEq] at resolved
        exact ⟨resolved.2.symm, congrArg some resolved.1⟩
    next => cases resolved

theorem resolve_kind (resolved : resolve settings node = (.kind kind, reports)) :
    reports = [] ∧ ∃ name, checkableName? node = some name ∧ settings.env.kinds.get? name.text = some kind := by
  unfold resolve at resolved
  split at resolved
  next => cases resolved
  next single =>
    split at resolved
    next => cases resolved
    next name named =>
      split at resolved
      next => cases resolved
      next proper =>
        have checked : checkableName? node = some (node.subtype?.getD name) := by
          have other : name.text ∉ pseudoKinds := fun member => proper (List.contains_iff_mem.mpr member)
          simp [checkableName?, single, named, other]
        split at resolved
        next subtype below =>
          obtain ⟨silent, found⟩ := resolveSubtype_kind resolved
          exact ⟨silent, subtype, by simpa [below] using checked, found⟩
        next alone =>
          split at resolved
          next held found =>
            cases resolved
            exact ⟨rfl, name, by simpa [alone] using checked, found⟩
          next => split at resolved <;> cases resolved

def itemReports (settings : Settings) (node : Placed) (kind : NamedKind) (item : Placed) : List Report :=
  checkItem settings (.kind kind) (node.kindName?.getD node).span item

def valueReports (settings : Settings) (kind : NamedKind) (field : String) (value : Placed) : List Report :=
  (kind.fields.get? field).toList.flatMap fun declared =>
    checkFieldValue settings ⟨declared.types, "field " ++ Text.backticked field⟩ value

/-- The verdicts on the items of a node are those that the declaration of its kind calls for. -/
structure Faithful (kinds : List Declaration) (settings : Settings) (node : Placed) (kind : NamedKind)
    (declared : Declaration) : Prop where
  /-- The node is checked item by item, whatever groupings and lists the items stand in. -/
  whole : ∀ report, report ∈ checkNode settings node ↔
    ∃ item, Among node item ∧ report ∈ itemReports settings node kind item
  child : ∀ item name, item.kind = .node .namedNode → checkableName? item = some name → Known kinds name.text →
    (Spares [.nodeHasNoChildren, .invalidChildType] (itemReports settings node kind item) ↔
      MayStand kinds declared.stubs name.text)
  literal : ∀ item string, item.kind = .node .anonymousNode → item.string? = some string →
    (Spares [.noLiteralChildren, .invalidChildLiteral] (itemReports settings node kind item) ↔
      Reach kinds declared.stubs (.literal string.stringValue))
  field : ∀ item name, item.kind = .node .fieldDefinition → item.identifier? = some name →
    (Spares [.unknownField] (itemReports settings node kind item) ↔ (declared.slot? name.text).isSome = true)
  /-- A declared field is checked value by value, against what the field itself may hold. -/
  values : ∀ item name slot, item.kind = .node .fieldDefinition → item.identifier? = some name →
    declared.slot? name.text = some slot → ∀ report, report ∈ itemReports settings node kind item ↔
      ∃ value, InValue item value ∧ report ∈ valueReports settings kind name.text value
  valueKind : ∀ field slot value name, declared.slot? field = some slot → value.kind = .node .namedNode →
    checkableName? value = some name → Known kinds name.text →
    (Spares [.invalidFieldValue] (valueReports settings kind field value) ↔ MayStand kinds slot.types name.text)
  valueLiteral : ∀ field slot value string, declared.slot? field = some slot → value.kind = .node .anonymousNode →
    value.string? = some string →
    (Spares [.invalidFieldValue] (valueReports settings kind field value) ↔
      Reach kinds slot.types (.literal string.stringValue))

private theorem checkNode_items (found : resolve settings node = (.kind kind, [])) :
    checkNode settings node = (flatItems node).flatMap (itemReports settings node kind) := by
  simp only [checkNode, found, List.nil_append]
  rfl

private theorem itemReports_child {item : Placed} (named : item.kind = .node .namedNode) :
    itemReports settings node kind item = checkChildKind settings kind item := by
  simp [itemReports, checkItem, named]

private theorem itemReports_literal {item : Placed} (anonymous : item.kind = .node .anonymousNode) :
    itemReports settings node kind item = checkChildLiteral kind item := by
  simp [itemReports, checkItem, anonymous]

private theorem itemReports_field {item : Placed} (field : item.kind = .node .fieldDefinition) :
    itemReports settings node kind item =
      checkField settings (.kind kind) (node.kindName?.getD node).span item := by
  simp [itemReports, checkItem, field]

theorem valueReports_known {declared : Subnode} {field : String} (found : kind.fields.get? field = some declared)
    (value : Placed) : valueReports settings kind field value =
      checkFieldValue settings ⟨declared.types, "field " ++ Text.backticked field⟩ value := by
  simp [valueReports, found]

private theorem faithful {declared : Declaration} (distinct : Distinct kinds) (limited : WithinLimit kinds)
    (drawn : settings.env = .ofDeclarations kinds) (resolved : resolve settings node = (.kind kind, []))
    (own : NamedKind.Drawn kinds declared kind) : Faithful kinds settings node kind declared where
  whole report := by simp only [checkNode_items resolved, List.mem_flatMap, mem_flatItems]
  child item name named checked known := by
    rw [itemReports_child named, checkChildKind_spares _ checked (known_listed drawn known)]
    · exact kindFits_iff distinct limited drawn known (own.has_types distinct limited)
    · intro refuses
      exact List.eq_nil_iff_forall_not_mem.mpr fun text => own.closed refuses (.named text)
  literal item string anonymous found := by
    rw [itemReports_literal anonymous, checkChildLiteral_spares found]
    exact own.has_types distinct limited (.literal string.stringValue)
  field item name field identified := by
    rw [itemReports_field field, checkField_spares _ identified, Registry.contains, own.fields_get?, Option.isSome_map]
  values item name slot field identified found report := by
    have entry := (own.fields_get? name.text).trans (congrArg _ found)
    rw [itemReports_field field, checkField_of_known _ identified entry, List.mem_flatMap]
    simp only [mem_flatValues, valueReports_known entry]
  valueKind field slot value name found named checked known := by
    have entry := (own.fields_get? field).trans (congrArg _ found)
    rw [valueReports_known entry, checkFieldValue_kind named checked]
    exact kindFits_iff distinct limited drawn known (has_flatten distinct limited slot.types)
  valueLiteral field slot value string found anonymous stringed := by
    have entry := (own.fields_get? field).trans (congrArg _ found)
    rw [valueReports_known entry, checkFieldValue_literal anonymous stringed]
    exact has_flatten distinct limited slot.types (.literal string.stringValue)

/-- The checks of a node whose kind is known are sound and complete for the description. -/
theorem checkNode_faithful (distinct : Distinct kinds) (limited : WithinLimit kinds)
    (drawn : settings.env = .ofDeclarations kinds) (resolved : resolve settings node = (.kind kind, reports)) :
    ∃ name, checkableName? node = some name ∧ ∃ declared ∈ kinds, declared.isConcrete = true ∧
      declared.stub = .named name.text ∧ Faithful kinds settings node kind declared := by
  obtain ⟨rfl, name, checked, entry⟩ := resolve_kind resolved
  obtain ⟨declared, member, same, own⟩ := (drawn ▸ Environment.ofDeclarations_drawn kinds).kind _ _ entry
  exact ⟨name, checked, declared, member, own.concrete, same, faithful distinct limited drawn resolved own⟩

def callKinds : List Declaration :=
  [.supertype "expression" [.named "primary", .named "call"] ⟨false, false⟩,
   .supertype "primary" [.named "expression", .named "name", .literal "nil"] ⟨false, false⟩,
   .leaf "name" ⟨false, false⟩,
   .leaf "comment" ⟨false, true⟩,
   .branch "call" ⟨[("callee", ⟨false, true, [.named "expression"]⟩)]⟩ (some ⟨true, false, [.literal ","]⟩)
    ⟨false, false⟩]

def callSettings : Settings := ⟨.ofDeclarations callKinds, 2⟩

/-- `(call (primary))` -/
def callNode : Placed :=
  ⟨0, .node .namedNode
    [.leaf ⟨.parenOpen, "("⟩, .leaf ⟨.identifier, "call"⟩, .leaf ⟨.whitespace, " "⟩,
     .node .namedNode [.leaf ⟨.parenOpen, "("⟩, .leaf ⟨.identifier, "primary"⟩, .leaf ⟨.parenClose, ")"⟩],
     .leaf ⟨.parenClose, ")"⟩]⟩

private theorem callKinds_limited : WithinLimit callKinds := by
  intro name subtypes flags declared
  simp only [callKinds, List.mem_cons, Declaration.supertype.injEq, List.not_mem_nil, or_false, reduceCtorEq] at declared
  rcases declared with ⟨rfl, rfl, rfl⟩ | ⟨rfl, rfl, rfl⟩ <;> rfl

theorem callNode_faithful :
    ∃ kind, resolve callSettings callNode = (.kind kind, []) ∧
    ∃ name, checkableName? callNode = some name ∧ ∃ declared ∈ callKinds, declared.isConcrete = true ∧
      declared.stub = .named name.text ∧ Faithful callKinds callSettings callNode kind declared :=
  ⟨_, rfl, checkNode_faithful (by decide) callKinds_limited rfl rfl⟩

end TreeQuery.Lint
