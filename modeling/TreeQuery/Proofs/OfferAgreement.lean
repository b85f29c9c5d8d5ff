import TreeQuery.Completion.Offer
import TreeQuery.Proofs.DescribedUsage
import TreeQuery.Proofs.ItemPools
import TreeQuery.Proofs.WrittenConstructs

/-! Completion against the checks. What is offered inside a node of a known kind is what the checks
accept there, although completion filters its pools and the checks look at one item at a time. -/

namespace TreeQuery.Completion
open Grammar Syntax Lint Diagnostic Text

/-- No name is declared both as a supertype and as a concrete kind. -/
def Apart (kinds : List Declaration) : Prop :=
  ∀ group ∈ kinds, group.isSupertype = true → ∀ concrete ∈ kinds, concrete.isConcrete = true →
    group.stub ≠ concrete.stub

instance (kinds : List Declaration) : Decidable (Apart kinds) :=
  inferInstanceAs (Decidable (∀ _ ∈ _, _ → ∀ _ ∈ _, _ → _))

variable {kinds : List Declaration} {settings : Settings} {parent : NamedKind} {owner name : String}
  {types : FlatTypes}

private theorem kinds_lacks_supertype (apart : Apart kinds) (drawn : settings.env = .ofDeclarations kinds)
    {supertype : Supertype} (found : settings.env.supertypes.get? name = some supertype) :
    settings.env.kinds.get? name = none := by
  have contents := drawn ▸ Environment.ofDeclarations_drawn kinds
  obtain ⟨subtypes, flags, group, _⟩ := contents.supertype name supertype found
  refine Option.eq_none_iff_forall_ne_some.mpr fun kind held => ?_
  obtain ⟨declared, member, same, own⟩ := contents.kind name kind held
  exact apart _ group rfl declared member own.concrete same.symm

private theorem kindNames_listed (known : name ∈ settings.env.kindNames) :
    settings.env.kinds.contains name = true ∨ settings.env.supertypes.contains name = true := by
  rcases List.mem_append.mp known with kind | supertype
  · exact .inl ((Registry.mem_names ..).mp kind)
  · exact .inr ((Registry.mem_names ..).mp supertype)

/-- Whether completion would offer a kind name where these types are allowed. -/
def offersName (env : Environment) (types : FlatTypes) (name : String) : Bool :=
  types.names.contains name || isExtra env name || overlaps env name types.names

/-- Whether it would offer the name as the value of a field. Extras are no values. -/
def offersValue (env : Environment) (types : FlatTypes) (name : String) : Bool :=
  types.names.contains name || overlaps env name types.names

/-- Offering and checking compare a kind name with the types allowed in the same way. -/
private theorem offersName_eq_kindFits (apart : Apart kinds) (drawn : settings.env = .ofDeclarations kinds)
    (known : name ∈ settings.env.kindNames) : offersName settings.env types name = kindFits settings name types := by
  cases found : settings.env.kinds.get? name with
  | some kind =>
    have single : settings.env.supertypes.get? name = none := by
      refine Option.eq_none_iff_forall_ne_some.mpr fun supertype group => ?_
      simp [kinds_lacks_supertype apart drawn group] at found
    simp [offersName, isExtra, overlaps, kindFits, found, single]
  | none =>
    have absent : ¬ settings.env.kinds.contains name = true := by simp [Registry.contains, found]
    obtain ⟨supertype, group⟩ := (Registry.contains_iff ..).mp ((kindNames_listed known).resolve_left absent)
    simp [offersName, isExtra, overlaps, kindFits, found, group]

private theorem kindFits_of_offersValue (apart : Apart kinds) (drawn : settings.env = .ofDeclarations kinds)
    (offered : offersValue settings.env types name = true) : kindFits settings name types = true := by
  rcases Bool.or_eq_true_iff.mp offered with within | shared
  · rw [kindFits, within, Bool.true_or]
  · obtain ⟨supertype, group, common⟩ := (Option.any_eq_true ..).mp shared
    have single := kinds_lacks_supertype apart drawn group
    simp only [kindFits, single, group, common, Bool.or_true]

private theorem nodesWithin_known (found : settings.env.kinds.get? owner = some parent) (pools : Pools) (wrapped : Bool) :
    nodesWithin settings.env pools wrapped (some owner) =
      fitting pools wrapped (offersName settings.env parent.types) parent.types := by
  simp only [nodesWithin, Option.bind_some, found]
  exact List.append_assoc ..

private theorem fieldValues_known {declared : Subnode} {field : String}
    (resolves : declaredField? settings.env field (some owner) = some declared) (pools : Pools) (wrapped : Bool) :
    fieldValues settings.env pools wrapped field (some owner) =
      fitting pools wrapped (offersValue settings.env declared.types) declared.types := by
  simp only [fieldValues, resolves]
  exact List.append_assoc ..

/-- A construct reads as what an item inserts. -/
inductive Writes (item : Item) (place : Placed) : Prop
  | node {name : Placed} (kind : item.kind = .node) (shape : place.kind = .node .namedNode)
    (named : place.kindName? = some name) (whole : place.subtype? = none) (same : name.text = item.label) :
    Writes item place
  | literal {string : Placed} (kind : item.kind = .literal) (shape : place.kind = .node .anonymousNode)
    (found : place.string? = some string) (same : quote string.stringValue = item.text) : Writes item place

private theorem offered_value_spared (apart : Apart kinds) (drawn : settings.env = .ofDeclarations kinds) {wrapped : Bool}
    {item : Item} {value : Placed}
    (offered : item ∈ fitting (.ofEnvironment settings.env) wrapped (offersValue settings.env types) types)
    (writes : Writes item value) (role : String) :
    Spares [.invalidFieldValue] (checkFieldValue settings ⟨types, role⟩ value) := by
  cases writes with
  | node kind shape named whole same =>
    cases checked : checkableName? value with
    | none => exact checkFieldValue_unchecked shape checked ▸ spares_none
    | some name =>
      rw [checkFieldValue_kind shape checked, checkableName?_whole named whole checked, same]
      rcases fitting_cases offered with ⟨_, _, kept⟩ | ⟨_, _, _, _, rfl⟩ | builtin
      · exact kindFits_of_offersValue apart drawn kept
      · cases kind
      · cases kind.symm.trans builtin
  | literal kind shape found same =>
    refine (checkFieldValue_literal shape found).mpr ?_
    rcases fitting_cases offered with ⟨node, _⟩ | ⟨other, _, within, _, rfl⟩ | builtin
    · cases kind.symm.trans node
    · exact quote_injective same ▸ within
    · cases kind.symm.trans builtin

/-- A context that asks for the items of a node of this kind. -/
def Inside (owner : String) (wrapped : Bool) (context : Context) : Prop :=
  context = .node wrapped (some owner) ∨ context = .child wrapped (some owner)

def OffersKind (env : Environment) (captures : Option CaptureIndex) (context : Context) (name : String) : Prop :=
  ∃ item ∈ offer env (.ofEnvironment env) captures context, item.kind = .node ∧ item.label = name

def OffersLiteral (env : Environment) (captures : Option CaptureIndex) (context : Context) (value : String) : Prop :=
  ∃ item ∈ offer env (.ofEnvironment env) captures context, item.kind = .literal ∧ item.text = quote value

/-- Inside nodes of one kind, what is offered and what is accepted agree. -/
structure Agrees (settings : Settings) (owner : String) (parent : NamedKind) : Prop where
  kind : ∀ {context wrapped captures span child name}, Inside owner wrapped context →
    child.kind = .node .namedNode → checkableName? child = some name → name.text ∈ settings.env.kindNames →
    (OffersKind settings.env captures context name.text ↔
      Spares [.nodeHasNoChildren, .invalidChildType] (checkItem settings (.kind parent) span child))
  writtenKind : ∀ {limit name}, 0 < limit → Token.ofText name = [.name name] → name ∉ pseudoKinds →
    name ∈ settings.env.kindNames → ∃ child, (parse limit (parenthesized name)).tree = .node .program [child] ∧
      ∀ {context wrapped captures span start}, Inside owner wrapped context →
        (OffersKind settings.env captures context name ↔
          Spares [.nodeHasNoChildren, .invalidChildType] (checkItem settings (.kind parent) span ⟨start, child⟩))
  literal : ∀ {context captures span child string}, Inside owner true context →
    child.kind = .node .anonymousNode → child.string? = some string → string.stringValue ∈ settings.env.literals →
    (OffersLiteral settings.env captures context string.stringValue ↔
      Spares [.noLiteralChildren, .invalidChildLiteral] (checkItem settings (.kind parent) span child))
  writtenLiteral : ∀ {limit value}, 0 < limit → value ∈ settings.env.literals →
    ∃ child, (parse limit (quote value)).tree = .node .program [child] ∧
      ∀ {context captures span start}, Inside owner true context →
        (OffersLiteral settings.env captures context value ↔
          Spares [.noLiteralChildren, .invalidChildLiteral] (checkItem settings (.kind parent) span ⟨start, child⟩))
  /-- What a field is refused is none of the items that were offered as its value. -/
  value : ∀ {wrapped captures span field name declared report}, field.kind = .node .fieldDefinition →
    field.identifier? = some name → declaredField? settings.env name.text (some owner) = some declared →
    report ∈ checkItem settings (.kind parent) span field → report.kind = .invalidFieldValue →
    ∃ value, InValue field value ∧ report ∈ valueReports settings parent name.text value ∧
      ∀ item ∈ offer settings.env (.ofEnvironment settings.env) captures (.fieldValue wrapped name.text (some owner)),
        ¬ Writes item value

section
variable (apart : Apart kinds) (drawn : settings.env = .ofDeclarations kinds)
  (found : settings.env.kinds.get? owner = some parent) {captures : Option CaptureIndex} {context : Context}
  {wrapped : Bool} {span : Span} {child string : Placed}
include apart drawn found

private theorem offersKind_iff {name : Placed} (inside : Inside owner wrapped context) (shape : child.kind = .node .namedNode)
    (checked : checkableName? child = some name) (known : name.text ∈ settings.env.kindNames) :
    OffersKind settings.env captures context name.text ↔
      Spares [.nodeHasNoChildren, .invalidChildType] (checkItem settings (.kind parent) span child) := by
  obtain ⟨declared, _, _, own⟩ := (drawn ▸ Environment.ofDeclarations_drawn kinds).kind _ _ found
  have offered : offer settings.env (.ofEnvironment settings.env) captures context =
      fitting (.ofEnvironment settings.env) wrapped (offersName settings.env parent.types) parent.types := by
    rcases inside with rfl | rfl <;> exact nodesWithin_known found ..
  have closed (refuses : parent.acceptsSubnodes = false) : parent.types.names = [] :=
    List.eq_nil_iff_forall_not_mem.mpr fun text => own.closed refuses (.named text)
  have check : checkItem settings (.kind parent) span child = checkChildKind settings parent child := by
    simp [checkItem, shape]
  rw [OffersKind, offered, fitting_node known, offersName_eq_kindFits apart drawn known, check,
    checkChildKind_spares closed checked (kindNames_listed known)]

omit apart drawn in
private theorem offersLiteral_iff (inside : Inside owner true context) (shape : child.kind = .node .anonymousNode)
    (stringed : child.string? = some string) (known : string.stringValue ∈ settings.env.literals) :
    OffersLiteral settings.env captures context string.stringValue ↔
      Spares [.noLiteralChildren, .invalidChildLiteral] (checkItem settings (.kind parent) span child) := by
  have offered : offer settings.env (.ofEnvironment settings.env) captures context =
      fitting (.ofEnvironment settings.env) true (offersName settings.env parent.types) parent.types := by
    rcases inside with rfl | rfl <;> exact nodesWithin_known found ..
  have check : checkItem settings (.kind parent) span child = checkChildLiteral parent child := by
    simp [checkItem, shape]
  rw [OffersLiteral, offered, fitting_literal known, check, checkChildLiteral_spares stringed]

private theorem refused_not_offered {field name : Placed} {declared : Subnode} {report : Report}
    (shape : field.kind = .node .fieldDefinition) (identified : field.identifier? = some name)
    (resolves : declaredField? settings.env name.text (some owner) = some declared)
    (member : report ∈ checkItem settings (.kind parent) span field) (refused : report.kind = .invalidFieldValue) :
    ∃ value, InValue field value ∧ report ∈ valueReports settings parent name.text value ∧
      ∀ item ∈ offer settings.env (.ofEnvironment settings.env) captures (.fieldValue wrapped name.text (some owner)),
        ¬ Writes item value := by
  have check : checkItem settings (.kind parent) span field = checkField settings (.kind parent) span field := by
    simp [checkItem, shape]
  rw [check] at member
  cases own : parent.fields.get? name.text with
  | none =>
    -- The field belongs to other kinds: it is unknown here, whatever its value.
    simp only [checkField, identified, own] at member
    simp [List.mem_singleton.mp member, unknownField_kind] at refused
  | some slot =>
    have resolved : declaredField? settings.env name.text (some owner) = some slot := by
      simp [declaredField?, found, own]
    cases resolves.symm.trans resolved
    rw [checkField_of_known span identified own] at member
    obtain ⟨value, among, member⟩ := List.mem_flatMap.mp member
    refine ⟨value, mem_flatValues.mp among, (valueReports_known own value).symm ▸ member, ?_⟩
    intro item offered writes
    have fits : item ∈ fieldValues settings.env (.ofEnvironment settings.env) wrapped name.text (some owner) := offered
    rw [fieldValues_known resolved] at fits
    exact offered_value_spared apart drawn fits writes _ report member (List.mem_singleton.mpr refused)

end

/-- Completion and the checks agree for every kind of every grammar whose supertypes are no concrete kinds. -/
theorem offer_agrees (apart : Apart kinds) (drawn : settings.env = .ofDeclarations kinds)
    (found : settings.env.kinds.get? owner = some parent) : Agrees settings owner parent where
  kind := offersKind_iff apart drawn found
  writtenKind {limit name} nests single proper known := by
    have other : name ≠ "MISSING" := fun same => proper (same ▸ by decide)
    refine ⟨kindTree name, parse_parenthesized nests single other, fun {context wrapped captures span start} inside => ?_⟩
    obtain ⟨token, checked, rfl⟩ := kindTree_checked start proper
    exact offersKind_iff apart drawn found inside rfl checked known
  literal := offersLiteral_iff found
  writtenLiteral {limit value} nests known := by
    refine ⟨_, parse_quote nests value, fun {context captures span start} inside => ?_⟩
    obtain ⟨string, stringed, rfl⟩ := stringTree_value start value
    exact offersLiteral_iff found inside rfl stringed known
  value := refused_not_offered apart drawn found

theorem call_agrees : ∃ parent, callSettings.env.kinds.get? "call" = some parent ∧ Agrees callSettings "call" parent :=
  ⟨_, rfl, offer_agrees (by decide) rfl rfl⟩

end TreeQuery.Completion
