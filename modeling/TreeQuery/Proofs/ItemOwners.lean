import TreeQuery.Proofs.CursorChains
import TreeQuery.Proofs.DescribedUsage

/-! Which named node a context is about. The classifier goes by the name that the nearest named node
is written with, the checks by the kind that this name and a subtype after it resolve to. -/

namespace TreeQuery.Completion
open Syntax

/-- The type that the items offered have to fit. -/
def Context.type? : Context → Option String
  | .node _ enclosing | .child _ enclosing => enclosing
  | .fieldValue _ _ parent | .fieldName _ parent | .negatedField parent => parent
  | _ => Option.none

variable {limit offset : Nat} {source : String} {above chain : List Placed} {type : String}
  {named enclosing terminal parent : Placed}

def nearestNamed? (places : List Placed) : Option Placed := places.find? (·.isNode .namedNode)

private theorem nearestNamed?_dropWhile {skip : Placed → Bool}
    (bare : ∀ place, skip place = true → place.isNode .namedNode = false) :
    nearestNamed? (above.dropWhile skip) = nearestNamed? above := by
  induction above with
  | nil => rfl
  | cons place rest ih =>
    cases skipped : skip place with
    | true => simpa [skipped, nearestNamed?, bare place skipped] using ih
    | false => simp [skipped]

private theorem nearestNamed?_named (shape : named.isNode .namedNode = true) : nearestNamed? (named :: above) = some named := by
  simp [nearestNamed?, shape]

theorem parentKind?_eq : parentKind? above = (nearestNamed? above).bind kindOf? := rfl

private theorem fieldValueIn_type {wrapped : Bool} {field : Placed}
    (typed : (fieldValueIn wrapped field above).type? = some type) :
    parentKind? above = some type := by
  unfold fieldValueIn at typed
  split at typed
  · exact typed
  · cases typed

private theorem parentKind?_cons {place : Placed} (other : place.isNode .namedNode = false) :
    parentKind? (place :: above) = parentKind? above := by
  simp [parentKind?, other]

private theorem parentKind?_named (shape : named.isNode .namedNode = true) : parentKind? (named :: above) = kindOf? named := by
  simp [parentKind?, shape]

private theorem isNode_other {place : Placed} {kind other : NodeKind} (shape : place.isNode kind = true)
    (differs : kind ≠ other) :
    place.isNode other = false := by
  simp_all [Placed.isNode]

/-- A kind name is offered for what holds it, groupings and lists looked through. -/
private theorem kindNameIn_type (typed : (kindNameIn above).type? = some type) : parentKind? above = some type := by
  have transparent (place : Placed) (seen : isTransparent place = true) : place.isNode .namedNode = false := by
    simp only [isTransparent, Bool.or_eq_true] at seen
    obtain (grouping | list) | error := seen
    · exact isNode_other grouping (by decide)
    · exact isNode_other list (by decide)
    · exact isNode_other error (by decide)
  rw [parentKind?_eq, ← nearestNamed?_dropWhile transparent, ← parentKind?_eq]
  unfold kindNameIn at typed
  split at typed
  next holder rest held =>
    rw [held]
    split at typed
    next field =>
      rw [parentKind?_cons (isNode_other field (by decide))]
      exact fieldValueIn_type typed
    next =>
      split at typed
      next shape => rwa [parentKind?_named shape]
      next => cases typed
  next => cases typed

/-- What the type of a context is taken from. -/
inductive TypeSource (enclosing : Placed) (above : List Placed) (terminal : Placed) (type : String) : Prop
  /-- The construct that the cursor is in. -/
  | own (shape : enclosing.isNode .namedNode = true) (known : kindOf? enclosing = some type)
    (unnamed : terminal.kind = .token .identifier → enclosing.kindName?.any (·.start = terminal.start) = false)
  /-- The construct around the node that is being named. -/
  | around (shape : enclosing.isNode .namedNode = true) (naming : terminal.kind = .token .identifier)
    (name : enclosing.kindName?.any (·.start = terminal.start) = true) (known : parentKind? above = some type)
  /-- The supertype, for a subtype that is being named. -/
  | path (shape : enclosing.isNode .namedNode = true) (naming : terminal.kind = .token .identifier)
    (unnamed : enclosing.kindName?.any (·.start = terminal.start) = false)
    (subtype : enclosing.subtype?.any (·.start = terminal.start) = true)
  /-- The construct around a field. -/
  | field (other : enclosing.isNode .namedNode = false) (known : parentKind? above = some type)

private theorem identifierIn_source (shape : enclosing.isNode .namedNode = true) (naming : terminal.kind = .token .identifier)
    (typed : (identifierIn enclosing above terminal parent).type? = some type) :
    TypeSource enclosing above terminal type := by
  unfold identifierIn at typed
  split at typed
  next name => exact .around shape naming name (kindNameIn_type typed)
  next unnamed =>
    have unnamed := Bool.eq_false_iff.mpr unnamed
    split at typed
    next subtype => exact .path shape naming unnamed subtype
    next =>
      split at typed
      next => cases typed
      next => exact .own shape typed fun _ => unnamed

private theorem contextIn_source (typed : (contextIn enclosing above terminal parent).type? = some type) :
    TypeSource enclosing above terminal type := by
  unfold contextIn at typed
  split at typed
  -- Most pairs have no type or that of a node or of the construct around a field.
  all_goals first
    | cases typed
    | next held seen => exact .own (decide_eq_true held) typed fun naming => by simp [naming] at seen
    | next held _ => exact .field (by simp [Placed.isNode, held]) typed
    | next held _ => exact .field (by simp [Placed.isNode, held]) (fieldValueIn_type typed)
    | next held naming => exact identifierIn_source (decide_eq_true held) naming typed
    | skip
  next held seen =>
    refine .own (decide_eq_true held) ?_ fun naming => by simp [naming] at seen
    split at typed <;> exact typed

private theorem contextOf_source (typed : (contextOf chain).type? = some type) : ∃ terminal around enclosing above,
    chain.dropWhile (!isTerminal ·.kind) = terminal :: around ∧
    chain.dropWhile (!isEnclosing ·.kind) = enclosing :: above ∧ TypeSource enclosing above terminal type := by
  have told := contextOf_told chain
  generalize contextOf chain = context at told typed
  cases told with
  | silent | sign | apart => cases typed
  | pair dispatched => exact ⟨_, _, _, _, dispatched.first, dispatched.found, contextIn_source typed⟩

/-- The cursor stands among the items of a named node: no other named node is between, but for one
whose name the cursor is in. The name of the node itself is not an item of it. -/
inductive Owns (owner : Placed) (chain : List Placed) : Prop
  | among {inner outer : List Placed} (split : chain = inner ++ owner :: outer)
    (free : ∀ place ∈ inner, place.isNode .namedNode = false)
    (item : ∀ token, inner = [token] → owner.kindName? ≠ some token ∧ owner.subtype? ≠ some token)
  | naming {token named : Placed} {between outer : List Placed}
    (split : chain = token :: named :: (between ++ owner :: outer))
    (item : named.isNode .namedNode = true) (name : named.kindName? = some token)
    (free : ∀ place ∈ between, place.isNode .namedNode = false)

variable {owner token : Placed} {inner outer : List Placed}

private theorem nearestNamed?_owner (shape : owner.isNode .namedNode = true)
    (free : ∀ place ∈ inner, place.isNode .namedNode = false) : nearestNamed? (inner ++ owner :: outer) = some owner := by
  have passed : inner.find? (·.isNode .namedNode) = none :=
    List.find?_eq_none.mpr fun place member => by simp [free place member]
  simp [nearestNamed?, List.find?_append, passed, shape]

theorem firstToken?_child {place : Placed} {wanted : TokenKind → Bool} (found : place.firstToken? wanted = some token) :
    token ∈ place.children ∧ ∃ kind, token.kind = .token kind ∧ wanted kind = true := by
  refine ⟨List.mem_of_find?_eq_some found, ?_⟩
  have fits := List.find?_some found
  split at fits
  next kind shape => exact ⟨kind, shape, fits⟩
  next => cases fits

theorem subtype?_child {place : Placed} (found : place.subtype? = some token) :
    token ∈ place.children ∧ token.kind = .token .identifier :=
  ⟨(List.dropWhile_suffix _).subset (List.mem_of_find?_eq_some found), by simpa using List.find?_some found⟩

section Located

theorem chain_lineage {place : Placed} {rest : List Placed}
    (located : chainAt? (parse limit source).tree offset = some (place :: rest)) :
    Lineage ⟨0, (parse limit source).tree⟩ (place :: rest) := suffix_lineage located (List.suffix_refl _)

theorem token_first {place : Placed} {rest : List Placed} {kind : TokenKind}
    (located : chainAt? (parse limit source).tree offset = some (place :: rest)) (member : token ∈ place :: rest)
    (word : token.kind = .token kind) : token = place := by
  rcases List.mem_cons.mp member with here | above
  · exact here
  · obtain ⟨other, shape⟩ := (chain_lineage located).above_nodes token above
    simp [word] at shape

/-- A token right below a node is told apart from the token that the cursor is in. -/
theorem child_is_cursor {child : Placed} {kind : TokenKind}
    (located : chainAt? (parse limit source).tree offset = some (token :: (inner ++ owner :: outer)))
    (cursor : token.kind = .token .identifier) (inside : child ∈ owner.children) (word : child.kind = .token kind)
    (same : child.start = token.start) : inner = [] ∧ child = token := by
  have lineage := chain_lineage located
  have here : ⟨token, inner ++ owner :: outer⟩ ∈ (parse limit source).tree.tokenSites :=
    List.mem_filter.mpr ⟨(Tree.mem_sites_iff _).mpr lineage, by simp [Site.isToken, cursor]⟩
  have there : ⟨child, owner :: outer⟩ ∈ (parse limit source).tree.tokenSites := by
    have whole := lineage.of_suffix (List.suffix_append (token :: inner) (owner :: outer))
    exact List.mem_filter.mpr ⟨(Tree.mem_sites_iff _).mpr (.child whole inside), by simp [Site.isToken, word]⟩
  have equal := parse_token_unique there here same
  have above := congrArg (List.length ∘ Site.above) equal
  simp only [Function.comp_apply, List.length_append, List.length_cons] at above
  exact ⟨List.length_eq_zero_iff.mp (by omega), congrArg Site.place equal⟩

/-- Among the items of a node the cursor is not in the words that name its kind. -/
private theorem among_items {child terminal : Placed} {kind : TokenKind}
    (located : chainAt? (parse limit source).tree offset = some (inner ++ owner :: outer))
    (shape : owner.isNode .namedNode = true) (item : ∀ token, inner = [token] → child ≠ token)
    (member : terminal ∈ inner ++ owner :: outer) (naming : terminal.kind = .token .identifier)
    (inside : child ∈ owner.children) (word : child.kind = .token kind) : child.start ≠ terminal.start := by
  intro same
  cases inner with
  | nil =>
    obtain rfl := token_first located member naming
    simp [Placed.isNode, naming] at shape
  | cons place rest =>
    obtain rfl := token_first located member naming
    obtain ⟨rfl, equal⟩ := child_is_cursor located naming inside word same
    exact item terminal rfl equal

private theorem nearestNamed?_enclosing (found : chain.dropWhile (!isEnclosing ·.kind) = enclosing :: above) :
    nearestNamed? (enclosing :: above) = nearestNamed? chain := by
  rw [← found]
  refine nearestNamed?_dropWhile fun place skipped => ?_
  cases named : place.isNode .namedNode with
  | false => rfl
  | true => simp [of_decide_eq_true named, isEnclosing] at skipped

private theorem written_among (located : chainAt? (parse limit source).tree offset = some (inner ++ owner :: outer))
    (shape : owner.isNode .namedNode = true) (free : ∀ place ∈ inner, place.isNode .namedNode = false)
    (item : ∀ token, inner = [token] → owner.kindName? ≠ some token ∧ owner.subtype? ≠ some token)
    (typed : (contextOf (inner ++ owner :: outer)).type? = some type) : kindOf? owner = some type := by
  obtain ⟨terminal, around, enclosing, above, first, found, source⟩ := contextOf_source typed
  have nearest := nearestNamed?_enclosing found
  have member : terminal ∈ inner ++ owner :: outer := (List.dropWhile_suffix _).subset (first ▸ List.mem_cons_self)
  rw [nearestNamed?_owner shape free] at nearest
  cases source with
  | own held known =>
    rw [nearestNamed?_named held] at nearest
    exact Option.some.inj nearest ▸ known
  | field other known =>
    rw [← parentKind?_cons other, parentKind?_eq, nearest] at known
    exact known
  | around held naming name =>
    obtain rfl := Option.some.inj ((nearestNamed?_named held).symm.trans nearest)
    obtain ⟨child, written, same⟩ := (Option.any_eq_true _ _).mp name
    obtain ⟨inside, kind, word, _⟩ := firstToken?_child written
    have apart := among_items located shape (fun token alone equal => (item token alone).1 (equal ▸ written))
      member naming inside word
    exact absurd (of_decide_eq_true same) apart
  | path held naming _ subtype =>
    obtain rfl := Option.some.inj ((nearestNamed?_named held).symm.trans nearest)
    obtain ⟨child, written, same⟩ := (Option.any_eq_true _ _).mp subtype
    obtain ⟨inside, word⟩ := subtype?_child written
    have apart := among_items located shape (fun token alone equal => (item token alone).2 (equal ▸ written))
      member naming inside word
    exact absurd (of_decide_eq_true same) apart

private theorem written_naming {between : List Placed}
    (located : chainAt? (parse limit source).tree offset = some (token :: named :: (between ++ owner :: outer)))
    (shape : owner.isNode .namedNode = true) (item : named.isNode .namedNode = true) (name : named.kindName? = some token)
    (free : ∀ place ∈ between, place.isNode .namedNode = false)
    (typed : (contextOf (token :: named :: (between ++ owner :: outer))).type? = some type) :
    kindOf? owner = some type := by
  obtain ⟨terminal, around, enclosing, above, first, found, source⟩ := contextOf_source typed
  obtain ⟨inside, kind, word, wanted⟩ := firstToken?_child name
  obtain ⟨rfl, rfl⟩ : named = enclosing ∧ between ++ owner :: outer = above := by
    have passed : isEnclosing token.kind = false := by simp [word, isEnclosing]
    have enclosed : isEnclosing named.kind = true := by simp [of_decide_eq_true item, isEnclosing]
    simpa [passed, enclosed] using found
  have named_at : named.kindName?.any (·.start = token.start) = true := by simp [name]
  have naming_token (naming : terminal.kind = .token .identifier) : terminal = token :=
    token_first located ((List.dropWhile_suffix _).subset (first ▸ List.mem_cons_self)) naming
  cases source with
  | own _ known unnamed =>
    simp only [Bool.or_eq_true, decide_eq_true_eq] at wanted
    obtain rfl | rfl := wanted
    · obtain rfl : token = terminal := by simpa [word, isTerminal] using congrArg List.head? first
      simp [unnamed word] at named_at
    · simp [kindOf?, Placed.isWildcard, name, word] at known
  | around _ _ _ known => rwa [parentKind?_eq, nearestNamed?_owner shape free] at known
  | path _ naming unnamed =>
    obtain rfl := naming_token naming
    simp [unnamed] at named_at
  | field other => simp [item] at other

/-- The type of a context is the name that its owner is written with. -/
private theorem owner_written (located : chainAt? (parse limit source).tree offset = some chain)
    (shape : owner.isNode .namedNode = true) (owns : Owns owner chain)
    (typed : (contextOf chain).type? = some type) : kindOf? owner = some type := by
  cases owns with
  | among split free item =>
    subst split
    exact written_among located shape free item typed
  | naming split item name free =>
    subst split
    exact written_naming located shape item name free typed

private theorem type_of_classify {root : Tree} (located : chainAt? root offset = some chain)
    (typed : (classify root offset).type? = some type) : (contextOf chain).type? = some type := by
  unfold classify at typed
  split at typed
  next => cases typed
  next =>
    split at typed
    next => cases typed
    next =>
      rw [located] at typed
      exact typed

open Lint Grammar in
private theorem resolved_name {kinds : List Declaration} {settings : Settings} {kind : NamedKind}
    {reports : List Diagnostic.Report}
    (drawn : settings.env = .ofDeclarations kinds) (resolved : resolve settings owner = (.kind kind, reports)) :
    ∃ name, owner.kindName? = some name ∧ kind.name = (owner.subtype?.getD name).text := by
  obtain ⟨_, checked, found, entry⟩ := resolve_kind resolved
  obtain ⟨declared, _, same, own⟩ := (drawn ▸ Environment.ofDeclarations_drawn kinds).kind _ _ entry
  have named : kind.name = checked.text := by
    cases own <;> cases same <;> rfl
  unfold checkableName? at found
  split at found
  next => cases found
  next =>
    simp only [Option.bind_eq_bind, Option.bind_eq_some_iff] at found
    obtain ⟨name, written, rest⟩ := found
    split at rest
    next => cases rest
    next =>
      cases rest
      exact ⟨name, written, named⟩

open Lint Grammar in
/-- The type that a context takes from a node is the kind that the checks resolve the node to exactly
if the node is written without a subtype, or with one of the same name. -/
theorem owner_type_iff {kinds : List Declaration} {settings : Settings} {kind : NamedKind} {reports : List Diagnostic.Report}
    (drawn : settings.env = .ofDeclarations kinds) (resolved : resolve settings owner = (.kind kind, reports))
    (located : chainAt? (parse limit source).tree offset = some chain) (shape : owner.isNode .namedNode = true)
    (owns : Owns owner chain) (typed : (classify (parse limit source).tree offset).type? = some type) :
    type = kind.name ↔ ∀ subtype, owner.subtype? = some subtype → subtype.text = type := by
  have written := owner_written located shape owns (type_of_classify located typed)
  obtain ⟨name, first, same⟩ := resolved_name drawn resolved
  have spelled : name.text = type := by
    unfold kindOf? at written
    split at written
    next => cases written
    next => simpa [first] using written
  cases below : owner.subtype? with
  | none => simp [same, below, spelled]
  | some subtype => simp [same, below, eq_comm]

end Located

/-- A node without items, a blank before its closer. -/
def spaced (name : List Token) : Tree :=
  .node .namedNode (.leaf ⟨.parenOpen, "("⟩ :: (name.map .leaf ++ [.leaf ⟨.whitespace, " "⟩, .leaf ⟨.parenClose, ")"⟩]))

def blankChain (name : List Token) (start : Nat) : List Placed :=
  [⟨start, .leaf ⟨.whitespace, " "⟩⟩, ⟨0, spaced name⟩, ⟨0, .node .program [spaced name]⟩]

private theorem blankChain_owned (name : List Token) (start : Nat) : Owns ⟨0, spaced name⟩ (blankChain name start) := by
  refine .among (List.singleton_append ..).symm (by simp [Placed.isNode, Placed.kind, Tree.kind]) ?_
  rintro _ ⟨⟩
  constructor
  · intro written
    obtain ⟨_, kind, ⟨⟩, wanted⟩ := firstToken?_child written
    cases wanted
  · intro written
    cases (subtype?_child written).2

open Lint in
theorem call_owner_type : ∃ owner chain kind, resolve callSettings owner = (.kind kind, []) ∧
    chainAt? (parse Parser.defaultLimit "(call )").tree 6 = some chain ∧ owner.isNode .namedNode = true ∧
    Owns owner chain ∧ (classify (parse Parser.defaultLimit "(call )").tree 6).type? = some "call" ∧
    ("call" = kind.name ↔ ∀ subtype, owner.subtype? = some subtype → subtype.text = "call") := by
  have located : chainAt? (parse Parser.defaultLimit "(call )").tree 6 = some (blankChain [⟨.identifier, "call"⟩] 5) := by
    decide +kernel
  have owns := blankChain_owned [⟨.identifier, "call"⟩] 5
  have typed : (classify (parse Parser.defaultLimit "(call )").tree 6).type? = some "call" := by decide +kernel
  have resolved : resolve callSettings ⟨0, spaced [⟨.identifier, "call"⟩]⟩ = (.kind _, []) := rfl
  exact ⟨_, _, _, resolved, located, rfl, owns, typed, owner_type_iff rfl resolved located rfl owns typed⟩

open Lint in
/-- Among the items of `(expression/call )` those of an expression are offered and those of a call checked. -/
theorem path_owner_differs : ∃ owner chain kind, resolve callSettings owner = (.kind kind, []) ∧
    chainAt? (parse Parser.defaultLimit "(expression/call )").tree 17 = some chain ∧ owner.isNode .namedNode = true ∧
    Owns owner chain ∧ kind.name = "call" ∧
    classify (parse Parser.defaultLimit "(expression/call )").tree 17 = .child true (some "expression") := by
  let path : List Token := [⟨.identifier, "expression"⟩, ⟨.slash, "/"⟩, ⟨.identifier, "call"⟩]
  have located : chainAt? (parse Parser.defaultLimit "(expression/call )").tree 17 = some (blankChain path 16) := by
    decide +kernel
  exact ⟨_, _, _, rfl, located, rfl, blankChain_owned path 16, rfl, by decide +kernel⟩

end TreeQuery.Completion
