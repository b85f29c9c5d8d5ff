import TreeQuery.Proofs.DistinctFindings

/-! Fields are checked once. A field definition or a negated field stands among the items of the
nearest construct around it that is no grouping and no list. If that is a named node the field is
checked with its items; if not, the field is bound to a check of its own. -/

namespace TreeQuery

namespace Syntax

variable {limit : Nat} {source : String} {place holder : Placed} {above : List Placed} {kind : NodeKind} {token : TokenKind}

/-- A construct that begins with a token of its own is not empty. -/
theorem parse_opened_wide (lineage : Lineage ⟨0, (parse limit source).tree⟩ (place :: above)) (made : place.kind = .node kind)
    (opener : kind.opener? = some token) : place.start < place.stop := by
  obtain ⟨child, inside, begins, word, shape⟩ := parse_first_token lineage made opener
  have site : ⟨child, place :: above⟩ ∈ (parse limit source).tree.tokenSites :=
    List.mem_filter.mpr ⟨(Lineage.child lineage inside).mem_sites, by simp [Site.isToken, shape]⟩
  have wide : child.start < child.stop := parse_token_wide site
  have within := Placed.child_within inside
  omega

/-- A list around one of its members: each other member comes before it or after it. -/
theorem split_around {α : Type} {before : α → α → Prop} {items : List α} {item : α} (ordered : items.Pairwise before)
    (member : item ∈ items) : ∃ first rest, items = first ++ item :: rest ∧
      ∀ other ∈ first ++ rest, other ∈ items ∧ (before other item ∨ before item other) := by
  obtain ⟨first, rest, rfl⟩ := List.append_of_mem member
  refine ⟨first, rest, rfl, fun other among => ?_⟩
  obtain ⟨_, behind, across⟩ := List.pairwise_append.mp ordered
  rcases List.mem_append.mp among with earlier | later
  · exact ⟨List.mem_append_left _ earlier, .inl (across other earlier item List.mem_cons_self)⟩
  · exact ⟨List.mem_append_right _ (List.mem_cons_of_mem _ later), .inr ((List.pairwise_cons.mp behind).1 other later)⟩

namespace Tree

variable {tree : Tree} {site other : Site}

theorem mem_nodeSites : site ∈ tree.nodeSites ↔
    Lineage ⟨0, tree⟩ (site.place :: site.above) ∧ ∃ kind, site.place.kind = .node kind := by
  rw [nodeSites, List.mem_filter, mem_sites_iff]
  refine and_congr_right fun _ => ?_
  unfold Site.isToken
  cases site.place.kind <;> simp

/-- What is not empty stands at one place in a tree only. -/
private theorem nodeSites_split (member : site ∈ tree.nodeSites) (wide : site.place.start < site.place.stop) : ∃ before after,
    tree.nodeSites = before ++ site :: after ∧ ∀ other ∈ before ++ after, other.place ≠ site.place := by
  have ordered := (sites_ordered 0 [] tree).sublist (List.filter_sublist (p := fun site => !site.isToken))
  obtain ⟨before, after, split, around⟩ := split_around ordered member
  refine ⟨before, after, split, fun other among same => ?_⟩
  obtain ⟨listed, side⟩ := around other among
  have lineage := (mem_nodeSites.mp member).1
  have further := (mem_nodeSites.mp listed).1
  rcases side with (inside | apart) | (inside | apart)
  · exact lineage.not_mem_above (same ▸ inside)
  · rw [same] at apart
    omega
  · exact further.not_mem_above (same ▸ inside)
  · rw [same] at apart
    omega

theorem site_of_place (member : site ∈ tree.nodeSites) (wide : site.place.start < site.place.stop)
    (among : other ∈ tree.nodeSites) (same : other.place = site.place) : other = site := by
  obtain ⟨before, after, split, apart⟩ := nodeSites_split member wide
  rw [split] at among
  rcases List.mem_append.mp among with first | rest
  · exact absurd same (apart other (List.mem_append_left _ first))
  · rcases List.mem_cons.mp rest with here | later
    · exact here
    · exact absurd same (apart other (List.mem_append_right _ later))

/-- What only one place contributes to comes from that place. -/
theorem nodeSites_flatMap {α : Type} {part : Site → List α} (member : site ∈ tree.nodeSites)
    (wide : site.place.start < site.place.stop)
    (none : ∀ other ∈ tree.nodeSites, other.place ≠ site.place → part other = []) :
    tree.nodeSites.flatMap part = part site := by
  obtain ⟨before, after, split, apart⟩ := nodeSites_split member wide
  have empty {sites : List Site} (within : ∀ other ∈ sites, other ∈ before ++ after) : sites.flatMap part = [] := by
    refine List.flatMap_eq_nil_iff.mpr fun other listed => none other ?_ (apart other (within other listed))
    rw [split]
    rcases List.mem_append.mp (within other listed) with first | later
    · exact List.mem_append_left _ first
    · exact List.mem_append_right _ (List.mem_cons_of_mem _ later)
  rw [split, List.flatMap_append, List.flatMap_cons, empty fun other => List.mem_append_left _,
    empty fun other => List.mem_append_right _, List.nil_append, List.append_nil]

end Tree

end Syntax

namespace Lint
open Syntax Diagnostic

variable {settings : Settings} {limit : Nat} {source : String} {root item owner place : Placed} {above between : List Placed}
  {site other : Site} {kind : NodeKind} {check : Check} {finding : Finding} {tree : Tree}

/-- The two kinds of fields, with the check that is for those that nothing owns. -/
inductive IsField : NodeKind → Check → Prop
  | definition : IsField .fieldDefinition .field
  | negated : IsField .negatedField .negatedField

/-- The named nodes that have an item among theirs. -/
def holders (tree : Tree) (item : Placed) : List Site :=
  tree.nodeSites.filter fun site => site.place.isNode .namedNode && decide (item ∈ flatItems site.place)

/-- The checks for fields without an owner that an item is bound to. -/
def bindings (tree : Tree) (item : Placed) : List Finding :=
  (findings tree).filter fun finding =>
    (finding.check = .field || finding.check = .negatedField) && decide (finding.place = item)

section Owners

private theorem field_holder (inside : .node .fieldDefinition ∈ kind.parts ∨ .node .negatedField ∈ kind.parts ∨
      .node .grouping ∈ kind.parts ∨ .node .list ∈ kind.parts) :
    kind = .grouping ∨ kind = .list ∨ kind = .program ∨ kind = .namedNode ∨ kind = .fieldDefinition := by
  cases kind with
  | grouping | list | program | namedNode | fieldDefinition => simp
  | anonymousNode | negatedField | capture | quantifier | predicate | parameters | string | error => revert inside; decide

/-- Groupings and lists aside, a field stands at the top level, in a named node or in the value of a field. -/
private theorem parse_owner (lineage : Lineage ⟨0, (parse limit source).tree⟩ (item :: above))
    (made : item.kind = .node .fieldDefinition ∨ item.kind = .node .negatedField ∨ looksThrough item = true) :
    ∃ owner, owner? above = some owner ∧
      (owner.kind = .node .program ∨ owner.kind = .node .namedNode ∨ owner.kind = .node .fieldDefinition) := by
  induction above generalizing item with
  | nil =>
    obtain ⟨children, program⟩ := Completion.parse_program limit source
    cases lineage with
    | root => simp [looksThrough, Placed.isNode, Placed.kind, program, Tree.kind] at made
  | cons holder above ih =>
    obtain ⟨kind, shape⟩ := lineage.above_nodes holder List.mem_cons_self
    have listed (solid : item.kind.isTrivia = false) : item.kind ∈ kind.parts :=
      mem_parts (parse_fits lineage.tail.mem_sites shape) (Placed.mem_line lineage.inside) solid
    have inside : .node .fieldDefinition ∈ kind.parts ∨ .node .negatedField ∈ kind.parts ∨
        .node .grouping ∈ kind.parts ∨ .node .list ∈ kind.parts := by
      simp only [looksThrough, Placed.isNode, Bool.or_eq_true, decide_eq_true_eq] at made
      rcases made with made | made | made | made
      all_goals
        have among := listed (by rw [made]; rfl)
        rw [made] at among
        simp [among]
    by_cases through : looksThrough holder = true
    · obtain ⟨owner, found, sort⟩ := ih lineage.tail (.inr (.inr through))
      exact ⟨owner, by rw [owner?, List.find?_cons_of_neg (by simp [through])]; exact found, sort⟩
    · refine ⟨holder, by rw [owner?, List.find?_cons_of_pos (by simp [through])], ?_⟩
      rcases field_holder inside with same | same | same | same | same
      · simp [looksThrough, Placed.isNode, shape, same] at through
      · simp [looksThrough, Placed.isNode, shape, same] at through
      · exact .inl (same ▸ shape)
      · exact .inr (.inl (same ▸ shape))
      · exact .inr (.inr (same ▸ shape))

theorem not_unowned (named : owner.kind = .node .namedNode) (owned : owner? above = some owner) : isUnowned above = false := by
  rw [isUnowned_iff_owner, owned]
  simp [Placed.isNode, named]

private theorem owner?_split (found : owner? above = some owner) :
    ∃ between rest, above = between ++ owner :: rest ∧ ∀ place ∈ between, looksThrough place = true := by
  obtain ⟨_, between, rest, split, through⟩ := List.find?_eq_some_iff_append.mp found
  exact ⟨between, rest, split, by simpa using through⟩

/-- An item counts among those of a construct from which only groupings and lists part it. -/
private theorem Exposes.among {child : Placed} {rest : List Placed} (exposes : Exposes child item)
    (lineage : Lineage root (child :: (between ++ owner :: rest)))
    (through : ∀ place ∈ between, looksThrough place = true) : Among owner item := by
  induction between generalizing child with
  | nil => exact ⟨child, lineage.inside, exposes⟩
  | cons holder between ih =>
    have looked := Bool.or_eq_true_iff.mp (through holder List.mem_cons_self)
    exact ih (.inside looked lineage.inside exposes) lineage.tail fun place member =>
      through place (List.mem_cons_of_mem _ member)

private theorem field_wide (lineage : Lineage ⟨0, (parse limit source).tree⟩ (place :: above)) (checked : IsField kind check)
    (made : place.kind = .node kind) : place.start < place.stop := by
  cases checked with
  | definition => exact parse_opened_wide lineage made rfl
  | negated => exact parse_opened_wide lineage made rfl

/-- A named node has among its items the fields that it is the owner of. -/
private theorem mem_flatItems_iff (field : site ∈ (parse limit source).tree.nodeSites) (checked : IsField kind check)
    (made : site.place.kind = .node kind) (holder : other ∈ (parse limit source).tree.nodeSites)
    (named : other.place.kind = .node .namedNode) :
    site.place ∈ flatItems other.place ↔ owner? site.above = some other.place := by
  obtain ⟨lineage, _⟩ := Tree.mem_nodeSites.mp field
  rw [mem_flatItems]
  constructor
  · intro among
    obtain ⟨between, deeper, through⟩ := among.lineage (Tree.mem_nodeSites.mp holder).1
    have wide := field_wide lineage checked made
    have again : ⟨site.place, between ++ other.place :: other.above⟩ ∈ (parse limit source).tree.nodeSites :=
      Tree.mem_nodeSites.mpr ⟨deeper, _, made⟩
    have same := congrArg Site.above (Tree.site_of_place field wide again rfl)
    rw [← same]
    exact owner?_between through (looksThrough_other named (by decide))
  · intro owned
    obtain ⟨between, rest, split, through⟩ := owner?_split owned
    have itself : Exposes site.place site.place := by
      cases checked with
      | definition => exact .itself made rfl ⟨nofun, nofun⟩
      | negated => exact .itself made rfl ⟨nofun, nofun⟩
    rw [split] at lineage
    exact itself.among lineage through

end Owners

section Findings

theorem checksOf_named (named : other.place.kind = .node .namedNode) : checksOf other = [.node] := by
  simp [checksOf, named]

private theorem checksOf_definition (made : site.place.kind = .node .fieldDefinition) : checksOf site =
    (if isUnowned site.above then [.field] else []) ++ (if site.place.value?.isNone then [.missingFieldValue] else []) := by
  simp only [checksOf, made]

private theorem checksOf_negated (made : site.place.kind = .node .negatedField) :
    checksOf site = if isUnowned site.above then [.negatedField] else [] := by
  simp only [checksOf, made]

/-- The check for fields without an owner is asked for where there is none. -/
private theorem checksOf_field (checked : IsField kind check) (made : site.place.kind = .node kind) :
    (checksOf site).filter (fun asked => asked = .field || asked = .negatedField) =
      if isUnowned site.above then [check] else [] := by
  cases checked with
  | definition =>
    rw [checksOf_definition made, List.filter_append]
    split <;> split <;> rfl
  | negated =>
    rw [checksOf_negated made]
    split <;> rfl

private theorem bindings_field (field : site ∈ tree.nodeSites) (wide : site.place.start < site.place.stop)
    (checked : IsField kind check) (made : site.place.kind = .node kind) :
    bindings tree site.place = if isUnowned site.above then [⟨check, site.place⟩] else [] := by
  rw [bindings, findings, List.filter_flatMap, Tree.nodeSites_flatMap field wide]
  · rw [List.filter_map]
    have same : (fun finding : Finding =>
          (finding.check = .field || finding.check = .negatedField) && decide (finding.place = site.place)) ∘ (⟨·, site.place⟩) =
        fun asked => asked = .field || asked = .negatedField := by
      funext asked
      simp
    rw [same, checksOf_field checked made]
    split <;> rfl
  · intro other _ apart
    refine List.filter_eq_nil_iff.mpr fun finding member => ?_
    obtain ⟨asked, _, rfl⟩ := List.mem_map.mp member
    simp [apart]

end Findings

/-- A check of one item, for what its parent resolves to. -/
structure Call where
  parent : Resolved
  span : Text.Span
  item : Placed

def Call.reports (settings : Settings) (call : Call) : List Report := checkItem settings call.parent call.span call.item

/-- The items of a named node are checked if its kind is known. -/
def itemCalls (settings : Settings) (node : Placed) : List Call :=
  match (resolve settings node).1 with
  | .unknown => []
  | parent => (flatItems node).map (⟨parent, (node.kindName?.getD node).span, ·⟩)

/-- The checks of items that a finding leads to. -/
def callsFor (settings : Settings) (finding : Finding) : List Call :=
  match finding.check with
  | .node => itemCalls settings finding.place
  | .field | .negatedField => [⟨.anyKind, finding.place.span, finding.place⟩]
  | _ => []

/-- What is reported of a finding itself. -/
def ownReports (settings : Settings) (finder : Regex.Finder) (finding : Finding) : List Report :=
  match finding.check with
  | .node => (resolve settings finding.place).2
  | .field | .negatedField => []
  | check => check.reports settings finder finding.place

/-- The checks of items in a run. Without a grammar there are none. -/
def calls (settings : Settings) (tree : Tree) : List Call :=
  if settings.env.isEmpty then [] else (findings tree).flatMap (callsFor settings)

/-- Every check reports what it reports of its findings themselves, and what the calls for them report, each call made
as often as it is listed. -/
def MakesCalls (settings : Settings) (tree : Tree) : Prop := ∀ check finder, runCheck settings (findings tree) check finder =
  (findings tree).flatMap fun finding =>
    if finding.check = check then
      ownReports settings finder finding ++ (callsFor settings finding).flatMap (Call.reports settings)
    else []

def callsOn (settings : Settings) (tree : Tree) (item : Placed) : List Call :=
  (calls settings tree).filter (·.item = item)

section Calls

theorem itemCalls_unknown (unknown : (resolve settings place).1 = .unknown) : itemCalls settings place = [] := by
  rw [itemCalls, unknown]

private theorem itemCalls_known (known : (resolve settings place).1 ≠ .unknown) : itemCalls settings place =
    (flatItems place).map (⟨(resolve settings place).1, (place.kindName?.getD place).span, ·⟩) := by
  unfold itemCalls
  split
  next unknown => exact absurd unknown known
  next => rfl

theorem mem_itemCalls {call : Call} (member : call ∈ itemCalls settings place) : call.item ∈ flatItems place := by
  by_cases unknown : (resolve settings place).1 = .unknown
  · rw [itemCalls_unknown unknown] at member
    cases member
  · rw [itemCalls_known unknown] at member
    obtain ⟨item, listed, rfl⟩ := List.mem_map.mp member
    exact listed

theorem checkNode_calls (settings : Settings) (node : Placed) :
    checkNode settings node = (resolve settings node).2 ++ (itemCalls settings node).flatMap (Call.reports settings) := by
  unfold checkNode itemCalls
  obtain ⟨resolved, reports⟩ := resolve settings node
  cases resolved with
  | unknown => exact (List.append_nil _).symm
  | kind kind => simp only [List.flatMap_map, Call.reports]
  | anyKind => simp only [List.flatMap_map, Call.reports]

/-- What a check reports is what it reports of the finding itself, with the reports of the items it checks. -/
private theorem reports_calls (settings : Settings) (finder : Regex.Finder) (concerned : check.Concerns place above) :
    check.reports settings finder place =
      ownReports settings finder ⟨check, place⟩ ++ (callsFor settings ⟨check, place⟩).flatMap (Call.reports settings) := by
  cases check with
  | node => exact checkNode_calls settings place
  | field => simp [Check.reports, ownReports, callsFor, Call.reports, checkItem, concerned.1]
  | negatedField => simp [Check.reports, ownReports, callsFor, Call.reports, checkItem, concerned.1]
  | emptyContainer | hangingCapture | missingFieldValue | missingParameters | predicate | regexPredicate =>
    exact (List.append_nil _).symm

theorem makesCalls (grammar : settings.env.isEmpty = false) : MakesCalls settings tree := by
  intro check finder
  rw [runCheck, grammar, Bool.and_false, if_neg Bool.false_ne_true, List.flatMap_def, List.flatMap_def]
  congr 1
  refine List.map_congr_left fun finding found => ?_
  obtain ⟨site, _, among⟩ := List.mem_flatMap.mp found
  obtain ⟨asked, listed, rfl⟩ := List.mem_map.mp among
  by_cases same : asked = check
  · subst same
    rw [if_pos rfl, if_pos rfl]
    exact reports_calls settings finder (concerns listed)
  · rw [if_neg same, if_neg same]

theorem callsOn_sites (grammar : settings.env.isEmpty = false) : callsOn settings tree item =
    tree.nodeSites.flatMap fun site => (checksOf site).flatMap fun check =>
      (callsFor settings ⟨check, site.place⟩).filter (·.item = item) := by
  rw [callsOn, calls, grammar, if_neg Bool.false_ne_true, findings, List.filter_flatMap, List.flatMap_assoc]
  simp only [List.flatMap_map]

/-- An item is checked for itself if it is unowned, and where it is among the items. -/
theorem calls_elsewhere (apart : other.place = item → isUnowned other.above = false)
    (outside : other.place.kind = .node .namedNode → item ∉ flatItems other.place) :
    ((checksOf other).flatMap fun check => (callsFor settings ⟨check, other.place⟩).filter (·.item = item)) = [] := by
  refine List.flatMap_eq_nil_iff.mpr fun check asked => List.filter_eq_nil_iff.mpr fun call member => ?_
  have concerned := concerns asked
  suffices different : call.item ≠ item by simpa using different
  intro same
  cases check with
  | node => exact outside concerned (same ▸ mem_itemCalls member)
  | field | negatedField =>
    rw [List.mem_singleton.mp member] at same
    exact absurd concerned.2 (by simp [apart same])
  | emptyContainer | hangingCapture | missingFieldValue | missingParameters | predicate | regexPredicate => cases member

/-- An unowned field is checked for itself, once. -/
private theorem calls_itself (checked : IsField kind check) (made : site.place.kind = .node kind)
    (unowned : isUnowned site.above = true) :
    ((checksOf site).flatMap fun check => (callsFor settings ⟨check, site.place⟩).filter (·.item = site.place)) =
      [⟨.anyKind, site.place.span, site.place⟩] := by
  cases checked with
  | definition =>
    rw [checksOf_definition made, if_pos unowned, List.flatMap_append]
    split <;> simp [callsFor]
  | negated =>
    rw [checksOf_negated made, if_pos unowned]
    simp [callsFor]

end Calls

/-- A field that a named node owns: it is among the items of that node, once, and of no other node, and is
checked with them if the kind of the node is known. -/
structure Owned (settings : Settings) (tree : Tree) (site owner : Site) : Prop where
  alone : holders tree site.place = [owner]
  nearest : owner? site.above = some owner.place
  once : (flatItems owner.place).count site.place = 1
  unbound : bindings tree site.place = []
  known : settings.env.isEmpty = false → (resolve settings owner.place).1 ≠ .unknown →
    callsOn settings tree site.place =
      [⟨(resolve settings owner.place).1, (owner.place.kindName?.getD owner.place).span, site.place⟩]
  unknown : settings.env.isEmpty = false → (resolve settings owner.place).1 = .unknown → callsOn settings tree site.place = []

/-- A field that no named node owns: it is among the items of none and is bound to a check of its own. -/
structure Unowned (settings : Settings) (tree : Tree) (site : Site) (check : Check) : Prop where
  outside : holders tree site.place = []
  bound : bindings tree site.place = [⟨check, site.place⟩]
  checked : settings.env.isEmpty = false → callsOn settings tree site.place = [⟨.anyKind, site.place.span, site.place⟩]

/-- What is not empty is among the items of a construct at most once. -/
private theorem flatItems_split (listed : item ∈ flatItems place) (wide : item.start < item.stop) : ∃ before after,
    flatItems place = before ++ item :: after ∧ ∀ other ∈ before ++ after, other ≠ item := by
  obtain ⟨before, after, split, around⟩ := split_around (spreadAll_ordered place.start place.tree.children) listed
  refine ⟨before, after, split, fun other among same => ?_⟩
  rcases (around other among).2 with apart | apart
  · rw [same] at apart
    omega
  · rw [same] at apart
    omega

private theorem flatItems_count (listed : item ∈ flatItems place) (wide : item.start < item.stop) :
    (flatItems place).count item = 1 := by
  obtain ⟨before, after, split, rest⟩ := flatItems_split listed wide
  have first : item ∉ before := fun member => rest item (List.mem_append_left _ member) rfl
  have last : item ∉ after := fun member => rest item (List.mem_append_right _ member) rfl
  rw [split, List.count_append, List.count_cons_self, List.count_eq_zero.mpr first, List.count_eq_zero.mpr last]

/-- A named node of a known kind has one check for each of its items. -/
private theorem itemCalls_once (listed : item ∈ flatItems place) (wide : item.start < item.stop)
    (known : (resolve settings place).1 ≠ .unknown) : (itemCalls settings place).filter (·.item = item) =
      [⟨(resolve settings place).1, (place.kindName?.getD place).span, item⟩] := by
  obtain ⟨before, after, split, rest⟩ := flatItems_split listed wide
  have others (items : List Placed) (within : ∀ other ∈ items, other ∈ before ++ after) :
      items.filter (fun other => decide (other = item)) = [] :=
    List.filter_eq_nil_iff.mpr fun other member => by simpa using rest other (within other member)
  rw [itemCalls_known known, List.filter_map]
  change List.map _ ((flatItems place).filter fun other => decide (other = item)) = _
  rw [split, List.filter_append, List.filter_cons_of_pos (by simp), others before fun other => List.mem_append_left _,
    others after fun other => List.mem_append_right _]
  rfl

section Owned

variable (field : site ∈ (parse limit source).tree.nodeSites) (checked : IsField kind check) (made : site.place.kind = .node kind)
  (holder : other ∈ (parse limit source).tree.nodeSites) (named : other.place.kind = .node .namedNode)
  (owned : owner? site.above = some other.place)

include field checked made owned in
/-- No other node than its owner has a field among its items. -/
private theorem outside_others {another : Site} (among : another ∈ (parse limit source).tree.nodeSites)
    (apart : another.place ≠ other.place) (sort : another.place.kind = .node .namedNode) :
    site.place ∉ flatItems another.place := by
  rw [mem_flatItems_iff field checked made among sort, owned]
  intro same
  exact apart (Option.some.inj same).symm

include field checked made holder named owned

private theorem holders_owned : holders (parse limit source).tree site.place = [other] := by
  have wide := parse_opened_wide (Tree.mem_nodeSites.mp holder).1 named rfl
  have listed := (mem_flatItems_iff field checked made holder named).mpr owned
  rw [holders, ← List.flatMap_singleton' (parse limit source).tree.nodeSites, List.filter_flatMap,
    Tree.nodeSites_flatMap holder wide]
  · simp [Placed.isNode, named, listed]
  · intro another among apart
    refine List.filter_eq_nil_iff.mpr fun same member => ?_
    rw [List.mem_singleton.mp member]
    simpa [Placed.isNode] using outside_others field checked made owned among apart

private theorem callsOn_owned (grammar : settings.env.isEmpty = false) : callsOn settings (parse limit source).tree site.place =
    (itemCalls settings other.place).filter (·.item = site.place) := by
  have narrow := field_wide (Tree.mem_nodeSites.mp field).1 checked made
  have wide := parse_opened_wide (Tree.mem_nodeSites.mp holder).1 named rfl
  rw [callsOn_sites grammar, Tree.nodeSites_flatMap holder wide, checksOf_named named, List.flatMap_singleton]
  · rfl
  · intro another among apart
    refine calls_elsewhere (fun same => ?_) (outside_others field checked made owned among apart)
    rw [Tree.site_of_place field narrow among same]
    exact not_unowned named owned

private theorem field_owned : Owned settings (parse limit source).tree site other := by
  have narrow := field_wide (Tree.mem_nodeSites.mp field).1 checked made
  have listed := (mem_flatItems_iff field checked made holder named).mpr owned
  refine ⟨holders_owned field checked made holder named owned, owned, flatItems_count listed narrow, ?_, ?_, ?_⟩
  · rw [bindings_field field narrow checked made, not_unowned named owned]
    rfl
  · intro grammar known
    rw [callsOn_owned field checked made holder named owned grammar]
    exact itemCalls_once listed narrow known
  · intro grammar unknown
    rw [callsOn_owned field checked made holder named owned grammar, itemCalls_unknown unknown]
    rfl

end Owned

private theorem field_unowned (field : site ∈ (parse limit source).tree.nodeSites) (checked : IsField kind check)
    (made : site.place.kind = .node kind) (unowned : isUnowned site.above = true) :
    Unowned settings (parse limit source).tree site check := by
  have narrow := field_wide (Tree.mem_nodeSites.mp field).1 checked made
  have outside (other : Site) (among : other ∈ (parse limit source).tree.nodeSites)
      (named : other.place.kind = .node .namedNode) : site.place ∉ flatItems other.place := by
    rw [mem_flatItems_iff field checked made among named]
    intro owned
    cases unowned.symm.trans (not_unowned named owned)
  refine ⟨?_, ?_, fun grammar => ?_⟩
  · refine List.filter_eq_nil_iff.mpr fun other among => ?_
    simpa [Placed.isNode] using outside other among
  · rw [bindings_field field narrow checked made, if_pos unowned]
  · rw [callsOn_sites grammar, Tree.nodeSites_flatMap field narrow]
    · exact calls_itself checked made unowned
    · intro other among apart
      exact calls_elsewhere (fun same => absurd same apart) (outside other among)

end Lint

end TreeQuery
