import TreeQuery.Proofs.FieldOwners
import TreeQuery.Proofs.LongestTokens

/-! Kinds that the grammar does not know. The name of such a node is looked at by the node itself, by what it is a child
of and by the field that it is a value of, but only the node reports it. What the node holds is then not checked for it,
and is checked for itself as ever. -/

namespace TreeQuery

namespace Syntax

variable {limit : Nat} {source : String} {token holder place item owner : Placed} {above others : List Placed} {site : Site}

namespace Token

/-- What is not garbage is as declared for its kind. -/
private theorem scan_declared {text : List Char} {piece : TokenKind × List Char} (member : piece ∈ scan text) :
    piece.1 = .garbage ∨ piece.2 ∈ declared piece.1 := by
  fun_induction scan text with
  | case1 => cases member
  | case2 c rest kind more found ih =>
    rcases List.mem_cons.mp member with rfl | later
    · cases begins : longest? c rest with
      | none =>
        simp only [begins, Option.getD_none, Prod.mk.injEq] at found
        exact .inl found.1.symm
      | some longest =>
        obtain rfl : longest = (kind, more) := by simpa [begins] using found
        exact .inr (longest?_declared begins)
    · exact ih later

private theorem splitString_kind {body : List Char} {token : Token} (member : token ∈ splitString body) :
    token.kind = .doubleQuote ∨ token.kind = .stringContent := by
  rcases List.mem_cons.mp member with rfl | inside
  · exact .inl rfl
  · split at inside
    next =>
      rcases List.mem_append.mp inside with content | closer
      · exact .inr (mem_contentTokens content ▸ rfl)
      · exact .inl (List.mem_singleton.mp closer ▸ rfl)
    next => exact .inr (mem_contentTokens inside ▸ rfl)

private theorem ofText_underscore {token : Token} (member : token ∈ ofText source) (wild : token.kind = .underscore) :
    token.text = "_" := by
  obtain ⟨piece, scanned, inside⟩ := List.mem_flatMap.mp member
  have known := scan_declared scanned
  unfold ofScanned at inside
  split at inside
  next => exact absurd (splitString_kind inside) (by simp [wild])
  next kind text _ =>
    obtain rfl := List.mem_singleton.mp inside
    obtain rfl : kind = .underscore := wild
    obtain ⟨_, rfl, rfl⟩ := known.resolve_left nofun
    rfl

end Token

private theorem parse_underscore (lineage : Lineage ⟨0, (parse limit source).tree⟩ (token :: above))
    (wild : token.kind = .token .underscore) : token.text = "_" := by
  obtain ⟨start, tree⟩ := token
  cases tree with
  | node => cases wild
  | leaf word =>
    obtain ⟨before, after, leaves, _⟩ := lineage.leaves
    have listed : word ∈ Token.ofText source := by
      rw [← parse_leaves limit, leaves]
      simp [Tree.leaves]
    have same := Token.ofText_underscore listed (Kind.token.inj wild)
    simpa [Placed.text, Tree.text, Tree.leaves] using same

/-- What is in the range of a place and not empty is that place, is inside it or holds it. -/
private theorem Lineage.of_range (lineage : Lineage ⟨0, (parse limit source).tree⟩ (place :: above))
    (around : Lineage ⟨0, (parse limit source).tree⟩ (holder :: others)) (wide : place.start < place.stop)
    (start : holder.start ≤ place.start) (stop : place.stop ≤ holder.stop) :
    place = holder ∨ holder ∈ above ∨ place ∈ others := by
  by_cases same : place = holder
  · exact .inl same
  · obtain ⟨first, rest, split, sides⟩ := split_around (Tree.sites_ordered 0 [] (parse limit source).tree) lineage.mem_sites
    have listed : ⟨holder, others⟩ ∈ first ++ rest := by
      have member := around.mem_sites
      rw [split] at member
      rcases List.mem_append.mp member with early | late
      · exact List.mem_append_left _ early
      · rcases List.mem_cons.mp late with here | later
        · exact absurd (congrArg Site.place here).symm same
        · exact List.mem_append_right _ later
    rcases (sides _ listed).2 with (inside | apart) | (inside | apart)
    · exact .inr (.inl inside)
    · have before : holder.stop ≤ place.start := apart
      omega
    · exact .inr (.inr inside)
    · have behind : place.stop ≤ holder.start := apart
      omega

end Syntax

namespace Lint
open Syntax Diagnostic Shape

variable {settings : Settings} {limit : Nat} {source : String} {place name node item owner construct : Placed}
  {above : List Placed} {site other : Site} {report : Report} {check : Check} {tree : Tree} {kind : NodeKind}
  {parent : Grammar.NamedKind} {allowed : Allowed} {kinds : List Diagnostic.Kind} {reports : List Report}

/-- A named node whose name, written without a subtype, the grammar does not know. -/
structure Unknown (settings : Settings) (node name : Placed) : Prop where
  made : node.kind = .node .namedNode
  named : node.kindName? = some name
  alone : node.subtype? = none
  proper : name.text ∉ "_" :: pseudoKinds
  kind : settings.env.kinds.contains name.text = false
  supertype : settings.env.supertypes.contains name.text = false

namespace Unknown

private theorem kind_none (unknown : Unknown settings node name) : settings.env.kinds.get? name.text = none := by
  simpa [Registry.contains] using unknown.kind

private theorem supertype_none (unknown : Unknown settings node name) : settings.env.supertypes.get? name.text = none := by
  simpa [Registry.contains] using unknown.supertype

private theorem not_pseudo (unknown : Unknown settings node name) : name.text ∉ pseudoKinds :=
  fun listed => unknown.proper (List.mem_cons_of_mem _ listed)

private theorem not_wildcard (unknown : Unknown settings node name)
    (lineage : Lineage ⟨0, (parse limit source).tree⟩ (node :: above)) : node.isWildcard = false := by
  obtain ⟨inside, _⟩ := Completion.firstToken?_child unknown.named
  have told : node.isWildcard = decide (name.kind = .token .underscore) := by rw [Placed.isWildcard, unknown.named]; rfl
  rw [told]
  refine decide_eq_false fun wild => unknown.proper ?_
  rw [parse_underscore (.child lineage inside) wild]
  exact List.mem_cons_self

private theorem checkableName?_own (unknown : Unknown settings node name) (proper : node.isWildcard = false) :
    checkableName? node = some name := by
  simp [checkableName?, proper, unknown.named, unknown.not_pseudo, unknown.alone]

private theorem resolve_own (unknown : Unknown settings node name) (proper : node.isWildcard = false) :
    resolve settings node = (.unknown, [unknownKind settings name]) := by
  simp [resolve, proper, unknown.named, unknown.not_pseudo, unknown.alone, unknown.kind_none, unknown.supertype]

/-- As a child it is not reported. -/
private theorem child_silent (unknown : Unknown settings node name) (proper : node.isWildcard = false) :
    checkChildKind settings parent node = [] := by
  simp [checkChildKind, unknown.checkableName?_own proper, unknown.kind, unknown.supertype]

/-- As a value it is not reported. -/
private theorem value_silent (unknown : Unknown settings node name) (proper : node.isWildcard = false) :
    checkFieldValue settings allowed node = [] := by
  have fits : kindFits settings name.text allowed.types = true := by
    simp [kindFits, unknown.kind_none, unknown.supertype_none]
  simp [checkFieldValue, unknown.made, unknown.checkableName?_own proper, fits]

end Unknown

/-- A report of a construct. A named node is reported for its kind, as a child or as a value. -/
structure ReportOf (settings : Settings) (construct : Placed) (report : Report) : Prop where
  marks : Marks construct report
  plain : construct.isNode .string = false
  node : construct.kind = .node .namedNode → report ∈ (resolve settings construct).2 ∨
    (∃ parent, report ∈ checkChildKind settings parent construct) ∨ ∃ allowed, report ∈ checkFieldValue settings allowed construct

section Reports

private theorem ReportOf.apart {aside : List Text.Span} (lone : Lone construct kinds aside reports) (member : report ∈ reports)
    (made : construct.kind = .node kind) (differs : kind ≠ .namedNode ∧ kind ≠ .string) : ReportOf settings construct report :=
  ⟨lone.marks report member, by simp [Placed.isNode, made, differs.2],
    fun node => absurd (Kind.node.inj (made.symm.trans node)) differs.1⟩

private theorem ReportOf.named {aside : List Text.Span} (lone : Lone construct kinds aside reports) (member : report ∈ reports)
    (made : construct.kind = .node .namedNode) (told : report ∈ (resolve settings construct).2 ∨
      (∃ parent, report ∈ checkChildKind settings parent construct) ∨ ∃ allowed, report ∈ checkFieldValue settings allowed construct) :
    ReportOf settings construct report :=
  ⟨lone.marks report member, by simp [Placed.isNode, made], fun _ => told⟩

/-- Whether a report is of a construct of a tree. -/
def IsReported (settings : Settings) (tree : Tree) (report : Report) : Prop :=
  ∃ construct above, Lineage ⟨0, tree⟩ (construct :: above) ∧ ReportOf settings construct report

variable {span : Text.Span} {resolved : Resolved} {finder : Regex.Finder}

private theorem checkField_reported (lineage : Lineage ⟨0, tree⟩ (place :: above)) (made : place.kind = .node .fieldDefinition)
    (member : report ∈ checkField settings resolved span place) : IsReported settings tree report := by
  rcases checkField_cases settings resolved span place with lone | ⟨allowed, values⟩
  · exact ⟨place, above, lineage, .apart lone member made (by decide)⟩
  · rw [values] at member
    obtain ⟨value, exposed, member⟩ := List.mem_flatMap.mp member
    have inside := mem_flatValues.mp exposed
    obtain ⟨between, deeper, _⟩ := inside.lineage lineage
    obtain ⟨kind, shape, proper, _⟩ := inside.elim fun _ found => found.2.shape
    refine ⟨value, _, deeper, ?_⟩
    by_cases named : kind = .namedNode
    · exact .named (checkFieldValue_lone value) member (named ▸ shape) (.inr (.inr ⟨allowed, member⟩))
    · refine .apart (checkFieldValue_lone value) member shape ⟨named, ?_⟩
      rintro rfl
      cases proper

private theorem checkItem_reported (lineage : Lineage ⟨0, tree⟩ (place :: above))
    (member : report ∈ checkItem settings resolved span place) :
    IsReported settings tree report := by
  unfold checkItem at member
  split at member
  next made => exact ⟨place, above, lineage, .named (checkChildKind_lone place) member made (.inr (.inl ⟨_, member⟩))⟩
  next made => exact ⟨place, above, lineage, .apart (checkChildLiteral_lone place) member made (by decide)⟩
  next made => exact checkField_reported lineage made member
  next made => exact ⟨place, above, lineage, .apart (checkNegatedField_lone made) member made (by decide)⟩
  next => cases member

private theorem checkNode_reported (lineage : Lineage ⟨0, tree⟩ (place :: above)) (made : place.kind = .node .namedNode)
    (member : report ∈ checkNode settings place) : IsReported settings tree report := by
  rw [checkNode_calls] at member
  rcases List.mem_append.mp member with own | items
  · exact ⟨place, above, lineage, .named (resolve_lone place) own made (.inl own)⟩
  · obtain ⟨call, called, member⟩ := List.mem_flatMap.mp items
    obtain ⟨between, deeper, _⟩ := (mem_flatItems.mp (mem_itemCalls called)).lineage lineage
    exact checkItem_reported deeper member

/-- But for faults of regular expressions every report is of some construct. -/
private theorem reports_reported (lineage : Lineage ⟨0, tree⟩ (place :: above)) (concerned : check.Concerns place above)
    (plain : check ≠ .regexPredicate) (member : report ∈ check.reports settings finder place) : IsReported settings tree report := by
  have whole {kind : NodeKind} {token : TokenKind} (made : place.kind = .node kind) (opener : kind.opener? = some token)
      (differs : kind ≠ .namedNode ∧ kind ≠ .string) (same : report.span = place.span) : IsReported settings tree report :=
    ⟨place, above, lineage, .whole made opener same, by simp [Placed.isNode, made, differs.2],
      fun node => absurd (Kind.node.inj (made.symm.trans node)) differs.1⟩
  cases check with
  | node => exact checkNode_reported lineage concerned member
  | field =>
    have member : report ∈ checkField settings .anyKind place.span place := member
    exact checkField_reported lineage concerned.1 member
  | negatedField =>
    have member : report ∈ checkNegatedField settings .anyKind place := member
    exact ⟨place, above, lineage, .apart (checkNegatedField_lone concerned.1) member concerned.1 (by decide)⟩
  | predicate =>
    exact ⟨place, above, lineage, .apart (checkPredicateName_lone settings.suggestionDistance concerned) member concerned (by decide)⟩
  | emptyContainer =>
    have same : report.span = place.span := List.mem_singleton.mp member ▸ rfl
    rcases concerned with made | made
    · exact whole made rfl (by decide) same
    · exact whole made rfl (by decide) same
  | hangingCapture => exact whole concerned rfl (by decide) (List.mem_singleton.mp member ▸ rfl)
  | missingFieldValue =>
    refine whole concerned rfl (by decide) ?_
    rw [List.mem_singleton.mp member]
    cases place.identifier? <;> rfl
  | missingParameters =>
    refine whole concerned rfl (by decide) ?_
    rw [List.mem_singleton.mp member]
    cases place.predicateName? <;> rfl
  | regexPredicate => exact absurd rfl plain

end Reports

section Regex

/-- No fault of a regular expression is reported at a word outside predicates. -/
private theorem checkRegex_apart {holder : Placed} {others : List Placed} (made : place.kind = .node .predicate)
    (lineage : Lineage ⟨0, (parse limit source).tree⟩ (place :: above))
    (word : Lineage ⟨0, (parse limit source).tree⟩ (name :: holder :: others)) (token : ∃ kind, name.kind = .token kind)
    (outside : holder.kind.inPredicate = false) (differs : holder.kind ≠ .node .predicate)
    (member : report ∈ checkRegex finder place) : report.span ≠ name.span := by
  intro same
  obtain ⟨kind, shape⟩ := token
  obtain ⟨begins, _, ends⟩ := checkRegex_within made lineage member
  have wide := (word.covers_token shape).wide
  rw [same] at begins ends
  rcases word.of_range lineage wide (Nat.le_of_lt begins) ends with here | inside | below
  · rw [here, made] at shape
    cases shape
  · rcases List.mem_cons.mp inside with rfl | further
    · exact differs made
    · rw [parse_inPredicate word.tail further made] at outside
      cases outside
  · obtain ⟨other, node⟩ := lineage.above_nodes name below
    rw [shape] at node
    cases node

end Regex

section Names

variable (unknown : Unknown settings site.place name) (listed : site ∈ (parse limit source).tree.nodeSites)

include unknown listed

private theorem Unknown.unnamed : site.place.isWildcard = false := unknown.not_wildcard (Tree.mem_nodeSites.mp listed).1

private theorem Unknown.checkNode_own : checkNode settings site.place = [unknownKind settings name] := by
  simp only [checkNode, unknown.resolve_own (unknown.unnamed listed)]

/-- What is reported at the name of an unknown kind is that the kind is unknown. -/
private theorem Unknown.report_own {finding : Finding} (found : finding ∈ findings (parse limit source).tree)
    (member : report ∈ finding.check.reports settings finder finding.place) (same : report.span = name.span) :
    report = unknownKind settings name := by
  have lineage := (Tree.mem_nodeSites.mp listed).1
  have proper := unknown.unnamed listed
  obtain ⟨inside, word, token, _⟩ := Completion.firstToken?_child unknown.named
  have within := Lineage.child lineage inside
  obtain ⟨above, around, concerned⟩ := mem_findings found
  by_cases plain : finding.check = .regexPredicate
  · rw [plain] at concerned member
    have outside : site.place.kind.inPredicate = false := by rw [unknown.made]; rfl
    have differs : site.place.kind ≠ .node .predicate := by rw [unknown.made]; decide
    exact absurd same (checkRegex_apart concerned around within ⟨word, token⟩ outside differs member)
  · obtain ⟨construct, above, deeper, told⟩ := reports_reported around concerned plain member
    have begins := BeginsIn.of_marks told.marks deeper told.plain
    have own : BeginsIn (parse limit source).tree report (site.place :: site.above) :=
      ⟨⟨name, site.place :: site.above⟩, List.mem_filter.mpr ⟨within.mem_sites, by simp [Site.isToken, token]⟩,
        (congrArg Text.Span.start same).symm, by simp [constructOf, Placed.isNode, unknown.made]⟩
    obtain ⟨rfl, rfl⟩ := List.cons.inj (begins.unique own rfl)
    rcases told.node unknown.made with itself | ⟨parent, child⟩ | ⟨allowed, value⟩
    · rw [unknown.resolve_own proper] at itself
      exact List.mem_singleton.mp itself
    · rw [unknown.child_silent proper] at child
      cases child
    · rw [unknown.value_silent proper] at value
      cases value

end Names

section Matches

variable (listed : site ∈ (parse limit source).tree.nodeSites) (made : site.place.kind = .node .namedNode)

include listed made

/-- A named node is looked at once. -/
private theorem findings_named : (findings (parse limit source).tree).filter (·.place = site.place) = [⟨.node, site.place⟩] := by
  have wide := parse_opened_wide (Tree.mem_nodeSites.mp listed).1 made rfl
  rw [findings, List.filter_flatMap, Tree.nodeSites_flatMap listed wide]
  · simp [checksOf_named made]
  · intro other _ apart
    refine List.filter_eq_nil_iff.mpr fun finding member => ?_
    obtain ⟨_, _, rfl⟩ := List.mem_map.mp member
    simpa using apart

/-- With a grammar, what is reported of a named node is among the reports of a run. -/
private theorem checkNode_within_run (grammar : settings.env.isEmpty = false) :
    checkNode settings site.place <:+: run settings (parse limit source).tree finder := by
  have found : (⟨.node, site.place⟩ : Finding) ∈ findings (parse limit source).tree :=
    List.mem_flatMap.mpr ⟨site, listed, by simp [checksOf_named made]⟩
  have here : checkNode settings site.place <:+: runCheck settings (findings (parse limit source).tree) .node finder := by
    rw [runCheck, grammar, Bool.and_false, if_neg Bool.false_ne_true, List.flatMap_def]
    exact List.infix_of_mem_flatten (List.mem_map.mpr ⟨_, found, rfl⟩)
  rw [run, List.flatMap_def]
  exact here.trans (List.infix_of_mem_flatten (List.mem_map_of_mem (by decide)))

end Matches

section Items

/-- An item that is no grouping and no list is not empty. -/
private theorem item_wide (lineage : Lineage ⟨0, (parse limit source).tree⟩ (item :: above)) (made : item.kind = .node kind)
    (proper : kind.isItem = true) : item.start < item.stop := by
  cases kind with
  | namedNode | grouping | list | fieldDefinition | negatedField | predicate => exact parse_opened_wide lineage made rfl
  | anonymousNode =>
    obtain ⟨_, written, _, _, same⟩ := mem_seq.mp (parse_fits lineage.mem_sites made)
    obtain ⟨kind, known, rfl⟩ := mem_oneOf.mp written
    have opens : kind ∈ row item.tree.children := same ▸ List.mem_cons_self
    obtain ⟨child, inside, shape⟩ := Placed.child_of_row opens
    have deeper := Lineage.child lineage inside
    have wide : child.start < child.stop := by
      rcases List.mem_cons.mp known with rfl | string
      · exact (deeper.covers_token shape).wide
      · obtain rfl := List.mem_singleton.mp string
        exact parse_opened_wide deeper shape rfl
    have within := Placed.child_within inside
    omega
  | program | capture | quantifier | parameters | string | error => cases proper

/-- The items of a named node are those of no other, and none of them is without an owner. -/
private theorem flatItems_owner (listed : site ∈ (parse limit source).tree.nodeSites) (made : site.place.kind = .node .namedNode)
    (member : item ∈ flatItems site.place) : ∃ above, owner? above = some site.place ∧
      ⟨item, above⟩ ∈ (parse limit source).tree.nodeSites ∧
        ∀ other ∈ (parse limit source).tree.nodeSites, other.place = item → other.above = above := by
  have among := mem_flatItems.mp member
  obtain ⟨between, deeper, through⟩ := among.lineage (Tree.mem_nodeSites.mp listed).1
  obtain ⟨kind, shape, proper, _⟩ := among.elim fun _ exposed => exposed.2.shape
  have itself : ⟨item, between ++ site.place :: site.above⟩ ∈ (parse limit source).tree.nodeSites :=
    Tree.mem_nodeSites.mpr ⟨deeper, kind, shape⟩
  refine ⟨between ++ site.place :: site.above, owner?_between through (looksThrough_other made (by decide)), itself, ?_⟩
  intro other found same
  exact congrArg Site.above (Tree.site_of_place itself (item_wide deeper shape proper) found same)

/-- No item of an unknown kind is checked for any node. -/
private theorem Unknown.callsOn_items (unknown : Unknown settings site.place name)
    (listed : site ∈ (parse limit source).tree.nodeSites)
    (grammar : settings.env.isEmpty = false) (member : item ∈ flatItems site.place) :
    callsOn settings (parse limit source).tree item = [] := by
  obtain ⟨above, owned, itself, only⟩ := flatItems_owner listed unknown.made member
  rw [callsOn_sites grammar]
  refine List.flatMap_eq_nil_iff.mpr fun other found => ?_
  by_cases here : other.place = site.place
  · have none : itemCalls settings site.place = [] :=
      itemCalls_unknown (by rw [unknown.resolve_own (unknown.unnamed listed)])
    rw [here, checksOf_named (here ▸ unknown.made), List.flatMap_singleton]
    simp [callsFor, none]
  · refine calls_elsewhere (fun same => ?_) fun named again => here ?_
    · rw [only other found same]
      exact not_unowned unknown.made owned
    · obtain ⟨holders, owned', _, only'⟩ := flatItems_owner found named again
      rw [← only' _ itself rfl, owned] at owned'
      exact (Option.some.inj owned').symm

end Items

/-- What a run makes of a named node of an unknown kind: its name has one report, its match has no other and checks no item,
nor does any other match; and the nodes inside it are looked at, and their reports given, as everywhere. -/
structure Silenced (settings : Settings) (finder : Regex.Finder) (tree : Tree) (site : Site) (name : Placed) : Prop where
  once : (run settings tree finder).filter (·.span = name.span) = [unknownKind settings name]
  error : (unknownKind settings name).kind = .unknownNodeType ∧ (unknownKind settings name).isError = true
  only : checkNode settings site.place = [unknownKind settings name]
  unchecked : ∀ item ∈ flatItems site.place, callsOn settings tree item = []
  nested : ∀ inner ∈ tree.nodeSites, inner.place.kind = .node .namedNode → site.place ∈ inner.above →
    (findings tree).filter (·.place = inner.place) = [⟨.node, inner.place⟩] ∧
      checkNode settings inner.place <:+: run settings tree finder

/-- With a grammar, an unknown kind is reported once, at its name, wherever the node stands, and silences the checks of what
the node holds, but not those of the nodes nested in it; what is called for is what the run checks. -/
theorem unknown_kind_silenced (settings : Settings) (finder : Regex.Finder) (limit : Nat) (source : String) (site : Site)
    (name : Placed) (grammar : settings.env.isEmpty = false) (listed : site ∈ (parse limit source).tree.nodeSites)
    (unknown : Unknown settings site.place name) :
    MakesCalls settings (parse limit source).tree ∧ Silenced settings finder (parse limit source).tree site name := by
  have only := unknown.checkNode_own listed
  have reported : unknownKind settings name ∈ run settings (parse limit source).tree finder :=
    (checkNode_within_run listed unknown.made grammar).subset (only ▸ List.mem_cons_self)
  refine ⟨makesCalls grammar, ?_, ⟨unknownKind_kind, ?_⟩, only, fun item => unknown.callsOn_items listed grammar,
    fun inner among named _ => ⟨findings_named among named, checkNode_within_run among named grammar⟩⟩
  · refine filter_unique (run_nodup settings finder limit source) reported fun report member => ?_
    rw [decide_eq_true_iff]
    refine ⟨fun here => ?_, fun own => own ▸ unknownKind_span⟩
    obtain ⟨check, _, found⟩ := List.mem_flatMap.mp member
    obtain ⟨finding, among, rfl, told⟩ := mem_runCheck found
    exact unknown.report_own listed among told here
  · rw [Report.isError, Report.severity, unknownKind_kind]
    rfl

/-- A node of an unknown kind in the value of a field, with another one among its items. -/
theorem listed_unknown_silenced :
    let settings : Settings := ⟨.ofDeclarations [.leaf "a" ⟨false, false⟩], 3⟩
    let tree := (parse 8 "(a x: [(b (b) !f)])").tree
    settings.env.isEmpty = false ∧ MakesCalls settings tree ∧ ∃ site ∈ tree.nodeSites, site.place.text = "(b (b) !f)" ∧
      ∃ name, Unknown settings site.place name ∧ Silenced settings Regex.fault? tree site name := by
  intro settings tree
  obtain ⟨site, listed, text, made, named, alone⟩ : ∃ site ∈ tree.nodeSites, site.place.text = "(b (b) !f)" ∧
      site.place.kind = .node .namedNode ∧ site.place.kindName?.map Placed.text = some "b" ∧ site.place.subtype? = none := by
    decide +kernel
  obtain ⟨name, found, word⟩ := Option.map_eq_some_iff.mp named
  have grammar : settings.env.isEmpty = false := by decide
  have unknown : Unknown settings site.place name :=
    ⟨made, found, alone, by rw [word]; decide, by rw [word]; decide, by rw [word]; decide⟩
  obtain ⟨calls, silenced⟩ := unknown_kind_silenced settings Regex.fault? 8 "(a x: [(b (b) !f)])" site name grammar listed unknown
  exact ⟨grammar, calls, site, listed, text, name, unknown, silenced⟩

end Lint

end TreeQuery
