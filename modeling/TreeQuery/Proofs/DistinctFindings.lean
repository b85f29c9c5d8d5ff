import TreeQuery.Analyzer
import TreeQuery.Proofs.ReportPlaces
import TreeQuery.Proofs.ReportSpots

/-! No check reports the same twice, and no two checks report the same. Two constructs are either one inside the other or
stand one after the other, items of one construct stand one after the other, and a construct has at most one report of
a kind. -/

namespace TreeQuery

/-- Reports of one kind do not mark the same. -/
def Diagnostic.Report.Apart (report other : Report) : Prop := report.kind = other.kind → report.span ≠ other.span

namespace Syntax

namespace Tree

mutual

/-- Of two places in a tree the second is inside the first or stands after it. -/
theorem sites_ordered (start : Nat) (above : List Placed) : (tree : Tree) →
    (tree.sites start above).Pairwise fun site other => site.place ∈ other.above ∨ site.place.stop ≤ other.place.start
  | leaf _ => List.pairwise_singleton _ _
  | node kind children => by
    refine List.pairwise_cons.mpr ⟨fun other below => .inl ?_, sitesOf_ordered start _ children⟩
    exact (above_of_sitesOf start _ children below).subset List.mem_cons_self

private theorem sitesOf_ordered (start : Nat) (above : List Placed) : (trees : List Tree) →
    (sitesOf start above trees).Pairwise fun site other => site.place ∈ other.above ∨ site.place.stop ≤ other.place.start
  | [] => .nil
  | tree :: rest => by
    refine List.pairwise_append.mpr ⟨sites_ordered start above tree, sitesOf_ordered _ above rest, ?_⟩
    intro site first other later
    have before := sites_within start above tree first
    have after := sitesOf_within _ above rest later
    exact .inr (before.2.trans after.1)

end

end Tree

/-- What stands in predicates, at any depth. -/
def Kind.inPredicate : Kind → Bool
  | .node .parameters | .node .capture | .node .string | .node .error | .token _ => true
  | _ => false

private theorem inPredicate_parts {kind : NodeKind} (around : kind = .predicate ∨ (Kind.node kind).inPredicate = true) :
    ∀ part ∈ kind.parts, part.inPredicate = true := by
  rcases around with rfl | within
  · decide
  · cases kind with
    | parameters | capture | string | error => decide
    | program | namedNode | anonymousNode | fieldDefinition | grouping | list | negatedField | quantifier | predicate =>
      cases within

theorem parse_inPredicate {limit : Nat} {source : String} {place holder : Placed} {above : List Placed}
    (lineage : Lineage ⟨0, (parse limit source).tree⟩ (place :: above)) (inside : holder ∈ above)
    (made : holder.kind = .node .predicate) : place.kind.inPredicate = true := by
  induction above generalizing place with
  | nil => cases inside
  | cons around above ih =>
    obtain ⟨kind, shape⟩ := lineage.above_nodes around List.mem_cons_self
    have within : kind = .predicate ∨ (Kind.node kind).inPredicate = true := by
      rcases List.mem_cons.mp inside with rfl | further
      · exact .inl (Kind.node.inj (shape.symm.trans made))
      · exact .inr (shape ▸ ih lineage.tail further)
    cases blank : place.kind.isTrivia with
    | true =>
      cases word : place.kind with
      | token => rfl
      | node => rw [word] at blank; cases blank
    | false =>
      have listed := mem_parts (parse_fits lineage.tail.mem_sites shape) (Placed.mem_line lineage.inside) blank
      exact inPredicate_parts within _ listed

end Syntax

namespace Lint
open Syntax Diagnostic

variable {settings : Settings} {limit : Nat} {text : String} {start : Nat} {place item field node : Placed} {above : List Placed}
  {check : Check} {report : Report} {reports : List Report} {finding other : Finding} {resolved : Resolved} {span : Text.Span}
  {finder : Regex.Finder}

private theorem apart_of_short (short : reports.length ≤ 1) : reports.Pairwise Report.Apart := by
  match reports, short with
  | [], _ => exact .nil
  | [report], _ => exact List.pairwise_singleton _ _

section Items

private theorem Exposes.within {holder : Placed} (exposes : Exposes holder item) :
    holder.start ≤ item.start ∧ item.stop ≤ holder.stop := by
  induction exposes with
  | itself => exact ⟨Nat.le_refl _, Nat.le_refl _⟩
  | inside _ member _ ih =>
    have inside := Placed.child_within member
    omega

mutual

/-- Items stand one after the other. -/
private theorem spread_ordered (start : Nat) : (tree : Tree) →
    (spread start tree).Pairwise fun item other => item.stop ≤ other.start
  | .leaf _ => .nil
  | .node kind children => by
    rw [spread]
    split
    · exact spreadAll_ordered start children
    · split
      · exact List.pairwise_singleton _ _
      · exact .nil

theorem spreadAll_ordered (start : Nat) : (trees : List Tree) →
    (spreadAll start trees).Pairwise fun item other => item.stop ≤ other.start
  | [] => .nil
  | tree :: rest => by
    refine List.pairwise_append.mpr ⟨spread_ordered start tree, spreadAll_ordered _ rest, ?_⟩
    intro item first other later
    have before := (exposes_of_spread start item tree first).within
    obtain ⟨child, among, exposes⟩ := exposes_of_spreadAll _ other rest later
    have after := Tree.sitesOf_within _ [] rest (Tree.line_mem_sitesOf _ [] rest among)
    exact before.2.trans (after.1.trans exposes.within.1)

end

private theorem flatValues_ordered (field : Placed) :
    (flatValues field).Pairwise fun value other => value.stop ≤ other.start := by
  unfold flatValues
  cases field.value? with
  | none => exact .nil
  | some value => exact spread_ordered value.start value.tree

/-- What is reported of items one by one is reported apart. -/
private theorem apart_of_items {items : List Placed} {judge : Placed → List Report}
    (ordered : items.Pairwise fun item other => item.stop ≤ other.start)
    (each : ∀ item ∈ items, (judge item).Pairwise Report.Apart)
    (within : ∀ item ∈ items, ∀ report ∈ judge item, item.start ≤ report.span.start ∧ report.span.start < item.stop) :
    (items.flatMap judge).Pairwise Report.Apart := by
  refine List.pairwise_flatMap.mpr ⟨each, ordered.imp_of_mem ?_⟩
  intro item other first second order report here twin there _ same
  have before := within item first report here
  have after := within other second twin there
  rw [same] at before
  omega

end Items

section Checks

private theorem checkField_apart (made : field.kind = .node .fieldDefinition)
    (lineage : Lineage ⟨0, (parse limit text).tree⟩ (field :: above)) :
    (checkField settings resolved span field).Pairwise Report.Apart := by
  rcases checkField_cases settings resolved span field with lone | ⟨allowed, values⟩
  · exact apart_of_short lone.short
  · rw [values]
    refine apart_of_items (flatValues_ordered field) (fun value _ => apart_of_short (checkFieldValue_lone value).short) ?_
    intro value exposed report member
    obtain ⟨_, judged⟩ := checkFieldValue_judged made lineage exposed member
    exact judged.within

private theorem checkItem_apart (lineage : Lineage ⟨0, (parse limit text).tree⟩ (item :: above)) :
    (checkItem settings resolved span item).Pairwise Report.Apart := by
  unfold checkItem
  split
  next => exact apart_of_short (checkChildKind_lone item).short
  next => exact apart_of_short (checkChildLiteral_lone item).short
  next made => exact checkField_apart made lineage
  next made => exact apart_of_short (checkNegatedField_lone made).short
  next => exact .nil

private theorem checkNode_apart (made : node.kind = .node .namedNode)
    (lineage : Lineage ⟨0, (parse limit text).tree⟩ (node :: above)) :
    (checkNode settings node).Pairwise Report.Apart := by
  have own : Lone node [.unknownNodeType, .invalidSubtype] [] (resolve settings node).2 := resolve_lone node
  rcases checkNode_cases settings node with same | ⟨resolved, whole⟩
  · exact same ▸ apart_of_short own.short
  · have owned {item : Placed} (exposed : item ∈ flatItems node) :
        ∃ between, Lineage ⟨0, (parse limit text).tree⟩ (item :: (between ++ node :: above)) :=
      ((mem_flatItems.mp exposed).lineage lineage).imp fun _ => And.left
    rw [whole]
    refine List.pairwise_append.mpr ⟨apart_of_short own.short, apart_of_items (spreadAll_ordered _ _) ?_ ?_, ?_⟩
    · intro item exposed
      obtain ⟨_, deeper⟩ := owned exposed
      exact checkItem_apart deeper
    · intro item exposed report member
      obtain ⟨_, deeper⟩ := owned exposed
      exact (checkItem_judged deeper (kindName_covers made lineage) member).within
    · -- the kind of the node is not part of an item
      intro report here twin there _ same
      obtain ⟨item, exposed, member⟩ := List.mem_flatMap.mp there
      obtain ⟨between, deeper⟩ := owned exposed
      obtain ⟨construct, begins, inside, _⟩ := (checkItem_judged deeper (kindName_covers made lineage) member).begins
      have begins' := BeginsIn.of_marks (own.marks report here) lineage (by simp [Placed.isNode, made])
      rw [begins.unique begins' (congrArg Text.Span.start same.symm)] at inside
      have shorter := inside.length_le
      simp only [List.length_cons, List.length_append] at shorter
      omega

private theorem reports_apart (lineage : Lineage ⟨0, (parse limit text).tree⟩ (place :: above))
    (concerned : check.Concerns place above) :
    (check.reports settings finder place).Pairwise Report.Apart := by
  cases check with
  | node => exact checkNode_apart concerned lineage
  | field =>
    change (checkField settings .anyKind place.span place).Pairwise Report.Apart
    exact checkField_apart concerned.1 lineage
  | negatedField =>
    change (checkNegatedField settings .anyKind place).Pairwise Report.Apart
    exact apart_of_short (checkNegatedField_lone concerned.1).short
  | emptyContainer | hangingCapture | missingFieldValue | missingParameters => exact List.pairwise_singleton _ _
  | predicate => exact apart_of_short (checkPredicateName_lone _ concerned).short
  | regexPredicate => exact apart_of_short (checkRegex_short finder place)

end Checks

section Sources

/-- What reports give as their source. The checks of nodes and of fields give the same. -/
def Check.source : Check → String
  | .node | .field | .negatedField => Check.node.name
  | check => check.name

private theorem lone_source {construct : Placed} {kinds : List Diagnostic.Kind} {source : String} {aside : List Text.Span}
    (lone : Lone construct kinds aside reports)
    (known : ∀ kind ∈ kinds, kind.source = source) (member : report ∈ reports) : report.kind.source = source :=
  known _ (lone.kinds report member)

private theorem checkField_source (member : report ∈ checkField settings resolved span field) : report.kind.source = "node" := by
  rcases checkField_cases settings resolved span field with lone | ⟨allowed, values⟩
  · exact lone_source lone (by decide) member
  · rw [values] at member
    obtain ⟨value, _, member⟩ := List.mem_flatMap.mp member
    exact lone_source (checkFieldValue_lone value) (by decide) member

private theorem checkItem_source (member : report ∈ checkItem settings resolved span item) : report.kind.source = "node" := by
  unfold checkItem at member
  split at member
  next => exact lone_source (checkChildKind_lone item) (by decide) member
  next => exact lone_source (checkChildLiteral_lone item) (by decide) member
  next => exact checkField_source member
  next made => exact lone_source (checkNegatedField_lone made) (by decide) member
  next => cases member

private theorem checkNode_source (member : report ∈ checkNode settings node) : report.kind.source = "node" := by
  have own {report : Report} (member : report ∈ (resolve settings node).2) : report.kind.source = "node" :=
    lone_source (resolve_lone node) (by decide) member
  rcases checkNode_cases settings node with same | ⟨resolved, whole⟩
  · exact own (same ▸ member)
  · rw [whole] at member
    rcases List.mem_append.mp member with here | items
    · exact own here
    · obtain ⟨item, _, member⟩ := List.mem_flatMap.mp items
      exact checkItem_source member

private theorem checkRegex_kind (member : report ∈ checkRegex finder place) : report.kind = .invalidRegex := by
  obtain ⟨_, _, _, _, _, _, rfl⟩ := mem_checkRegex .root member
  rfl

/-- Every report names the check that it comes from. -/
theorem reports_source (concerned : check.Concerns place above) (member : report ∈ check.reports settings finder place) :
    report.kind.source = check.source := by
  cases check with
  | node => exact checkNode_source member
  | field =>
    have member : report ∈ checkField settings .anyKind place.span place := member
    exact checkField_source member
  | negatedField =>
    have member : report ∈ checkNegatedField settings .anyKind place := member
    exact lone_source (checkNegatedField_lone concerned.1) (by decide) member
  | emptyContainer =>
    obtain rfl := List.mem_singleton.mp member
    cases place.isNode .list <;> rfl
  | hangingCapture =>
    obtain rfl := List.mem_singleton.mp member
    rfl
  | missingFieldValue =>
    obtain rfl := List.mem_singleton.mp member
    cases place.identifier? <;> rfl
  | missingParameters =>
    obtain rfl := List.mem_singleton.mp member
    cases place.predicateName? <;> rfl
  | predicate => exact lone_source (checkPredicateName_lone settings.suggestionDistance concerned) (by decide) member
  | regexPredicate => rw [checkRegex_kind member]; rfl

end Sources

section Runs

private theorem checksOf_nodup (site : Site) : (checksOf site).Nodup := by
  simp only [checksOf]
  split
  next => decide
  next => split <;> decide
  next => split <;> decide
  next => split <;> decide
  next => split <;> split <;> decide
  next => split <;> decide
  next => split <;> split <;> decide
  next => exact .nil

/-- The check against the grammar that is for nodes of some kind. -/
def grammarCheck : NodeKind → Check
  | .namedNode => .node
  | .fieldDefinition => .field
  | _ => .negatedField

private theorem grammarCheck_concerns (concerned : check.Concerns place above) (needs : check.needsGrammar = true) :
    ∃ kind, place.kind = .node kind ∧ check = grammarCheck kind := by
  cases check with
  | node => exact ⟨_, concerned, rfl⟩
  | field => exact ⟨_, concerned.1, rfl⟩
  | negatedField => exact ⟨_, concerned.1, rfl⟩
  | emptyContainer | hangingCapture | missingFieldValue | missingParameters | predicate | regexPredicate => cases needs

/-- Checks for one construct give different sources. -/
private theorem check_of_source {another : Check} {others : List Placed} (first : check.Concerns place above)
    (second : another.Concerns place others) (same : check.source = another.source) : check = another := by
  have told : check = another ∨ (check.needsGrammar = true ∧ another.needsGrammar = true) := by
    revert same
    cases check <;> cases another <;> decide
  rcases told with equal | ⟨needs, needs'⟩
  · exact equal
  · obtain ⟨kind, made, rfl⟩ := grammarCheck_concerns first needs
    obtain ⟨later, made', rfl⟩ := grammarCheck_concerns second needs'
    rw [Kind.node.inj (made.symm.trans made')]

/-- Reports of one kind at one place come from one check, and but for faults of regular expressions it was made of one
construct. -/
private theorem same_finding {twin : Report} (first : finding ∈ findings (parse limit text).tree)
    (second : other ∈ findings (parse limit text).tree)
    (here : report ∈ finding.check.reports settings finder finding.place)
    (there : twin ∈ other.check.reports settings finder other.place)
    (kind : report.kind = twin.kind) (start : report.span.start = twin.span.start) :
    finding.check = other.check ∧ (finding.check ≠ .regexPredicate → finding.place = other.place) := by
  obtain ⟨above, lineage, concerned⟩ := mem_findings first
  obtain ⟨others, lineage', concerned'⟩ := mem_findings second
  have source : finding.check.source = other.check.source := by
    rw [← reports_source concerned here, ← reports_source concerned' there, kind]
  have regex : finding.check = .regexPredicate ↔ other.check = .regexPredicate := by
    have only {check : Check} : check = .regexPredicate ↔ check.source = Check.regexPredicate.source := by
      cases check <;> decide
    rw [only, only, source]
  have places (plain : finding.check ≠ .regexPredicate) : finding.place = other.place := by
    have judged := reports_judged lineage concerned plain here
    have judged' := reports_judged lineage' concerned' (plain ∘ regex.mpr) there
    exact Option.some.inj (judged.unique judged' kind start)
  refine ⟨?_, places⟩
  by_cases plain : finding.check = .regexPredicate
  · rw [plain, regex.mp plain]
  · have second : other.check.Concerns finding.place others := by
      rw [places plain]
      exact concerned'
    exact check_of_source concerned second source

/-- What one check looks at is one thing inside the other, or one after the other. -/
private theorem findings_ordered (limit : Nat) (text : String) : (findings (parse limit text).tree).Pairwise fun finding other =>
    finding.check = other.check → (∃ above, Lineage ⟨0, (parse limit text).tree⟩ (other.place :: above) ∧ finding.place ∈ above) ∨
      finding.place.stop ≤ other.place.start := by
  refine List.pairwise_flatMap.mpr ⟨fun site _ => ?_, ?_⟩
  · refine List.pairwise_map.mpr ((checksOf_nodup site).imp fun differs same => absurd same differs)
  · refine ((Tree.sites_ordered 0 [] _).sublist List.filter_sublist).imp_of_mem ?_
    intro site other _ among order finding first later second _
    obtain ⟨_, _, rfl⟩ := List.mem_map.mp first
    obtain ⟨_, _, rfl⟩ := List.mem_map.mp second
    exact order.imp_left fun inside => ⟨other.above, (Tree.mem_sites_iff _).mp (List.mem_filter.mp among).1, inside⟩

/-- One check reports apart of two things that it looks at. -/
private theorem findings_apart {twin : Report} (first : finding ∈ findings (parse limit text).tree)
    (second : other ∈ findings (parse limit text).tree)
    (order : (∃ above, Lineage ⟨0, (parse limit text).tree⟩ (other.place :: above) ∧ finding.place ∈ above) ∨
      finding.place.stop ≤ other.place.start)
    (here : report ∈ finding.check.reports settings finder finding.place)
    (there : twin ∈ other.check.reports settings finder other.place) :
    report.Apart twin := by
  intro kind span
  obtain ⟨check, places⟩ := same_finding first second here there kind (congrArg Text.Span.start span)
  obtain ⟨_, lineage, concerned⟩ := mem_findings first
  obtain ⟨_, lineage', concerned'⟩ := mem_findings second
  by_cases regex : finding.check = .regexPredicate
  · rw [regex] at concerned here
    rw [← check, regex] at concerned' there
    rcases order with ⟨above, within, inside⟩ | after
    · have flat := parse_inPredicate within inside concerned
      rw [show other.place.kind = .node .predicate from concerned'] at flat
      cases flat
    · have before := checkRegex_within concerned lineage here
      have later := checkRegex_within concerned' lineage' there
      rw [span] at before
      omega
  · have same := places regex
    have within := (reports_judged lineage concerned regex here).within
    rcases order with ⟨above, lineage, inside⟩ | after
    · exact lineage.not_mem_above (same ▸ inside)
    · rw [← same] at after
      omega

/-- The checks do not report the same twice. -/
private theorem run_apart (settings : Settings) (finder : Regex.Finder) (limit : Nat) (text : String) :
    (run settings (parse limit text).tree finder).Pairwise Report.Apart := by
  refine List.pairwise_flatMap.mpr ⟨fun check _ => ?_, ?_⟩
  · unfold runCheck
    split
    · exact .nil
    · refine List.pairwise_flatMap.mpr ⟨fun finding among => ?_, ?_⟩
      · obtain ⟨above, lineage, concerned⟩ := mem_findings among
        split
        · next same => exact reports_apart lineage (same ▸ concerned)
        · exact .nil
      · refine (findings_ordered limit text).imp_of_mem fun {finding other} first second order report here twin there => ?_
        split at here
        next same =>
          split at there
          next same' =>
            rw [← same] at here
            rw [← same'] at there
            exact findings_apart first second (order (same.trans same'.symm)) here there
          next => cases there
        next => cases here
  · have distinct : Check.all.Nodup := by decide
    refine distinct.imp fun differs report here twin there kind span => differs ?_
    obtain ⟨finding, first, rfl, here⟩ := mem_runCheck here
    obtain ⟨other, second, rfl, there⟩ := mem_runCheck there
    exact (same_finding first second here there kind (congrArg Text.Span.start span)).1

theorem run_nodup (settings : Settings) (finder : Regex.Finder) (limit : Nat) (text : String) :
    (run settings (parse limit text).tree finder).Nodup :=
  (run_apart settings finder limit text).imp fun apart same => apart (congrArg Report.kind same) (congrArg Report.span same)

/-- Of reports that are not repeated one that is told by a test is all that passes it. -/
theorem filter_unique {test : Report → Bool} (distinct : reports.Nodup) (member : report ∈ reports)
    (only : ∀ other ∈ reports, test other = true ↔ other = report) : reports.filter test = [report] := by
  have same : reports.filter test = reports.filter (· = report) :=
    List.filter_congr fun other among => Bool.eq_iff_iff.mpr ((only other among).trans decide_eq_true_iff.symm)
  rw [same, List.filter_eq, List.count_eq_one_of_mem distinct member]
  rfl

private theorem run_source {settings : Settings} {limit : Nat} {text : String} {report : Report}
    (member : report ∈ run settings (parse limit text).tree finder) : ∃ check : Check, report.kind.source = check.source := by
  obtain ⟨check, _, member⟩ := List.mem_flatMap.mp member
  obtain ⟨finding, among, rfl, found⟩ := mem_runCheck member
  obtain ⟨above, _, concerned⟩ := mem_findings among
  exact ⟨finding.check, reports_source concerned found⟩

end Runs

end Lint

/-- The parser never reports what a check does. -/
private theorem Lint.Check.source_ne (check : Lint.Check) : check.source ≠ "syntax" := by
  cases check <;> exact of_decide_eq_true rfl

/-- What the parser never reports is in the diagnostics as in the run of the checks. -/
theorem Analyzer.diagnostics_checked (analyzer : Analyzer) (finder : Regex.Finder) (limit : Nat) (source : String)
    {test : Diagnostic.Report → Bool} (checked : ∀ report, test report = true → report.kind.source ≠ "syntax") :
    ((analyzer.diagnostics (.ofText limit source) finder).filter test).Perm
      ((Lint.run ⟨analyzer.snapshot.env, analyzer.config.suggestionDistance⟩ (Syntax.parse limit source).tree finder).filter
        test) := by
  let settings : Lint.Settings := ⟨analyzer.snapshot.env, analyzer.config.suggestionDistance⟩
  have silent : (Syntax.parse limit source).reports.filter test = [] := by
    obtain ⟨_, pinned⟩ := Syntax.parse_pinned limit source
    exact List.filter_eq_nil_iff.mpr fun report member told => checked report told (pinned.syntactic report member)
  have sorted := List.mergeSort_perm
    ((Syntax.parse limit source).reports ++ Lint.run settings (Syntax.parse limit source).tree finder) Diagnostic.Report.precedes
  have sorted := sorted.filter test
  rwa [List.filter_append, silent, List.nil_append] at sorted

/-- Whatever the grammar, the settings, the text and the finder, no two diagnostics have one kind and one span. -/
theorem Analyzer.diagnostics_distinct (analyzer : Analyzer) (finder : Regex.Finder) (limit : Nat) (text : String) :
    ((analyzer.diagnostics (.ofText limit text) finder).map fun report => (report.kind, report.span)).Nodup := by
  obtain ⟨_, pinned⟩ := Syntax.parse_pinned limit text
  have apart := Lint.run_apart ⟨analyzer.snapshot.env, analyzer.config.suggestionDistance⟩ finder limit text
  refine ((List.mergeSort_perm _ Diagnostic.Report.precedes).map _).nodup_iff.mpr ?_
  refine List.pairwise_map.mpr (List.pairwise_append.mpr ⟨?_, ?_, ?_⟩)
  · refine pinned.apart.imp fun spots same => spots ?_
    obtain ⟨kind, span⟩ := Prod.mk.inj same
    rw [Diagnostic.Report.spot, Diagnostic.Report.spot, kind, span]
  · refine apart.imp fun spans same => ?_
    obtain ⟨kind, span⟩ := Prod.mk.inj same
    exact spans kind span
  · intro report parsed other found same
    obtain ⟨check, source⟩ := Lint.run_source found
    have kinds : report.kind = other.kind := congrArg Prod.fst same
    exact check.source_ne (source.symm.trans (kinds ▸ pinned.syntactic report parsed))

end TreeQuery
