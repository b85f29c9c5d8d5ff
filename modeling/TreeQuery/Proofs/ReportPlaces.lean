import TreeQuery.Proofs.ReportOwners
import TreeQuery.Proofs.LineColumns

/-! Where the checks report. Whatever is checked, the report begins in it, and but for faults of regular expressions it
tells what was checked. -/

namespace TreeQuery.Lint
open Syntax Diagnostic

variable {settings : Settings} {limit : Nat} {source : String} {place child : Placed} {above : List Placed} {report : Report}
  {check : Check} {finder : Regex.Finder}

/-- The constructs that a check is for. -/
def Check.Concerns (place : Placed) (above : List Placed) : Check → Prop
  | .node => place.kind = .node .namedNode
  | .field => place.kind = .node .fieldDefinition ∧ isUnowned above = true
  | .negatedField => place.kind = .node .negatedField ∧ isUnowned above = true
  | .emptyContainer => place.kind = .node .grouping ∨ place.kind = .node .list
  | .hangingCapture => place.kind = .node .capture
  | .missingFieldValue => place.kind = .node .fieldDefinition
  | .missingParameters | .predicate | .regexPredicate => place.kind = .node .predicate

theorem concerns (asked : check ∈ checksOf ⟨place, above⟩) : check.Concerns place above := by
  have whenever {condition : Bool} {other : Check} (member : check ∈ if condition then [other] else []) :
      check = other ∧ condition = true := by
    split at member
    next holds => exact ⟨List.mem_singleton.mp member, holds⟩
    next => cases member
  simp only [checksOf] at asked
  split at asked
  next made =>
    obtain rfl := List.mem_singleton.mp asked
    exact made
  next made =>
    obtain ⟨rfl, _⟩ := whenever asked
    exact .inl made
  next made =>
    obtain ⟨rfl, _⟩ := whenever asked
    exact .inr made
  next made =>
    obtain ⟨rfl, _⟩ := whenever asked
    exact made
  next made =>
    rcases List.mem_append.mp asked with first | second
    · obtain ⟨rfl, unowned⟩ := whenever first
      exact ⟨made, unowned⟩
    · obtain ⟨rfl, _⟩ := whenever second
      exact made
  next made =>
    obtain ⟨rfl, unowned⟩ := whenever asked
    exact ⟨made, unowned⟩
  next made =>
    rcases List.mem_append.mp asked with first | third
    · rcases List.mem_append.mp first with first | second
      · obtain ⟨rfl, _⟩ := whenever first
        exact made
      · obtain ⟨rfl, _⟩ := whenever second
        exact made
    · obtain rfl := List.mem_singleton.mp third
      exact made
  next => cases asked

/-- What a check reports of a whole construct. -/
private theorem whole_lone {kind : NodeKind} {token : TokenKind} (made : place.kind = .node kind)
    (opener : kind.opener? = some token)
    (same : report.span = place.span) (alone : report.related = []) : Lone place [report.kind] [] [report] :=
  .one (.whole made opener same) List.mem_cons_self (by simp [alone])

theorem reports_judged (lineage : Lineage ⟨0, (parse limit source).tree⟩ (place :: above)) (concerned : check.Concerns place above)
    (plain : check ≠ .regexPredicate) (member : report ∈ check.reports settings finder place) :
    Judged (parse limit source).tree report (place :: above) (some place) := by
  have lone {reports : List Report} {kinds : List Diagnostic.Kind} {kind : NodeKind} (lone : Lone place kinds [] reports)
      (made : place.kind = .node kind) (apart : kind ≠ .string) (told : ∀ found ∈ kinds, judged? found (place :: above) = some place)
      (member : report ∈ reports) : Judged (parse limit source).tree report (place :: above) (some place) :=
    .of_lone lone member lineage (by simp [Placed.isNode, made, apart]) told nofun
  cases check with
  | node => exact checkNode_judged concerned lineage member
  | field =>
    have member : report ∈ checkField settings .anyKind place.span place := member
    rw [← subject?_unowned concerned.2]
    exact checkField_judged concerned.1 lineage (lineage.covers_opened concerned.1 rfl) member
  | negatedField =>
    have member : report ∈ checkNegatedField settings .anyKind place := member
    rw [← subject?_unowned concerned.2]
    exact checkNegatedField_judged concerned.1 lineage member
  | emptyContainer =>
    have told (isList : Bool) : ∀ found ∈ [(Report.of (if isList then .emptyList else .emptyGrouping) place.span).kind],
        judged? found (place :: above) = some place := by
      cases isList <;> simp [judged?]
    rcases concerned with made | made
    · exact lone (whole_lone made rfl rfl rfl) made (by decide) (told _) member
    · exact lone (whole_lone made rfl rfl rfl) made (by decide) (told _) member
  | hangingCapture => exact lone (whole_lone concerned rfl rfl rfl) concerned (by decide) (by simp [judged?]) member
  | missingFieldValue =>
    refine lone (whole_lone concerned rfl ?_ ?_) concerned (by decide) ?_ member
    · cases place.identifier? <;> rfl
    · cases place.identifier? <;> rfl
    · cases place.identifier? <;> simp [judged?]
  | missingParameters =>
    refine lone (whole_lone concerned rfl ?_ ?_) concerned (by decide) ?_ member
    · cases place.predicateName? <;> rfl
    · cases place.predicateName? <;> rfl
    · cases place.predicateName? <;> simp [judged?]
  | predicate => exact lone (checkPredicateName_lone _ concerned) concerned (by decide) (by simp [judged?]) member
  | regexPredicate => exact absurd rfl plain

section Regex

/-- A span in a string's value is marked at what stands between the quotes, or else the whole string is. -/
theorem spanInString_cases (string : Placed) (value : String) (span : Text.Span) :
    spanInString string value span = string.span ∨ ∃ content ∈ string.content?, content.text = value ∧
      content.start + span.stop ≤ content.stop ∧
        spanInString string value span = ⟨content.start + span.start, content.start + span.stop⟩ := by
  unfold spanInString
  cases string.content? with
  | none => exact .inl rfl
  | some content =>
    dsimp only
    split
    · exact .inl rfl
    next fits =>
      obtain ⟨same, within⟩ : content.text = value ∧ content.start + span.stop ≤ content.stop := by simpa using fits
      exact .inr ⟨content, rfl, same, within, rfl⟩

/-- Whatever the span is, nothing is marked before the string or behind it. -/
private theorem spanInString_within (string : Placed) (value : String) (span : Text.Span) :
    string.start ≤ (spanInString string value span).start ∧ string.start ≤ (spanInString string value span).stop ∧
      (spanInString string value span).stop ≤ string.stop := by
  rcases spanInString_cases string value span with whole | ⟨content, found, _, within, inside⟩
  · rw [whole]
    exact ⟨Nat.le_refl _, Nat.le_add_right _ _, Nat.le_refl _⟩
  · have bounds := Placed.child_within (Completion.firstToken?_child found).1
    rw [inside]
    dsimp only
    omega

private theorem spanInString_ordered {span : Text.Span} (string : Placed) (value : String) (ordered : span.start ≤ span.stop) :
    (spanInString string value span).start ≤ (spanInString string value span).stop := by
  rcases spanInString_cases string value span with whole | ⟨content, _, _, _, inside⟩
  · rw [whole]
    exact Nat.le_add_right _ _
  · rw [inside]
    exact Nat.add_le_add_left ordered _

/-- The pattern is a string among the arguments, and the report is of its fault. -/
theorem mem_checkRegex {root : Placed} (lineage : Lineage root (place :: above)) (member : report ∈ checkRegex finder place) :
    ∃ string parameters fault, Lineage root (string :: parameters :: place :: above) ∧ string.kind = .node .string ∧
      finder string.stringValue = some fault ∧
      report = (Report.of .invalidRegex (spanInString string string.stringValue fault.span)).withDetail fault.problem.message := by
  unfold checkRegex at member
  cases found : place.parameters?.bind (·.strings.head?) with
  | none =>
    rw [found] at member
    cases member
  | some string =>
    obtain ⟨parameters, first, head⟩ := Option.bind_eq_some_iff.mp found
    obtain ⟨inside, shape⟩ := List.mem_filter.mp (List.mem_of_head? head)
    have list : Lineage root (parameters :: place :: above) := .child lineage (firstNode?_child first).1
    rw [found] at member
    dsimp only at member
    cases outcome : finder string.stringValue with
    | none =>
      rw [outcome] at member
      cases member
    | some fault =>
      rw [outcome] at member
      exact ⟨string, parameters, fault, .child list inside, of_decide_eq_true shape, outcome, List.mem_singleton.mp member⟩

/-- It begins and ends in the predicate, whatever finder the fault is from. -/
theorem checkRegex_within (made : place.kind = .node .predicate)
    (lineage : Lineage ⟨0, (parse limit source).tree⟩ (place :: above)) (member : report ∈ checkRegex finder place) :
    place.start < report.span.start ∧ place.start < report.span.stop ∧ report.span.stop ≤ place.stop := by
  obtain ⟨string, parameters, fault, within, shape, outcome, rfl⟩ := mem_checkRegex lineage member
  obtain ⟨quote, opens, begins, word, quoted⟩ := parse_first_token within shape rfl
  obtain ⟨opener, first, begins', word', opened⟩ := parse_first_token lineage made rfl
  have bounds := within.within place (by simp)
  have apart : place.start ≠ string.start := by
    intro same
    have site : ⟨quote, string :: parameters :: place :: above⟩ ∈ (parse limit source).tree.tokenSites :=
      List.mem_filter.mpr ⟨(Lineage.child within opens).mem_sites, by simp [Site.isToken, quoted]⟩
    have site' : ⟨opener, place :: above⟩ ∈ (parse limit source).tree.tokenSites :=
      List.mem_filter.mpr ⟨(Lineage.child lineage first).mem_sites, by simp [Site.isToken, opened]⟩
    have twins := Completion.parse_token_unique site' site (by simp [begins, begins', same])
    have longer := congrArg (fun site : Site => site.above.length) twins
    simp at longer
  have inner := spanInString_within string string.stringValue fault.span
  simp only [span_withDetail, span_of]
  omega

private theorem checkRegex_ordered {root : Placed} (bounded : finder.Bounded) (lineage : Lineage root (place :: above))
    (member : report ∈ checkRegex finder place) : report.span.start ≤ report.span.stop := by
  obtain ⟨string, _, fault, _, _, outcome, rfl⟩ := mem_checkRegex lineage member
  exact spanInString_ordered string _ (bounded outcome).ordered

end Regex

/-- A report begins where the construct is that is checked. -/
private theorem reports_within (bounded : finder.Bounded) (lineage : Lineage ⟨0, (parse limit source).tree⟩ (place :: above))
    (concerned : check.Concerns place above) (member : report ∈ check.reports settings finder place) :
    place.start ≤ report.span.start ∧ report.span.start ≤ place.stop := by
  by_cases plain : check = .regexPredicate
  · subst plain
    have within := checkRegex_within concerned lineage member
    have ordered := checkRegex_ordered bounded lineage member
    omega
  · have within := (reports_judged lineage concerned plain member).within
    omega

theorem mem_findings {finding : Finding} (member : finding ∈ findings (parse limit source).tree) :
    ∃ above, Lineage ⟨0, (parse limit source).tree⟩ (finding.place :: above) ∧ finding.check.Concerns finding.place above := by
  obtain ⟨site, among, asked⟩ := List.mem_flatMap.mp member
  obtain ⟨check, listed, rfl⟩ := List.mem_map.mp asked
  exact ⟨site.above, (Tree.mem_sites_iff _).mp (List.mem_filter.mp among).1, concerns listed⟩

theorem mem_runCheck {found : List Finding} (member : report ∈ runCheck settings found check finder) :
    ∃ finding ∈ found, finding.check = check ∧ report ∈ check.reports settings finder finding.place := by
  unfold runCheck at member
  split at member
  · cases member
  · obtain ⟨finding, among, member⟩ := List.mem_flatMap.mp member
    split at member
    next same => exact ⟨finding, among, same, member⟩
    next => cases member

/-- No check reports past the end of the text. -/
theorem runCheck_start (bounded : finder.Bounded)
    (member : report ∈ runCheck settings (findings (parse limit source).tree) check finder) :
    report.span.start ≤ source.utf8ByteSize := by
  obtain ⟨finding, among, rfl, member⟩ := mem_runCheck member
  obtain ⟨above, lineage, concerned⟩ := mem_findings among
  have within := reports_within bounded lineage concerned member
  have bounds := Tree.sites_within 0 [] _ lineage.mem_sites
  rw [parse_length, Nat.zero_add] at bounds
  exact Nat.le_trans within.2 bounds.2

end TreeQuery.Lint
