import Mathlib.Data.List.Forall2
import TreeQuery.Analyzer
import TreeQuery.Proofs.DeclarationOrder

/-! Checking against environments that answer alike. The checks ask an environment by name only, so that they
report the same. Only what they suggest goes by the order in which an environment lists its names. -/

namespace TreeQuery

namespace Diagnostic

/-- Equal in all but the hints. -/
structure Report.SameButHints (one other : Report) : Prop where
  kind : one.kind = other.kind
  span : one.span = other.span
  message : one.message = other.message
  related : one.related = other.related

namespace Report

def unhinted (report : Report) : Report := { report with hints := [] }

variable (report : Report)

@[simp] theorem unhinted_withHint (hint : String) : (report.withHint hint).unhinted = report.unhinted := rfl

@[simp] theorem unhinted_suggesting (mark : String) (meant : Option String) :
    (report.suggesting mark meant).unhinted = report.unhinted := by
  cases meant <;> rfl

variable {report}

private theorem sameButHints_iff {other : Report} : report.SameButHints other ↔ report.unhinted = other.unhinted := by
  constructor
  · rintro ⟨kind, span, message, related⟩
    simp [unhinted, kind, span, message, related]
  · intro same
    obtain ⟨kind, span, message, related, -⟩ := Report.mk.inj same
    exact ⟨kind, span, message, related⟩

/-- Hints play no part in the order of reports. -/
private theorem sort_unhinted (reports : List Report) : (sort reports).map unhinted = sort (reports.map unhinted) :=
  List.map_mergeSort fun _ _ _ _ => rfl

end Report

end Diagnostic

namespace Lint
open Syntax Grammar Diagnostic

variable {settings other : Settings} (alike : settings.env.Alike other.env)

@[simp] theorem unknownKind_unhinted (settings : Settings) (name : Placed) :
    (unknownKind settings name).unhinted = ((Report.of .unknownNodeType name.span).withDetail name.text).unhinted :=
  Report.unhinted_suggesting ..

include alike

private theorem kindFits_alike (name : String) {types more : FlatTypes} (same : ∀ name, name ∈ types.names ↔ name ∈ more.names) :
    kindFits settings name types = kindFits other name more := by
  have listed (name : String) : types.names.contains name = more.names.contains name := by
    rw [Bool.eq_iff_iff, List.contains_iff_mem, List.contains_iff_mem, same]
  have tests : types.names.contains = more.names.contains := funext listed
  simp only [kindFits, alike.kind, alike.supertype, listed, tests]

private theorem checkChildKind_alike (parent : NamedKind) (child : Placed) :
    checkChildKind settings parent child = checkChildKind other parent child := by
  have fits (name : String) : kindFits settings name parent.types = kindFits other name parent.types :=
    kindFits_alike alike name fun _ => Iff.rfl
  have supertypes (name : String) : settings.env.supertypes.contains name = other.env.supertypes.contains name := by
    rw [Registry.contains, Registry.contains, alike.supertype]
  simp only [checkChildKind, alike.contains, supertypes, alike.kind, fits]

private theorem checkFieldValue_alike (owner : String) {types more : FlatTypes}
    (same : ∀ target, types.Has target ↔ more.Has target)
    (value : Placed) : checkFieldValue settings ⟨types, owner⟩ value = checkFieldValue other ⟨more, owner⟩ value := by
  have fits (name : String) := kindFits_alike alike name fun name => same (.named name)
  have literals (value : String) : types.literals.contains value = more.literals.contains value := by
    rw [Bool.eq_iff_iff, List.contains_iff_mem, List.contains_iff_mem]
    exact same (.literal value)
  simp only [checkFieldValue, fits, literals]

omit alike in
private theorem unknownField_unhinted (settings other : Settings) (parent : Resolved) (span : Text.Span) (name : Placed) :
    (unknownField settings parent span name).unhinted = (unknownField other parent span name).unhinted := by
  cases parent <;> simp [unknownField, apply_ite Report.unhinted]

private theorem checkField_alike (parent : Resolved) (span : Text.Span) (field : Placed) :
    (checkField settings parent span field).map Report.unhinted = (checkField other parent span field).map Report.unhinted := by
  simp only [checkField]
  cases field.identifier? with
  | none => rfl
  | some name =>
    have unknown := unknownField_unhinted settings other parent span name
    cases parent with
    | kind kind =>
      cases found : kind.fields.get? name.text with
      | none => simp [found, unknown]
      | some slot => simp [found, List.map_flatMap, checkFieldValue_alike alike _ fun target => Iff.refl (slot.types.Has target)]
    | anyKind | unknown =>
      rcases alike.field_cases name.text with ⟨none, missing⟩ | ⟨slot, twin, found, again, same⟩
      · simp [none, missing, unknown]
      · simp [found, again, List.map_flatMap, checkFieldValue_alike alike _ same.types]

private theorem checkNegatedField_alike (parent : Resolved) (negated : Placed) :
    (checkNegatedField settings parent negated).map Report.unhinted =
      (checkNegatedField other parent negated).map Report.unhinted := by
  have known (name : String) : settings.env.fields.contains name = other.env.fields.contains name := by
    rcases alike.field_cases name with ⟨none, missing⟩ | ⟨slot, twin, found, again, _⟩
    · simp [Registry.contains, none, missing]
    · simp [Registry.contains, found, again]
  simp only [checkNegatedField, known]
  cases negated.identifier? with
  | none => rfl
  | some name => cases held : other.env.fields.contains name.text <;> simp [held]

private theorem checkItem_alike (parent : Resolved) (span : Text.Span) (item : Placed) :
    (checkItem settings parent span item).map Report.unhinted = (checkItem other parent span item).map Report.unhinted := by
  simp only [checkItem]
  split
  · rw [checkChildKind_alike alike]
  · rfl
  · exact checkField_alike alike _ span item
  · exact checkNegatedField_alike alike _ item
  · rfl

private theorem resolveSubtype_alike (name subtype : Placed) :
    (resolveSubtype settings name subtype).map id (List.map Report.unhinted) =
      (resolveSubtype other name subtype).map id (List.map Report.unhinted) := by
  simp only [resolveSubtype, alike.kind, alike.supertype, alike.contains]
  cases other.env.supertypes.get? name.text <;> simp [apply_ite (Prod.map id (List.map Report.unhinted))]

/-- A node is resolved to the same kind, with the same reports. -/
private theorem resolve_alike (node : Placed) :
    (resolve settings node).map id (List.map Report.unhinted) = (resolve other node).map id (List.map Report.unhinted) := by
  simp only [resolve]
  cases node.isWildcard with
  | true => rfl
  | false =>
    cases node.kindName? with
    | none => rfl
    | some name =>
      cases node.subtype? with
      | some subtype =>
        simp [apply_ite (Prod.map id (List.map Report.unhinted)), resolveSubtype_alike alike]
      | none =>
        have supertypes : settings.env.supertypes.contains name.text = other.env.supertypes.contains name.text := by
          rw [Registry.contains, Registry.contains, alike.supertype]
        simp only [alike.kind, supertypes]
        cases other.env.kinds.get? name.text <;> simp [apply_ite (Prod.map id (List.map Report.unhinted))]

private theorem checkNode_alike (node : Placed) :
    (checkNode settings node).map Report.unhinted = (checkNode other node).map Report.unhinted := by
  have same := resolve_alike alike node
  unfold checkNode
  generalize resolve settings node = one at same ⊢
  generalize resolve other node = two at same ⊢
  obtain ⟨parent, reports⟩ := one
  obtain ⟨twin, others⟩ := two
  obtain ⟨rfl, rest⟩ : parent = twin ∧ reports.map Report.unhinted = others.map Report.unhinted := Prod.mk.inj same
  cases parent with
  | unknown => exact rest
  | kind | anyKind => simp only [List.map_append, List.map_flatMap, rest, checkItem_alike alike]

omit alike in
private theorem checkPredicateName_unhinted (distance further : Nat) (predicate : Placed) :
    (checkPredicateName distance predicate).map Report.unhinted = (checkPredicateName further predicate).map Report.unhinted := by
  simp only [checkPredicateName]
  split
  · simp [apply_ite (List.map Report.unhinted)]
  · rfl

private theorem reports_alike (finder : Regex.Finder) (check : Check) (place : Placed) :
    (check.reports settings finder place).map Report.unhinted = (check.reports other finder place).map Report.unhinted := by
  cases check with
  | node => exact checkNode_alike alike place
  | field => exact checkField_alike alike .anyKind place.span place
  | negatedField => exact checkNegatedField_alike alike .anyKind place
  | predicate => exact checkPredicateName_unhinted _ _ place
  | emptyContainer | hangingCapture | missingFieldValue | missingParameters | regexPredicate => rfl

private theorem run_alike (root : Tree) (finder : Regex.Finder) :
    (run settings root finder).map Report.unhinted = (run other root finder).map Report.unhinted := by
  have each (check : Check) (finding : Finding) := reports_alike alike finder check finding.place
  simp only [run, List.map_flatMap, runCheck, alike.isEmpty, apply_ite (List.map Report.unhinted), each]

end Lint

/-- The order in which a description declares its kinds does not matter to what is reported, hints apart, whatever is
checked and however: the reports are as many, and one by one the same. -/
theorem Analyzer.diagnostics_reordered {kinds others : List Grammar.Declaration} (distinct : Grammar.Distinct kinds)
    (permuted : kinds.Perm others) (analyzer : Analyzer) (finder : Regex.Finder) (document : Document) :
    List.Forall₂ Diagnostic.Report.SameButHints
      ((analyzer.withEnvironment (.ofDeclarations kinds)).diagnostics document finder)
      ((analyzer.withEnvironment (.ofDeclarations others)).diagnostics document finder) := by
  let reports (kinds : List Grammar.Declaration) :=
    (analyzer.withEnvironment (.ofDeclarations kinds)).diagnostics document finder
  have alike := Grammar.Environment.ofDeclarations_perm distinct permuted
  have same : (reports kinds).map Diagnostic.Report.unhinted = (reports others).map Diagnostic.Report.unhinted := by
    let settings (kinds : List Grammar.Declaration) : Lint.Settings := ⟨.ofDeclarations kinds, analyzer.config.suggestionDistance⟩
    have checked : (Lint.run (settings kinds) document.tree finder).map Diagnostic.Report.unhinted =
        (Lint.run (settings others) document.tree finder).map Diagnostic.Report.unhinted :=
      Lint.run_alike alike document.tree finder
    simp only [reports, diagnostics, Diagnostic.Report.sort_unhinted, List.map_append]
    exact congrArg (fun found => Diagnostic.Report.sort (document.parsed.reports.map Diagnostic.Report.unhinted ++ found)) checked
  rw [← List.forall₂_eq_eq_eq, List.forall₂_map_left_iff, List.forall₂_map_right_iff] at same
  exact same.imp fun one other => Diagnostic.Report.sameButHints_iff.mpr

/-- Which of two names as near is suggested goes by the order. -/
theorem tied_names_reordered :
    let flags : Grammar.Flags := ⟨false, false⟩
    let kinds : List Grammar.Declaration := [.leaf "cat" flags, .leaf "car" flags,
      .supertype "pet" [.named "cat", .literal "paw"] flags, .branch "box" ⟨[("lid", ⟨false, true, [.named "pet"]⟩)]⟩ none flags]
    let reports (kinds : List Grammar.Declaration) : List Diagnostic.Report :=
      ((Analyzer.new .default).withEnvironment (.ofDeclarations kinds)).diagnostics (.ofText 512 "(caw)")
    List.Forall₂ Diagnostic.Report.SameButHints (reports kinds) (reports kinds.reverse) ∧
      (reports kinds).map Diagnostic.Report.hints = [["did you mean `cat`?"]] ∧
      (reports kinds.reverse).map Diagnostic.Report.hints = [["did you mean `car`?"]] := by
  intro flags kinds reports
  have distinct : Grammar.Distinct kinds := by decide +kernel
  exact ⟨Analyzer.diagnostics_reordered distinct kinds.reverse_perm.symm (.new .default) Regex.fault? _, by decide +kernel, by decide +kernel⟩

end TreeQuery
