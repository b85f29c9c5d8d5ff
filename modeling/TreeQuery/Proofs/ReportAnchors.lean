import TreeQuery.Lint.Run
import TreeQuery.Proofs.ItemOwners

/-! What the reports of the checks stand at. Each marks a word, a string or the whole of one construct, and that
construct tells, by the kind of the report, for which construct the check was made. -/

namespace TreeQuery

/-- The token that a construct begins with, if it is always the same. -/
def Syntax.NodeKind.opener? : NodeKind → Option TokenKind
  | .namedNode | .grouping | .predicate => some .parenOpen
  | .list => some .bracketOpen
  | .fieldDefinition => some .identifier
  | .negatedField => some .bang
  | .capture => some .atSign
  | .string => some .doubleQuote
  | _ => none

namespace Lint
open Syntax Diagnostic Grammar
open Completion (firstToken?_child subtype?_child)

section Reports

variable (report : Report)

@[simp] theorem kind_of (kind : Diagnostic.Kind) (span : Text.Span) : (Report.of kind span).kind = kind := rfl

@[simp] theorem span_of (kind : Diagnostic.Kind) (span : Text.Span) : (Report.of kind span).span = span := rfl

@[simp] theorem kind_withDetail (detail : String) : (report.withDetail detail).kind = report.kind := rfl

@[simp] theorem span_withDetail (detail : String) : (report.withDetail detail).span = report.span := rfl

@[simp] theorem kind_withHint (hint : String) : (report.withHint hint).kind = report.kind := rfl

@[simp] theorem span_withHint (hint : String) : (report.withHint hint).span = report.span := rfl

@[simp] theorem kind_withRelated (message : String) (span : Text.Span) :
    (report.withRelated message span).kind = report.kind := rfl

@[simp] theorem span_withRelated (message : String) (span : Text.Span) :
    (report.withRelated message span).span = report.span := rfl

@[simp] theorem span_suggesting (mark : String) (meant : Option String) :
    (report.suggesting mark meant).span = report.span := by
  cases meant <;> rfl

attribute [simp] kind_suggesting

@[simp] theorem related_of (kind : Diagnostic.Kind) (span : Text.Span) : (Report.of kind span).related = [] := rfl

@[simp] theorem related_withDetail (detail : String) : (report.withDetail detail).related = report.related := rfl

@[simp] theorem related_withHint (hint : String) : (report.withHint hint).related = report.related := rfl

@[simp] theorem related_withRelated (message : String) (span : Text.Span) :
    (report.withRelated message span).related = report.related ++ [⟨span, message⟩] := rfl

@[simp] theorem related_suggesting (mark : String) (meant : Option String) :
    (report.suggesting mark meant).related = report.related := by
  cases meant <;> rfl

end Reports

/-- What of a construct a report stands at. -/
inductive Marks (construct : Placed) (report : Report) : Prop
  | word {token : Placed} {kind : TokenKind} (inside : token ∈ construct.children) (word : token.kind = .token kind)
    (same : report.span = token.span)
  /-- The name of a predicate with its mark. -/
  | name {name mark : Placed} (made : construct.kind = .node .predicate) (named : construct.identifier? = some name)
    (marked : construct.predicateMark? = some mark) (same : report.span = ⟨name.start, mark.stop⟩)
  | string {string : Placed} (inside : string ∈ construct.children) (shape : string.kind = .node .string)
    (same : report.span = string.span)
  | whole {kind : NodeKind} {token : TokenKind} (made : construct.kind = .node kind) (opener : kind.opener? = some token)
    (same : report.span = construct.span)

/-- One report at the most, on a construct and of some kinds, with further places among some. -/
structure Lone (construct : Placed) (kinds : List Diagnostic.Kind) (aside : List Text.Span) (reports : List Report) : Prop where
  short : reports.length ≤ 1
  marks : ∀ report ∈ reports, Marks construct report
  kinds : ∀ report ∈ reports, report.kind ∈ kinds
  related : ∀ report ∈ reports, ∀ place ∈ report.related, place.span ∈ aside

variable {settings : Settings} {node child field value negated predicate name string construct place : Placed}
  {parent : NamedKind} {resolved : Resolved} {allowed : Allowed} {report : Report} {span : Text.Span}
  {kinds : List Diagnostic.Kind} {aside : List Text.Span} {reports others : List Report}

namespace Lone

private theorem none : Lone construct kinds aside [] := ⟨Nat.zero_le _, nofun, nofun, nofun⟩

theorem one (marks : Marks construct report) (known : report.kind ∈ kinds) (related : ∀ place ∈ report.related, place.span ∈ aside) :
    Lone construct kinds aside [report] :=
  ⟨Nat.le_refl _, List.forall_mem_singleton.mpr marks, List.forall_mem_singleton.mpr known, List.forall_mem_singleton.mpr related⟩

private theorem ite {condition : Prop} [Decidable condition] (holds : Lone construct kinds aside reports)
    (fails : Lone construct kinds aside others) : Lone construct kinds aside (if condition then reports else others) := by
  split
  · exact holds
  · exact fails

end Lone

private theorem checkableName?_child (checked : checkableName? node = some name) :
    name ∈ node.children ∧ ∃ kind, name.kind = .token kind := by
  unfold checkableName? at checked
  split at checked
  · cases checked
  · obtain ⟨found, named, checked⟩ := Option.bind_eq_some_iff.mp checked
    split at checked
    · cases checked
    · cases below : node.subtype? with
      | none =>
        obtain rfl : found = name := by simpa [below] using checked
        exact (firstToken?_child named).imp_right fun ⟨kind, word, _⟩ => ⟨kind, word⟩
      | some subtype =>
        obtain rfl : subtype = name := by simpa [below] using checked
        exact (subtype?_child below).imp_right fun word => ⟨_, word⟩

theorem firstNode?_child {kind : NodeKind} (found : node.firstNode? kind = some child) :
    child ∈ node.children ∧ child.kind = .node kind := by
  have fits := List.find?_some found
  exact ⟨List.mem_of_find?_eq_some found, of_decide_eq_true fits⟩

private theorem marks_token {wanted : TokenKind → Bool} (found : node.firstToken? wanted = some name)
    (same : report.span = name.span) : Marks node report :=
  have ⟨inside, _, word, _⟩ := firstToken?_child found
  .word inside word same

private theorem marks_checkable (checked : checkableName? node = some name) (same : report.span = name.span) :
    Marks node report :=
  have ⟨inside, _, word⟩ := checkableName?_child checked
  .word inside word same

private theorem marks_string (found : node.string? = some string) (same : report.span = string.span) : Marks node report :=
  have ⟨inside, shape⟩ := firstNode?_child found
  .string inside shape same

theorem unknownKind_kind : (unknownKind settings name).kind = .unknownNodeType := by simp [unknownKind]

theorem unknownKind_span : (unknownKind settings name).span = name.span := by simp [unknownKind]

private theorem unknownKind_related : (unknownKind settings name).related = [] := by simp [unknownKind]

private theorem resolveSubtype_lone {subtype : Placed} (named : node.kindName? = some name)
    (below : node.subtype? = some subtype) :
    Lone node [.unknownNodeType, .invalidSubtype] [] (resolveSubtype settings name subtype).2 := by
  obtain ⟨inside, word⟩ := subtype?_child below
  simp only [resolveSubtype]
  split
  · rw [apply_ite Prod.snd]
    exact .ite (.one (marks_token named rfl) (by simp) (by simp))
      (.one (marks_token named unknownKind_span) (by simp [unknownKind_kind]) (by simp [unknownKind_related]))
  · rw [apply_ite Prod.snd]
    exact .ite .none (.one (.word inside word (by simp)) (by simp) (by simp))

theorem resolve_lone (node : Placed) : Lone node [.unknownNodeType, .invalidSubtype] [] (resolve settings node).2 := by
  unfold resolve
  cases node.isWildcard with
  | true => exact .none
  | false =>
    cases named : node.kindName? with
    | none => exact .none
    | some name =>
      have unknown : Lone node [.unknownNodeType, .invalidSubtype] [] [unknownKind settings name] :=
        .one (marks_token named unknownKind_span) (by simp [unknownKind_kind]) (by simp [unknownKind_related])
      simp only [Bool.false_eq_true, if_false]
      rw [apply_ite Prod.snd]
      refine .ite .none ?_
      cases below : node.subtype? with
      | none =>
        dsimp only
        cases settings.env.kinds.get? name.text with
        | some kind => exact .none
        | none =>
          dsimp only
          rw [apply_ite Prod.snd]
          exact .ite .none unknown
      | some subtype =>
        exact resolveSubtype_lone named below

theorem checkChildKind_lone (child : Placed) :
    Lone child [.nodeHasNoChildren, .invalidChildType] [] (checkChildKind settings parent child) := by
  unfold checkChildKind
  cases checked : checkableName? child with
  | none => exact .none
  | some name =>
    exact .ite .none (.ite .none (.ite (.one (marks_checkable checked rfl) (by simp) (by simp))
      (.ite .none (.one (marks_checkable checked rfl) (by simp) (by simp)))))

theorem checkChildLiteral_lone (child : Placed) :
    Lone child [.noLiteralChildren, .invalidChildLiteral] [] (checkChildLiteral parent child) := by
  unfold checkChildLiteral
  cases found : child.string? with
  | none => exact .none
  | some string =>
    exact .ite (.one (marks_string found rfl) (by simp) (by simp))
      (.ite .none (.one (marks_string found rfl) (by simp) (by simp)))

theorem checkFieldValue_lone (value : Placed) : Lone value [.invalidFieldValue] [] (checkFieldValue settings allowed value) := by
  unfold checkFieldValue
  dsimp only
  split
  · cases checked : checkableName? value with
    | none => exact .none
    | some name => exact .ite .none (.one (marks_checkable checked rfl) (by simp) (by simp))
  · cases found : value.string? with
    | none => exact .none
    | some string => exact .ite .none (.one (marks_string found rfl) (by simp) (by simp))
  · exact .none

private theorem unknownField_span : (unknownField settings resolved span name).span = name.span := by
  unfold unknownField
  cases resolved with
  | kind kind =>
    dsimp only
    split <;> simp
  | anyKind => simp
  | unknown => simp

private theorem unknownField_related : ∀ place ∈ (unknownField settings resolved span name).related, place.span ∈ [span] := by
  unfold unknownField
  cases resolved with
  | kind kind =>
    dsimp only
    split <;> simp
  | anyKind => simp
  | unknown => simp

private theorem unknownField_unknown : (unknownField settings resolved span name).kind = .unknownField := by
  unfold unknownField
  cases resolved with
  | kind kind =>
    dsimp only
    split <;> simp
  | anyKind => simp
  | unknown => simp

/-- A field is reported itself, or its values are, one by one. -/
theorem checkField_cases (settings : Settings) (resolved : Resolved) (span : Text.Span) (field : Placed) :
    Lone field [.unknownField] [span] (checkField settings resolved span field) ∨
      ∃ allowed, checkField settings resolved span field = (flatValues field).flatMap (checkFieldValue settings allowed) := by
  unfold checkField
  cases found : field.identifier? with
  | none => exact .inl .none
  | some name =>
    dsimp only
    split
    · exact .inl (.one (marks_token found unknownField_span) (by simp [unknownField_unknown]) unknownField_related)
    · exact .inr ⟨_, rfl⟩

theorem checkNegatedField_lone (made : negated.kind = .node .negatedField) :
    Lone negated [.unknownField, .redundantNegation, .negatedRequiredField] [] (checkNegatedField settings resolved negated) := by
  unfold checkNegatedField
  cases found : negated.identifier? with
  | none => exact .none
  | some name =>
    refine .ite (.one (marks_token found (by simp)) (by simp) (by simp)) ?_
    cases resolved with
    | kind kind =>
      dsimp only
      cases kind.fields.get? name.text with
      | none => exact .one (.whole made rfl rfl) (by simp) (by simp)
      | some declared => exact .ite (.one (.whole made rfl rfl) (by simp) (by simp)) .none
    | anyKind => exact .none
    | unknown => exact .none

theorem checkPredicateName_lone (distance : Nat) (made : predicate.kind = .node .predicate) :
    Lone predicate [.unknownPredicate] [] (checkPredicateName distance predicate) := by
  unfold checkPredicateName
  split
  next named marked _ => exact .ite .none (.one (.name made named marked (by simp)) (by simp) (by simp))
  next => exact .none

theorem checkRegex_short (finder : Regex.Finder) (predicate : Placed) : (checkRegex finder predicate).length ≤ 1 := by
  unfold checkRegex
  split
  · exact Nat.zero_le _
  · dsimp only
    split
    · exact Nat.zero_le _
    · exact Nat.le_refl _

end Lint

end TreeQuery
