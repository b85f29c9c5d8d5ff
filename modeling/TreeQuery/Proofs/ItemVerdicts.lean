import TreeQuery.Lint.Usage
import TreeQuery.Proofs.RegistryLookup

/-! When the checks of an item stay silent. A check compares the one name or literal of the item
with the types allowed; which report it makes then depends on why the item does not fit. -/

namespace TreeQuery.Lint
open Syntax Grammar Diagnostic

/-- None of these kinds is reported. -/
def Spares (kinds : List Diagnostic.Kind) (reports : List Report) : Prop :=
  ∀ report ∈ reports, report.kind ∉ kinds

variable {kinds : List Diagnostic.Kind} {settings : Settings} {parent : NamedKind} {item name string : Placed}
  {allowed : Allowed}

theorem spares_none : Spares kinds [] := nofun

private theorem reported {report : Report} (one : report.kind ∈ kinds) : ¬ Spares kinds [report] :=
  fun spares => spares report List.mem_cons_self one

theorem kind_suggesting (report : Report) (mark : String) (meant : Option String) :
    (report.suggesting mark meant).kind = report.kind := by
  cases meant <;> rfl

theorem kindFits_concrete {text : String} {kind : NamedKind} (found : settings.env.kinds.get? text = some kind)
    (types : FlatTypes) :
    kindFits settings text types = true ↔ text ∈ types.names ∨ kind.flags.extra = true := by
  simp [kindFits, found]

theorem kindFits_supertype {text : String} {supertype : Supertype} (none : settings.env.kinds.get? text = none)
    (found : settings.env.supertypes.get? text = some supertype) (types : FlatTypes) :
    kindFits settings text types = true ↔
      text ∈ types.names ∨ ∃ shared ∈ supertype.members.names, shared ∈ types.names := by
  simp [kindFits, none, found]

/-- A child kind that the grammar knows is reported exactly where it does not fit. -/
theorem checkChildKind_spares (closed : parent.acceptsSubnodes = false → parent.types.names = [])
    (checked : checkableName? item = some name)
    (known : settings.env.kinds.contains name.text = true ∨ settings.env.supertypes.contains name.text = true) :
    Spares [.nodeHasNoChildren, .invalidChildType] (checkChildKind settings parent item) ↔
      kindFits settings name.text parent.types = true := by
  have listed : ¬ (!settings.env.kinds.contains name.text && !settings.env.supertypes.contains name.text) = true := by
    rcases known with known | known <;> simp [known]
  unfold checkChildKind
  simp only [checked, if_neg listed]
  by_cases extra : (settings.env.kinds.get? name.text).any (·.flags.extra) = true
  · obtain ⟨kind, found, flagged⟩ := (Option.any_eq_true ..).mp extra
    rw [if_pos extra]
    exact iff_of_true spares_none ((kindFits_concrete found _).mpr (.inr flagged))
  · rw [if_neg extra]
    cases takes : parent.acceptsSubnodes with
    | false =>
      -- Nothing is allowed here, and what is not an extra fits nowhere.
      have nothing := closed takes
      refine iff_of_false (reported List.mem_cons_self) ?_
      cases found : settings.env.kinds.get? name.text with
      | some kind => simpa [kindFits_concrete found, nothing, found] using extra
      | none =>
        obtain ⟨supertype, group⟩ : ∃ supertype, settings.env.supertypes.get? name.text = some supertype := by
          simpa [Registry.contains, found, Option.isSome_iff_exists] using known
        simp [kindFits_supertype found group, nothing]
    | true =>
      simp only [Bool.not_true, Bool.false_eq_true, if_false]
      split
      next fits => exact iff_of_true spares_none fits
      next other => exact iff_of_false (reported (List.mem_cons_of_mem _ List.mem_cons_self)) other

theorem checkChildLiteral_spares (found : item.string? = some string) :
    Spares [.noLiteralChildren, .invalidChildLiteral] (checkChildLiteral parent item) ↔
      string.stringValue ∈ parent.types.literals := by
  unfold checkChildLiteral
  simp only [found]
  split
  next nothing =>
    refine iff_of_false (reported List.mem_cons_self) ?_
    simp [List.isEmpty_iff.mp nothing]
  next =>
    split
    next allowed => exact iff_of_true spares_none (List.contains_iff_mem.mp allowed)
    next other =>
      refine iff_of_false (reported (List.mem_cons_of_mem _ List.mem_cons_self)) ?_
      exact fun member => other (List.contains_iff_mem.mpr member)

/-- Without a subtype, a node that is checked is checked by its own kind name. -/
theorem checkableName?_whole {found : Placed} (named : item.kindName? = some name) (whole : item.subtype? = none)
    (checked : checkableName? item = some found) : found = name := by
  have own : checkableName? item = some found → name = found := by simp [checkableName?, named, whole]
  exact (own checked).symm

theorem checkFieldValue_unchecked (named : item.kind = .node .namedNode) (unchecked : checkableName? item = none) :
    checkFieldValue settings allowed item = [] := by
  simp [checkFieldValue, named, unchecked]

theorem checkFieldValue_kind (named : item.kind = .node .namedNode) (checked : checkableName? item = some name) :
    Spares [.invalidFieldValue] (checkFieldValue settings allowed item) ↔
      kindFits settings name.text allowed.types = true := by
  unfold checkFieldValue
  simp only [named, checked]
  split
  next fits => exact iff_of_true spares_none fits
  next other => exact iff_of_false (reported List.mem_cons_self) other

theorem checkFieldValue_literal (anonymous : item.kind = .node .anonymousNode) (found : item.string? = some string) :
    Spares [.invalidFieldValue] (checkFieldValue settings allowed item) ↔
      string.stringValue ∈ allowed.types.literals := by
  unfold checkFieldValue
  simp only [anonymous, found]
  split
  next within => exact iff_of_true spares_none (List.contains_iff_mem.mp within)
  next other =>
    refine iff_of_false (reported List.mem_cons_self) ?_
    exact fun member => other (List.contains_iff_mem.mpr member)

private theorem checkFieldValue_reports {report : Report} (member : report ∈ checkFieldValue settings allowed item) :
    report.kind = .invalidFieldValue := by
  unfold checkFieldValue at member
  repeat' split at member
  all_goals first | exact List.mem_singleton.mp member ▸ rfl | cases member

theorem unknownField_kind (span : Text.Span) :
    (unknownField settings (.kind parent) span name).kind = .unknownField := by
  simp only [unknownField]
  split
  next => rfl
  next => exact kind_suggesting ..

theorem checkField_of_known {declared : Subnode} (span : Text.Span) (identified : item.identifier? = some name)
    (found : parent.fields.get? name.text = some declared) :
    checkField settings (.kind parent) span item = (flatValues item).flatMap
      (checkFieldValue settings ⟨declared.types, "field " ++ Text.backticked name.text⟩) := by
  simp [checkField, identified, found]

theorem checkField_spares (span : Text.Span) (identified : item.identifier? = some name) :
    Spares [.unknownField] (checkField settings (.kind parent) span item) ↔
      parent.fields.contains name.text = true := by
  rw [Registry.contains_iff]
  cases found : parent.fields.get? name.text with
  | none =>
    refine iff_of_false ?_ (by simp)
    simp only [checkField, identified, found]
    exact reported (List.mem_singleton.mpr (unknownField_kind span))
  | some declared =>
    refine iff_of_true ?_ ⟨declared, rfl⟩
    rw [checkField_of_known span identified found]
    intro report member
    obtain ⟨value, _, member⟩ := List.mem_flatMap.mp member
    simp [checkFieldValue_reports member]

end TreeQuery.Lint
