import TreeQuery.Proofs.ReadingOutcome

/-! The grammar never gets stuck. Every production that is entered where its first tokens stand
takes them and ends calm, a few looks after the last token it took, so no loop goes on without
moving on and no chain of looks comes near its limit. -/

namespace TreeQuery.Syntax
open Text (Span)
open Diagnostic (Report)

namespace Parser
open Reading

variable {looks : Nat} {kind : TokenKind} {ahead : List TokenKind} {cursor : Cursor}

private theorem widened {reading : Reading Unit} {more : Nat}
    (onward : reading.Ensures cursor fun _ next => Onward looks ahead next) (enough : looks ≤ more) :
    reading.Ensures cursor fun _ next => Onward more ahead next :=
  onward.weaken fun _ _ after => after.widen enough

private theorem take_past {more : Nat} (calm : Calm looks (kind :: ahead) cursor) :
    take.Ensures cursor fun _ next => Onward more ahead next :=
  (take_calm calm).weaken fun _ _ calm => calm.onward (Nat.zero_le more)

private theorem take_onward {more : Nat} (calm : Calm looks (kind :: ahead) cursor) :
    take.Ensures cursor fun _ next => Onward more (kind :: ahead) next :=
  (take_past calm).weaken fun _ _ onward => onward.within (List.suffix_cons kind ahead)

/-- A reading that may be entered anywhere keeps calm wherever earlier readings have got to. -/
private theorem onward_of_calm {reading : Reading Unit} {more : Nat} (onward : Onward looks ahead cursor)
    (calm : ∀ {later}, Calm looks later cursor → reading.Ensures cursor fun _ next => Onward more later next) :
    reading.Ensures cursor fun _ next => Onward more ahead next := by
  obtain ⟨later, inside, here⟩ := onward
  exact (calm here).weaken fun _ _ after => after.within inside

private theorem report_onward (found : Report) (onward : Onward looks ahead cursor) :
    (report found).Ensures cursor fun _ next => Onward looks ahead next :=
  onward_of_calm onward fun calm => (report_calm found calm).weaken fun _ _ calm => calm.onward (Nat.le_refl _)

private theorem reportHere_onward (found : Diagnostic.Kind) (calm : Calm looks ahead cursor) :
    (reportHere found).Ensures cursor fun _ next => Onward looks ahead next :=
  (ask_calm _ calm).bind fun _ _ calm => (report_calm _ calm).weaken fun _ _ calm => calm.onward (Nat.le_refl _)

private theorem takeIf_onward (onward : Onward looks ahead cursor) (few : looks < Cursor.lookLimit) :
    (takeIf kind).Ensures cursor fun _ next => Onward (looks + 1) ahead next := by
  obtain ⟨here, inside, calm⟩ := onward
  refine (takeIf_calm calm few).weaken fun taken next outcome => ?_
  cases taken with
  | true =>
    obtain ⟨later, rfl, after⟩ := outcome
    exact (after.onward (Nat.zero_le _)).within ((List.suffix_cons kind later).trans inside)
  | false => exact (outcome.2.onward (Nat.le_refl _)).within inside

private theorem skipToken_onward (calm : Calm looks (kind :: ahead) cursor) :
    skipToken.Ensures cursor fun _ next => Onward 0 ahead next := by
  refine (atEnd_calm calm).bind fun ended next ⟨same, calm⟩ => ?_
  have more : ended ≠ true := fun ended => by simpa using same.mp ended
  rw [if_neg more]
  exact take_past calm.unplaced

private theorem unexpected_onward (wanted : String) (calm : Calm looks (kind :: ahead) cursor) :
    (unexpected wanted).Ensures cursor fun _ next => Onward 0 ahead next :=
  (ask_calm _ calm).bind fun _ _ calm => (report_calm _ calm).bind fun _ _ calm => skipToken_onward calm

private theorem bareIdentifier_onward (calm : Calm looks (kind :: ahead) cursor) :
    bareIdentifier.Ensures cursor fun _ next => Onward 0 ahead next :=
  ((ask_calm _ calm).bind fun _ _ calm => report_calm _ calm).bind fun _ _ calm => skipToken_onward calm

private theorem close_onward (unclosed : Diagnostic.Kind) (opener : Span) (onward : Onward looks ahead cursor)
    (few : looks < Cursor.lookLimit) :
    (close kind unclosed opener).Ensures cursor fun _ next => Onward (looks + 1) ahead next := by
  refine (takeIf_onward onward few).bind fun closed next onward => ?_
  split
  · exact onward
  · exact report_onward _ onward

private theorem capture_onward (calm : Calm looks (kind :: ahead) cursor) :
    capture.Ensures cursor fun _ next => Onward 1 ahead next := by
  refine ((take_calm calm.unplaced).bind fun _ next calm =>
    (adjacent_calm calm (by decide)).bind fun found next ⟨calm, near⟩ => ?_).node
  split
  next named =>
    obtain ⟨later, rfl⟩ := near _ named rfl
    exact take_onward calm
  next => exact calm.onward (Nat.le_refl _)

private theorem detachedCapture_onward (calm : Calm looks (kind :: ahead) cursor) :
    detachedCapture.Ensures cursor fun _ next => Onward 1 ahead next := by
  refine (ask_calm _ calm).bind fun _ next calm => Ensures.node ?_
  refine (take_calm calm.unplaced).bind fun _ next calm =>
    (adjacent_calm calm (by decide)).bind fun found next ⟨calm, near⟩ => ?_
  split
  next named =>
    obtain ⟨later, rfl⟩ := near _ named rfl
    refine (ask_calm _ calm).bind fun name next calm => (take_calm calm).bind fun _ next calm => ?_
    exact report_onward _ ((calm.onward (Nat.zero_le _)).within (List.suffix_cons _ _))
  next => exact calm.onward (Nat.le_refl _)

private theorem quantifier_onward (onward : Onward looks ahead cursor) (few : looks < Cursor.lookLimit) :
    quantifier.Ensures cursor fun _ next => Onward (looks + 1) ahead next := by
  refine onward_of_calm onward fun calm => ?_
  refine (current_calm calm few).bind fun found next ⟨same, calm⟩ => ?_
  split
  next here =>
    obtain ⟨kind, first, _⟩ := Option.any_eq_true _ _ |>.mp here
    obtain ⟨later, rfl⟩ := List.head?_eq_some_iff.mp (same.symm.trans first)
    exact take_onward calm.unplaced
  next => exact calm.onward (Nat.le_refl _)

private theorem nextCapture_calm (calm : Calm looks ahead cursor) (few : looks < Cursor.lookLimit) :
    nextCapture.Ensures cursor fun again next =>
      if again = true then ∃ kind later, ahead = kind :: later ∧ Onward 1 later next
      else ahead.head? ≠ some .atSign ∧ Calm (looks + 1) ahead next := by
  refine (current_calm calm few).bind fun found next ⟨same, calm⟩ => ?_
  split
  next here =>
    obtain ⟨later, rfl⟩ := List.head?_eq_some_iff.mp (same.symm.trans here)
    exact (capture_onward calm).bind fun _ _ onward => ⟨_, later, rfl, onward⟩
  next elsewhere => exact ⟨same ▸ elsewhere, calm⟩

private theorem suffix_onward (onward : Onward looks ahead cursor) (few : looks + 1 < Cursor.lookLimit) :
    suffix.Ensures cursor fun _ next => Onward (looks + 2) ahead next := by
  refine (quantifier_onward onward (Nat.lt_of_succ_lt few)).bind fun _ next onward =>
    onward_of_calm onward fun calm => ?_
  refine (repeatWhile_calm (looks + 2) (fun ahead => ahead.head? ≠ some .atSign)
    advances.nextCapture (fun calm => ?_) calm).weaken fun _ _ ⟨later, inside, _, calm⟩ => ⟨later, inside, calm⟩
  refine (nextCapture_calm calm few).weaken fun again next outcome => ?_
  cases again with
  | true =>
    obtain ⟨kind, later, same, onward⟩ := outcome
    exact ⟨kind, later, same, onward.widen (by omega)⟩
  | false => exact outcome

private theorem stringContent_onward (onward : Onward looks ahead cursor) (few : looks < Cursor.lookLimit) :
    stringContent.Ensures cursor fun _ next => Onward (looks + 1) ahead next := by
  refine onward_of_calm onward fun calm => ?_
  refine (adjacent_calm calm few).bind fun found next ⟨calm, near⟩ => ?_
  split
  next content =>
    obtain ⟨later, rfl⟩ := near _ content rfl
    exact take_onward calm
  next => exact calm.onward (Nat.le_refl _)

private theorem closingQuote_onward (opener : Span) (onward : Onward looks ahead cursor) (few : looks < Cursor.lookLimit) :
    (closingQuote opener).Ensures cursor fun _ next => Onward (looks + 1) ahead next := by
  refine onward_of_calm onward fun calm => ?_
  refine (adjacent_calm calm few).bind fun found next ⟨calm, near⟩ => ?_
  split
  next quote =>
    obtain ⟨later, rfl⟩ := near _ quote rfl
    exact take_onward calm
  next => exact report_onward _ (calm.onward (Nat.le_refl _))

private theorem string_onward (calm : Calm looks (kind :: ahead) cursor) :
    string.Ensures cursor fun _ next => Onward 2 ahead next := by
  refine Ensures.node ((ask_calm _ calm.unplaced).bind fun opener next calm => ?_)
  refine (take_calm calm).bind fun _ next calm => ?_
  refine (stringContent_onward (calm.onward (Nat.le_refl 0)) (by decide)).bind fun _ next onward => ?_
  exact closingQuote_onward opener onward (by decide)

private theorem negatedField_onward (calm : Calm looks (kind :: ahead) cursor) :
    negatedField.Ensures cursor fun _ next => Onward 1 ahead next := by
  refine Ensures.node ((take_calm calm.unplaced).bind fun _ next calm => ?_)
  refine (takeIf_onward (calm.onward (Nat.le_refl 0)) (by decide)).bind fun named next onward => ?_
  split
  · exact onward
  · exact onward_of_calm onward fun calm => reportHere_onward _ calm

private theorem stringOrWildcard_onward (calm : Calm looks (kind :: ahead) cursor) (few : looks < Cursor.lookLimit) :
    stringOrWildcard.Ensures cursor fun _ next => Onward 2 ahead next := by
  refine (takeIf_calm calm few).bind fun taken next outcome => ?_
  cases taken with
  | true =>
    obtain ⟨later, same, after⟩ := outcome
    obtain ⟨_, rfl⟩ := List.cons.inj same
    exact after.onward (Nat.zero_le _)
  | false => exact string_onward outcome.2

private theorem anonymousNode_onward (calm : Calm looks (kind :: ahead) cursor) (few : looks < Cursor.lookLimit) :
    anonymousNode.Ensures cursor fun _ next => Onward 4 ahead next :=
  Ensures.node ((stringOrWildcard_onward calm.unplaced few).bind fun _ _ onward =>
    suffix_onward onward (by decide))

private theorem nextMember_calm {member : TokenKind → Reading Unit}
    (each : ∀ {kind ahead cursor}, Calm (looks + 1) (kind :: ahead) cursor →
      (member kind).Ensures cursor fun _ next => Onward looks ahead next)
    (calm : Calm looks ahead cursor) (few : looks < Cursor.lookLimit) :
    (nextMember member).Ensures cursor fun again next =>
      if again = true then ∃ kind later, ahead = kind :: later ∧ Onward looks later next
      else ahead.head?.all TokenKind.isCloser = true ∧ Calm (looks + 1) ahead next := by
  refine (current_calm calm few).bind fun found next ⟨same, calm⟩ => ?_
  cases ahead with
  | nil =>
    subst same
    exact ⟨rfl, calm⟩
  | cons kind ahead =>
    subst same
    change Reading.Ensures (if kind.isCloser then pure false else do member kind; pure true) next _
    split
    next closer => exact ⟨closer, calm⟩
    next => exact (each calm).bind fun _ _ onward => ⟨kind, ahead, rfl, onward⟩

private theorem members_onward {member : TokenKind → Reading Unit} (forward : ∀ kind, Obeys Advances (member kind))
    (each : ∀ {kind ahead cursor}, Calm (looks + 1) (kind :: ahead) cursor →
      (member kind).Ensures cursor fun _ next => Onward looks ahead next)
    (onward : Onward looks ahead cursor) (few : looks < Cursor.lookLimit) :
    (repeatWhile (nextMember member)).Ensures cursor fun _ next => Onward (looks + 1) ahead next := by
  refine onward_of_calm onward fun calm => ?_
  exact (repeatWhile_calm _ _ (advances.nextMember forward) (fun calm => nextMember_calm each calm few) calm).weaken
    fun _ _ ⟨later, inside, _, calm⟩ => ⟨later, inside, calm⟩

private theorem argument_onward (calm : Calm looks (kind :: ahead) cursor) :
    (argument kind).Ensures cursor fun _ next => Onward 2 ahead next := by
  unfold argument
  split
  · exact widened (capture_onward calm) (by decide)
  · exact string_onward calm
  · exact take_past calm
  · exact take_past calm
  · exact widened (unexpected_onward _ calm) (Nat.zero_le _)

private theorem arguments_onward (onward : Onward 2 ahead cursor) :
    arguments.Ensures cursor fun _ next => Onward 3 ahead next :=
  Ensures.node (members_onward advances.argument argument_onward onward.unplaced (by decide))

private theorem predicateMark_onward (onward : Onward looks ahead cursor) (few : looks + 1 < Cursor.lookLimit) :
    predicateMark.Ensures cursor fun _ next => Onward (looks + 2) ahead next := by
  refine (takeIf_onward onward (Nat.lt_of_succ_lt few)).bind fun question next onward => ?_
  split
  · exact onward.widen (Nat.le_succ _)
  · refine (takeIf_onward onward few).bind fun bang next onward => ?_
    split
    · exact onward
    · exact onward_of_calm onward fun calm => reportHere_onward _ calm

private theorem predicateName_onward (calm : Calm 0 ahead cursor) :
    predicateName.Ensures cursor fun _ next => Onward 2 ahead next := by
  refine (takeIf_calm calm (by decide)).bind fun named next outcome => ?_
  cases named with
  | true =>
    obtain ⟨later, rfl, after⟩ := outcome
    exact onward_of_calm ((after.onward (Nat.le_refl 0)).within (List.suffix_cons _ _)) fun calm =>
      predicateMark_onward (calm.onward (Nat.le_refl 0)) (by decide)
  | false =>
    exact widened (reportHere_onward _ outcome.2) (by decide)

private theorem predicate_onward (calm : Calm looks (kind :: .sharp :: ahead) cursor) :
    predicate.Ensures cursor fun _ next => Onward 4 (.sharp :: ahead) next := by
  refine Ensures.node ((ask_calm _ calm.unplaced).bind fun opener next calm => ?_)
  refine (take_calm calm).bind fun _ next calm => ?_
  refine (expect_calm calm (by decide)).bind fun _ next calm => ?_
  refine (take_calm calm).bind fun _ next calm => ?_
  refine (predicateName_onward calm).bind fun _ next onward => ?_
  refine (arguments_onward onward).bind fun _ next onward => ?_
  exact (close_onward _ opener onward (by decide)).weaken fun _ _ onward =>
    onward.within (List.suffix_cons _ _)

/-- A reading of patterns that is entered where a token stands takes it and ends rested. -/
def Descends (inner : Reading Unit) : Prop :=
  ∀ {looks kind ahead cursor}, Calm looks (kind :: ahead) cursor →
    inner.Ensures cursor fun _ next => Onward 0 ahead next

private theorem missingKind_onward (calm : Calm 0 ahead cursor) :
    missingKind.Ensures cursor fun _ next => Onward 2 ahead next := by
  refine (current_calm calm (by decide)).bind fun found next ⟨same, calm⟩ => ?_
  split
  next =>
    obtain ⟨later, rfl⟩ := List.head?_eq_some_iff.mp same.symm
    exact take_onward calm
  next =>
    obtain ⟨later, rfl⟩ := List.head?_eq_some_iff.mp same.symm
    exact (string_onward calm).weaken fun _ _ onward => onward.within (List.suffix_cons _ _)
  next => exact calm.onward (by decide)

private theorem subtype_onward (calm : Calm 0 ahead cursor) :
    subtype.Ensures cursor fun _ next => Onward 2 ahead next := by
  refine (takeIf_onward (calm.onward (Nat.le_refl 0)) (by decide)).bind fun slash next onward => ?_
  split
  · refine (takeIf_onward onward (by decide)).bind fun named next onward => ?_
    split
    · exact onward
    · exact onward_of_calm onward fun calm => reportHere_onward _ calm
  · exact onward.widen (by decide)

private theorem kindDetail_onward (name : String) (calm : Calm 0 ahead cursor) :
    (kindDetail name).Ensures cursor fun _ next => Onward 2 ahead next := by
  unfold kindDetail
  split
  · exact missingKind_onward calm
  · exact subtype_onward calm

section Nested

variable {inner : Reading Unit} (forward : Obeys Advances inner) (descends : Descends inner)
include forward descends

omit forward in
private theorem item_onward (calm : Calm looks (kind :: ahead) cursor) :
    (item inner kind).Ensures cursor fun _ next => Onward 2 ahead next := by
  unfold item
  split
  · exact widened (negatedField_onward calm) (by decide)
  · exact take_past calm
  · exact widened (detachedCapture_onward calm) (by decide)
  · split
    · exact widened (descends calm) (Nat.zero_le _)
    · exact widened (unexpected_onward _ calm) (Nat.zero_le _)

private theorem items_onward (onward : Onward 2 ahead cursor) :
    (items inner).Ensures cursor fun _ next => Onward 3 ahead next :=
  members_onward (advances.item forward) (item_onward descends) onward (by decide)

private theorem body_onward (unclosed : Diagnostic.Kind) (opener : Span) (onward : Onward 2 ahead cursor) :
    Ensures (do items inner; close kind unclosed opener; suffix) cursor fun _ next => Onward 6 ahead next := by
  refine (items_onward forward descends onward).bind fun _ next onward => ?_
  refine (close_onward unclosed opener onward (by decide)).bind fun _ next onward => ?_
  exact suffix_onward onward (by decide)

private theorem namedNode_onward {second : TokenKind} (calm : Calm looks (kind :: second :: ahead) cursor) :
    (namedNode inner).Ensures cursor fun _ next => Onward 6 (second :: ahead) next := by
  refine Ensures.node ((ask_calm _ calm.unplaced).bind fun opener next calm => ?_)
  refine (take_calm calm).bind fun _ next calm => ?_
  refine (ask_calm _ calm).bind fun name next calm => ?_
  refine (take_calm calm).bind fun _ next calm => ?_
  refine (kindDetail_onward name calm).bind fun _ next onward => ?_
  exact (body_onward forward descends _ opener onward).weaken fun _ _ onward =>
    onward.within (List.suffix_cons _ _)

private theorem grouping_onward (calm : Calm looks (kind :: ahead) cursor) :
    (grouping inner).Ensures cursor fun _ next => Onward 6 ahead next := by
  refine Ensures.node ((ask_calm _ calm.unplaced).bind fun opener next calm => ?_)
  refine (take_calm calm).bind fun _ next calm => ?_
  exact body_onward forward descends _ opener (calm.onward (Nat.zero_le _))

private theorem list_onward (calm : Calm looks (kind :: ahead) cursor) :
    (list inner).Ensures cursor fun _ next => Onward 6 ahead next := by
  refine Ensures.node ((ask_calm _ calm.unplaced).bind fun opener next calm => ?_)
  refine (take_calm calm).bind fun _ next calm => ?_
  exact body_onward forward descends _ opener (calm.onward (Nat.zero_le _))

omit forward in
private theorem fieldDefinition_onward (calm : Calm looks (kind :: .colon :: ahead) cursor) :
    (fieldDefinition inner).Ensures cursor fun _ next => Onward 1 (.colon :: ahead) next := by
  refine Ensures.node ((take_calm calm.unplaced).bind fun _ next calm => ?_)
  refine (expect_calm calm (by decide)).bind fun _ next calm => ?_
  refine (take_calm calm).bind fun _ next calm => ?_
  refine (current_calm calm (by decide)).bind fun found next ⟨same, calm⟩ => ?_
  split
  next here =>
    obtain ⟨kind, first, _⟩ := Option.any_eq_true _ _ |>.mp here
    obtain ⟨later, rfl⟩ := List.head?_eq_some_iff.mp (same.symm.trans first)
    exact (descends calm).weaken fun _ _ onward => (onward.widen (Nat.zero_le _)).within
      ((List.suffix_cons _ _).trans (List.suffix_cons _ _))
  next => exact (calm.onward (Nat.le_refl _)).within (List.suffix_cons _ _)

private theorem namedNodeOrGrouping_onward {second : TokenKind} (calm : Calm looks (kind :: second :: ahead) cursor)
    (few : looks < Cursor.lookLimit) :
    (namedNodeOrGrouping inner).Ensures cursor fun _ next => Onward 6 (second :: ahead) next := by
  refine (ahead_calm 2 calm few).bind fun third next ⟨_, calm⟩ => ?_
  split
  · exact grouping_onward forward descends calm
  · exact namedNode_onward forward descends calm

private theorem parenthesized_onward (calm : Calm looks (kind :: ahead) cursor) (few : looks + 1 < Cursor.lookLimit) :
    (parenthesized inner).Ensures cursor fun _ next => Onward 6 ahead next := by
  refine (ahead_calm 1 calm (Nat.lt_of_succ_lt few)).bind fun second next ⟨same, calm⟩ => ?_
  rw [List.getElem?_cons_succ, ← List.head?_eq_getElem?] at same
  split
  next =>
    obtain ⟨later, rfl⟩ := List.head?_eq_some_iff.mp same.symm
    exact widened (predicate_onward calm) (by decide)
  next =>
    obtain ⟨later, rfl⟩ := List.head?_eq_some_iff.mp same.symm
    exact namedNodeOrGrouping_onward forward descends calm few
  next =>
    obtain ⟨later, rfl⟩ := List.head?_eq_some_iff.mp same.symm
    exact namedNodeOrGrouping_onward forward descends calm few
  next => exact grouping_onward forward descends calm

private theorem construct_onward (calm : Calm 0 (kind :: ahead) cursor) :
    (construct inner).Ensures cursor fun _ next => Onward 6 ahead next := by
  refine (current_calm calm (by decide)).bind fun found next ⟨_, calm⟩ => ?_
  split
  · exact parenthesized_onward forward descends calm (by decide)
  · exact list_onward forward descends calm
  · exact widened (anonymousNode_onward calm (by decide)) (by decide)
  · exact widened (anonymousNode_onward calm (by decide)) (by decide)
  · refine (ahead_calm 1 calm (by decide)).bind fun second next ⟨same, calm⟩ => ?_
    rw [List.getElem?_cons_succ, ← List.head?_eq_getElem?] at same
    split
    next colon =>
      obtain ⟨later, rfl⟩ := List.head?_eq_some_iff.mp (same.symm.trans colon)
      exact widened (fieldDefinition_onward descends calm) (by decide)
    next => exact widened (bareIdentifier_onward calm) (Nat.zero_le _)
  · exact widened (unexpected_onward _ calm) (Nat.zero_le _)

private theorem nested_descends : Descends (nested inner) := by
  intro looks kind ahead cursor calm
  have rested : (move Cursor.rested).Ensures cursor fun _ next => Calm 0 (kind :: ahead) next :=
    ⟨calm.sound, Nat.le_refl 0, calm.kinds, calm.swallowed⟩
  exact rested.bind fun _ next calm =>
    (construct_onward forward descends calm).bind fun _ next ⟨later, inside, calm⟩ =>
      ⟨later, inside, calm.sound, Nat.le_refl 0, calm.kinds, calm.swallowed⟩

end Nested

/-- Swallowing ends where nothing is left, right after a token if there was any. -/
private theorem swallow_ends (sound : cursor.fault = none) (more : solidKinds cursor.rest ≠ []) :
    (repeatWhile swallow).Ensures cursor fun _ next => Calm 0 [] next := by
  refine Ensures.repeatWhile (fun cursor =>
    cursor.fault = none ∧ (solidKinds cursor.rest = [] → cursor.looks = 0)) ?_ ⟨sound, fun empty => absurd empty more⟩
  intro cursor ⟨sound, last⟩
  have looked : atEnd.Ensures cursor fun ended next => ended = next.rest.isEmpty ∧ next = cursor.skip := ⟨rfl, rfl⟩
  refine looked.bind ?_
  rintro ended _ ⟨rfl, rfl⟩
  cases left : cursor.skip.rest with
  | nil =>
    have none : solidKinds cursor.rest = [] := by
      rw [← solidKinds_dropWhile]
      exact congrArg solidKinds left
    exact ⟨sound, Nat.le_of_eq (last none), congrArg solidKinds left, fun _ => rfl⟩
  | cons token rest =>
    refine (take_first ((Cursor.skip_twice cursor).trans left)).bind fun _ next ⟨fault, taken, same, _⟩ => ?_
    have suffix : token :: rest <:+ cursor.rest := left ▸ List.dropWhile_suffix _
    have shorter : next.rest.length < cursor.rest.length := same ▸ suffix.length_le
    exact ⟨⟨fault.trans sound, fun _ => taken⟩, shorter⟩

private theorem giveUp_onward (calm : Calm looks (kind :: ahead) cursor) :
    giveUp.Ensures cursor fun _ next => Onward 0 ahead next := by
  refine (ask_calm _ calm).bind fun start next calm => ?_
  refine (ask_calm _ calm).bind fun stop next calm => ?_
  have more : solidKinds next.rest ≠ [] := by simp [calm.kinds]
  have told (report : Report) : (reportLast report).Ensures next fun _ next =>
      next.fault = none ∧ solidKinds next.rest ≠ [] := ⟨calm.sound, more⟩
  refine (told _).bind fun _ next ⟨sound, more⟩ => ?_
  have swallowed : (repeatWhile swallow).Ensures { next with waiting := [] } fun _ next => Calm 0 [] next :=
    swallow_ends sound more
  exact Ensures.node (swallowed.weaken fun _ _ calm => ⟨[], List.nil_suffix, calm⟩)

private theorem unlessExhausted_descends {inner : Reading Unit} (descends : Descends inner) :
    Descends (unlessExhausted inner) := by
  intro looks kind ahead cursor calm
  have deeper : ¬ cursor.exhausted = true := fun exhausted => by simpa using calm.swallowed exhausted
  unfold Ensures unlessExhausted
  rw [if_neg deeper]
  exact descends calm

private theorem pattern_descends (room : Nat) : Descends (pattern room) := by
  induction room with
  | zero => exact unlessExhausted_descends giveUp_onward
  | succ room ih => exact unlessExhausted_descends (nested_descends (advances.pattern room) ih)

private theorem topLevel_onward (limit : Nat) (calm : Calm looks (kind :: ahead) cursor) :
    (topLevel limit (some kind)).Ensures cursor fun _ next => Onward 1 ahead next := by
  unfold topLevel
  split
  · exact detachedCapture_onward calm
  · split
    · exact widened (pattern_descends limit calm) (Nat.zero_le _)
    · exact widened (unexpected_onward _ calm) (Nat.zero_le _)

private theorem nextTopLevel_calm (limit : Nat) (calm : Calm 1 ahead cursor) :
    (nextTopLevel limit).Ensures cursor fun again next =>
      if again = true then ∃ kind later, ahead = kind :: later ∧ Onward 1 later next
      else ahead = [] ∧ Calm 1 ahead next := by
  refine (atEnd_calm calm).bind fun ended next ⟨same, calm⟩ => ?_
  cases ended with
  | true => exact ⟨same.mp rfl, calm⟩
  | false =>
    cases ahead with
    | nil => simp at same
    | cons kind later =>
      refine (current_calm calm (by decide)).bind fun found next ⟨here, calm⟩ => ?_
      subst here
      exact (topLevel_onward limit calm).bind fun _ _ onward => ⟨kind, later, rfl, onward⟩

/-- A whole document is read to its end, trivia included, and nothing stays unplaced. -/
theorem program_ends (limit : Nat) (tokens : List Token) :
    (program limit).Ensures (.start tokens) fun _ next =>
      next.fault = none ∧ next.rest = [] ∧ next.waiting = [] := by
  have calm : Calm 1 (solidKinds tokens) (.start tokens) :=
    ⟨rfl, Nat.zero_le 1, rfl, fun exhausted => by simp [Cursor.start] at exhausted⟩
  refine Ensures.node ((repeatWhile_calm 1 (· = [])
    (advances.nextTopLevel limit) (fun calm => nextTopLevel_calm limit calm) calm.unplaced).bind ?_)
  rintro _ next ⟨later, _, rfl, calm⟩
  exact ⟨calm.sound, calm.ended, rfl⟩

end Parser

/-- A parse never fails: no loop goes on without moving on, no token is taken where none is left
or where another kind is due, and looks never run out. That there is no fault in the end says it of
every step, since a fault stays once it is noted (`faultStays`). What was opened is closed again, so
that there is one tree in the end, and nothing is left unread or unplaced. -/
theorem parse_without_fault (limit : Nat) (source : String) :
    (parse limit source).fault = none ∧
    ∃ children reports next,
      Parser.program limit (.start (Token.ofText source)) = ⟨(), [.node .program children], reports, next⟩ ∧
      (parse limit source).tree = .node .program children ∧
      next.rest = [] ∧ next.waiting = [] := by
  obtain ⟨sound, ended, placed⟩ := Parser.program_ends limit (Token.ofText source)
  exact ⟨sound, _, _, _, rfl, rfl, ended, placed⟩

end TreeQuery.Syntax
