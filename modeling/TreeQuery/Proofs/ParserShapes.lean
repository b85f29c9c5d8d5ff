import TreeQuery.Proofs.ParserLeaves
import TreeQuery.Proofs.ReadingShapes

/-! The grammar places trees of the shapes it is meant to, whatever stands ahead. Each production is
entered where its first tokens stand. What nests patterns leaves one level less for them, and where no
level is left all that is ahead goes into one error. -/

namespace TreeQuery.Syntax
open Text (Span)
open Shape
open Diagnostic (Report)

namespace Reading

/-- Whether nesting went too deep is as before. -/
def Steady {α : Type} (reading : Reading α) : Prop := ∀ cursor, (reading cursor).next.exhausted = cursor.exhausted

namespace Steady

variable {α β : Type}

private theorem bind {first : Reading α} {second : α → Reading β} (before : first.Steady)
    (after : ∀ value, (second value).Steady) :
    (first >>= second).Steady := fun cursor => (after _ _).trans (before cursor)

private theorem current : current.Steady := by
  intro cursor
  obtain ⟨fault, same⟩ := cursor.look_eq
  change cursor.look.skip.exhausted = cursor.exhausted
  rw [same]
  rfl

private theorem take : take.Steady := by
  intro cursor
  cases left : cursor.skip.rest with
  | nil => rw [take_at_end left]; rfl
  | cons token rest => rw [take_token left]; rfl

private theorem takeIf (kind : TokenKind) : (takeIf kind).Steady := by
  refine current.bind fun found => ?_
  split
  · exact take.bind fun _ _ => rfl
  · exact fun _ => rfl

private theorem reportHere (kind : Diagnostic.Kind) : (Parser.reportHere kind).Steady := by
  refine bind (fun _ => rfl) fun span cursor => ?_
  unfold report
  split <;> rfl

end Steady

end Reading

namespace Parser
open Reading

variable {room : Nat} {kind : TokenKind} {ahead : List TokenKind} {cursor : Cursor}

private theorem reportHere_writes (found : Diagnostic.Kind) (sees : Sees ahead cursor) :
    (reportHere found).Writes room cursor 1 :=
  .asking sees fun _ _ sees _ => .report _ sees

/-- A token out of place. Where no level is left it is none that a pattern begins with. -/
private theorem skipToken_writes (sees : Sees (kind :: ahead) cursor) (noted : cursor.reported.isSome = true)
    (apart : room = 0 → kind.startsPattern = false) : skipToken.Writes room cursor (node .error) := by
  refine .ending sees fun next sees worsens => ?_
  have inside : take.Writes room { next with waiting := [] } (token kind) := .take sees.unplaced
  have single : row (take { next with waiting := [] }).trees = [.token kind] := inside.fits
  refine .node sees sees.awake inside ⟨?_, nofun, nofun, nofun, fun _ => .inr ⟨?_, ?_, ?_⟩, nofun⟩
  · rw [single]
    exact append_mem (mem_oneOf.mpr ⟨_, sees.solid List.mem_cons_self, rfl⟩) (mem_many.mpr nofun)
  · intro ⟨last, opens⟩
    rw [opensPattern, single] at opens
    cases (apart last).symm.trans opens
  · exact inside.worsens.reported (worsens.reported noted)
  · rw [single]
    rfl

private theorem unexpected_writes (wanted : String) (sees : Sees (kind :: ahead) cursor)
    (apart : room = 0 → kind.startsPattern = false) : (unexpected wanted).Writes room cursor (node .error) :=
  .asking sees fun _ _ sees _ => .reporting _ sees sees.awake fun _ sees noted => skipToken_writes sees noted apart

private theorem bareIdentifier_writes (sees : Sees (kind :: ahead) cursor) (apart : room = 0 → kind.startsPattern = false) :
    bareIdentifier.Writes room cursor (node .error) := by
  change (do let span ← currentSpan; report (.of .bareIdentifier span); skipToken : Reading Unit).Writes room cursor _
  exact .asking sees fun _ _ sees _ => .reporting _ sees sees.awake fun _ sees noted => skipToken_writes sees noted apart

private theorem close_writes (closer : TokenKind) (unclosed : Diagnostic.Kind) (opener : Span) (sees : Sees ahead cursor) :
    (close closer unclosed opener).Writes room cursor (maybe (token closer)) :=
  .takingOptional sees fun _ => .report _

/-- What a capture holds, its name read by a reading that may do more. -/
def captureBody (named : Reading Unit) : Reading Unit := do
  take
  if (← adjacent) = some .identifier then named

section Captures

variable {named : Reading Unit}
  (names : ∀ {next later}, Sees (.identifier :: later) next → named.Writes room next (token .identifier))
  (alone : ∀ {next}, next.waiting = [] → Abuts next → named.Each (·.kind.isTrivia = false) next)
include names alone

private theorem captureNode_writes (sees : Sees (.atSign :: ahead) cursor) (abuts : Abuts cursor) :
    (Reading.node .capture (captureBody named)).Writes room cursor (node .capture) := by
  have inside : (captureBody named).Writes room { cursor with waiting := [] }
      (token .atSign * maybe (token .identifier)) := by
    refine .taking sees.unplaced fun next sees _ => .adjoining sees fun found next sees near => ?_
    split
    next naming =>
      obtain ⟨later, rfl⟩ := near _ naming rfl
      exact (names sees).weaken fun _ => .inr
    next => exact (Writes.pure sees ()).weaken fun _ => .inl
  -- The name is read only where it is adjacent, and then no trivia is placed before it.
  have tight : (captureBody named).Each (·.kind.isTrivia = false) { cursor with waiting := [] } := by
    refine .bind (.takeAlone rfl abuts) (.bind (.none rfl) ?_)
    obtain ⟨_, _, _, placed⟩ := take_sees sees.unplaced
    generalize (take { cursor with waiting := [] }).next = next at placed ⊢
    obtain ⟨fault, same⟩ := next.look_eq
    split
    next naming =>
      change named.Each _ next.look
      rw [same]
      refine alone placed ?_
      obtain ⟨token, first, naming⟩ := Option.map_eq_some_iff.mp naming
      obtain ⟨rest, left⟩ := List.head?_eq_some_iff.mp first
      change next.rest.takeWhile Token.isTrivia = []
      rw [left]
      exact List.takeWhile_cons_of_neg (by simp [Token.isTrivia, naming, TokenKind.isTrivia])
    next => exact .none rfl
  refine .node sees sees.awake inside ⟨inside.fits, fun _ => tight, ?_, ?_, ?_, ?_⟩
  all_goals
    intro other
    cases other

end Captures

private theorem capture_writes (sees : Sees (.atSign :: ahead) cursor) (abuts : Abuts cursor) :
    capture.Writes room cursor (node .capture) :=
  captureNode_writes .take .takeAlone sees abuts

private theorem detachedCapture_writes (sees : Sees (.atSign :: ahead) cursor) :
    detachedCapture.Writes room cursor (node .capture) := by
  refine .asking sees fun start next sees abuts => captureNode_writes (fun sees => ?_) (fun {next} placed abuts => ?_) sees abuts
  · exact .asking sees fun _ _ sees _ => (Writes.take sees).idle fun _ _ _ sees => .report _ sees
  · refine .bind (.none rfl) (.bind (.takeAlone ?_ (.skip next)) (.none (report_quiet ..)))
    change next.waiting ++ next.rest.takeWhile Token.isTrivia = []
    rw [placed, abuts]
    rfl

private theorem quantifier_writes (sees : Sees ahead cursor) : quantifier.Writes room cursor (maybe (node .quantifier)) := by
  refine .looking sees fun next sees _ => ?_
  split
  next here =>
    obtain ⟨kind, first, quantifies⟩ := Option.any_eq_true _ _ |>.mp here
    obtain ⟨later, rfl⟩ := List.head?_eq_some_iff.mp first
    have known : .token kind ∈ [Kind.token .star, .token .plus, .token .question] := by
      cases kind with
      | star | plus | question => decide
      | _ => cases quantifies
    have placed : (Reading.node .quantifier take).Writes room next (node .quantifier) :=
      .plain rfl nofun sees sees.awake ((Writes.take sees.unplaced).among known)
    exact placed.weaken fun _ => .inr
  next => exact (Writes.pure sees ()).weaken fun _ => .inl

private theorem nextCapture_writes (sees : Sees ahead cursor) : nextCapture.Writes room cursor (many [.node .capture]) := by
  refine .looking sees fun next sees abuts => ?_
  split
  next here =>
    obtain ⟨later, rfl⟩ := List.head?_eq_some_iff.mp here
    refine ((capture_writes sees abuts).idle fun _ _ _ sees => .pure sees true).weaken fun word single => ?_
    exact mem_many.mpr fun kind inside => single ▸ inside
  next => exact (Writes.pure sees false).weaken nil_many

private theorem suffix_writes (sees : Sees ahead cursor) : suffix.Writes room cursor suffixShape :=
  (quantifier_writes sees).bind fun _ _ _ sees => .repeatWhile nextCapture_writes sees

private theorem stringContent_writes (sees : Sees ahead cursor) :
    stringContent.Writes room cursor (maybe (token .stringContent)) := by
  refine .adjoining sees fun found next sees near => ?_
  split
  next here =>
    obtain ⟨later, rfl⟩ := near _ here rfl
    exact (Writes.take sees).weaken fun _ => .inr
  next => exact (Writes.pure sees ()).weaken fun _ => .inl

private theorem closingQuote_writes (opener : Span) (sees : Sees ahead cursor) :
    (closingQuote opener).Writes room cursor (maybe (token .doubleQuote)) := by
  refine .adjoining sees fun found next sees near => ?_
  split
  next here =>
    obtain ⟨later, rfl⟩ := near _ here rfl
    exact (Writes.take sees).weaken fun _ => .inr
  next => exact (Writes.report _ sees).weaken fun _ => .inl

private theorem string_writes (sees : Sees (.doubleQuote :: ahead) cursor) : string.Writes room cursor (node .string) :=
  .plain rfl nofun sees sees.awake (.asking sees.unplaced fun opener _ sees _ => .taking sees fun _ sees _ =>
    (stringContent_writes sees).bind fun _ _ _ sees => closingQuote_writes opener sees)

private theorem negatedField_writes (sees : Sees (.bang :: ahead) cursor) :
    negatedField.Writes room cursor (node .negatedField) :=
  .plain rfl nofun sees sees.awake (.taking sees.unplaced fun _ sees _ => .takingOptional sees fun _ => reportHere_writes _)

private theorem stringOrWildcard_writes (sees : Sees (kind :: ahead) cursor) (begins : kind = .doubleQuote ∨ kind = .underscore) :
    stringOrWildcard.Writes room cursor (oneOf [.token .underscore, .node .string]) := by
  refine .takingIf sees (fun _ _ _ sees => .pure sees ()) (fun next sees other => ?_) fun word empty => ?_
  · obtain rfl : kind = .doubleQuote := begins.resolve_right fun same => other (congrArg some same)
    exact (string_writes sees).among (by decide)
  · exact mem_oneOf.mpr ⟨.token .underscore, by decide, congrArg _ empty⟩

private theorem anonymousNode_writes (sees : Sees (kind :: ahead) cursor) (begins : kind = .doubleQuote ∨ kind = .underscore) :
    anonymousNode.Writes room cursor (node .anonymousNode) :=
  .plain rfl nofun sees sees.awake ((stringOrWildcard_writes sees.unplaced begins).bind fun _ _ _ => suffix_writes)

private theorem argument_writes (levels : 0 < room) (sees : Sees (kind :: ahead) cursor) (abuts : Abuts cursor) :
    (argument kind).Writes room cursor (oneOf argumentKinds) := by
  unfold argument
  split
  · exact (capture_writes sees abuts).among (by decide)
  · exact (string_writes sees).among (by decide)
  · exact (Writes.take sees).among (by decide)
  · exact (Writes.take sees).among (by decide)
  · exact (unexpected_writes _ sees fun none => absurd none (Nat.ne_of_gt levels)).among (by decide)

private theorem nextMember_writes {member : TokenKind → Reading Unit} {kinds : List Kind}
    (each : ∀ {kind ahead cursor}, Sees (kind :: ahead) cursor → Abuts cursor →
      (member kind).Writes room cursor (oneOf kinds)) (sees : Sees ahead cursor) :
    (nextMember member).Writes room cursor (many kinds) := by
  refine .looking sees fun next sees abuts => ?_
  cases ahead with
  | nil => exact (Writes.pure sees false).weaken nil_many
  | cons kind ahead =>
    change Reading.Writes (if kind.isCloser then pure false else do member kind; pure true) room next (many kinds)
    split
    · exact (Writes.pure sees false).weaken nil_many
    · exact ((each sees abuts).idle fun _ _ _ sees => .pure sees true).weaken oneOf_many

private theorem arguments_writes (levels : 0 < room) (sees : Sees ahead cursor) (awake : cursor.exhausted = false) :
    arguments.Writes room cursor (node .parameters) :=
  .plain rfl nofun sees awake (.repeatWhile (nextMember_writes (argument_writes levels)) sees.unplaced)

private theorem predicateMark_writes (sees : Sees ahead cursor) :
    predicateMark.Writes room cursor (maybe (oneOf [.token .question, .token .bang])) := by
  have mark {kind : TokenKind} (known : .token kind ∈ [Kind.token .question, .token .bang]) :
      ∀ word ∈ (1 : RegularExpression Kind).matches',
        .token kind :: word ∈ (maybe (oneOf [.token .question, .token .bang])).matches' :=
    fun word empty => .inr (mem_oneOf.mpr ⟨_, known, congrArg _ empty⟩)
  refine .takingIf sees (fun _ _ _ sees => .pure sees ()) (fun next sees _ => ?_) (mark (by decide))
  refine .takingIf sees (fun _ _ _ sees => .pure sees ()) (fun next sees _ => ?_) (mark (by decide))
  exact (reportHere_writes _ sees).weaken fun _ => .inl

private theorem predicateName_writes (sees : Sees ahead cursor) :
    predicateName.Writes room cursor (maybe (token .identifier * maybe (oneOf [.token .question, .token .bang]))) :=
  .takingIf sees (fun _ _ _ => predicateMark_writes) (fun _ sees _ => (reportHere_writes _ sees).weaken fun _ => .inl)
    fun _ marked => .inr (append_mem (mem_char.mpr rfl) marked)

private theorem predicateName_steady : predicateName.Steady := by
  refine (Steady.takeIf _).bind fun named => ?_
  split
  · refine (Steady.takeIf _).bind fun question => ?_
    split
    · exact fun _ => rfl
    · refine (Steady.takeIf _).bind fun bang => ?_
      split
      · exact fun _ => rfl
      · exact Steady.reportHere _
  · exact Steady.reportHere _

private theorem predicate_writes (levels : 0 < room) (sees : Sees (.parenOpen :: .sharp :: ahead) cursor) :
    predicate.Writes room cursor (node .predicate) := by
  refine .plain rfl (fun _ => levels) sees sees.awake (.asking sees.unplaced fun opener _ sees _ => .taking sees fun _ sees _ =>
    .expecting sees fun _ sees => .taking sees fun next sees awake => ?_)
  have named : predicateName.Writes room next _ := predicateName_writes sees
  obtain ⟨later, seen⟩ := named.sees
  have still : (predicateName next).next.exhausted = false := (predicateName_steady next).trans awake
  exact named.next ((arguments_writes levels seen still).bind fun _ _ _ => close_writes _ _ opener)

private theorem missingKind_writes (sees : Sees ahead cursor) : missingKind.Writes room cursor (detailShape true) := by
  refine .looking sees fun next sees _ => ?_
  split
  next same =>
    obtain ⟨later, rfl⟩ := List.head?_eq_some_iff.mp same
    exact (Writes.take sees).weaken fun _ single => .inr (mem_oneOf.mpr ⟨_, by decide, single⟩)
  next same =>
    obtain ⟨later, rfl⟩ := List.head?_eq_some_iff.mp same
    exact (string_writes sees).weaken fun _ single => .inr (mem_oneOf.mpr ⟨_, by decide, single⟩)
  next => exact (Writes.pure sees ()).weaken fun _ => .inl

private theorem subtype_writes (sees : Sees ahead cursor) : subtype.Writes room cursor (detailShape false) :=
  .takingIf sees (fun _ _ _ sees => .takingOptional sees fun _ => reportHere_writes _)
    (fun _ sees _ => (Writes.pure sees ()).weaken fun _ => .inl)
    fun _ detailed => .inr (append_mem (mem_char.mpr rfl) detailed)

private theorem kindDetail_writes (name : String) (sees : Sees ahead cursor) :
    (kindDetail name).Writes room cursor (detailShape (name = "MISSING")) := by
  unfold kindDetail
  split
  next missing =>
    rw [decide_eq_true missing]
    exact missingKind_writes sees
  next other =>
    rw [decide_eq_false other]
    exact subtype_writes sees

/-- An error stands only where no level is left, and in place of a pattern. -/
def CutOff (room : Nat) (tree : Tree) : Prop :=
  ∀ inside, tree = .node .error inside → room = 0 ∧ opensPattern inside = true

/-- A reading of patterns that may nest `room` levels deep. -/
structure Nests (inner : Reading Unit) (room : Nat) : Prop where
  pattern : ∀ {kind ahead cursor}, Sees (kind :: ahead) cursor → kind.startsPattern = true →
    inner.Writes room cursor (oneOf patternKinds)
  value : ∀ {kind ahead cursor}, Sees (kind :: ahead) cursor → kind.startsValue = true →
    inner.Writes room cursor (oneOf (.node .error :: valueKinds)) ∧ inner.Each (CutOff room) cursor

def fieldValue (inner : Reading Unit) : Reading Unit := do
  if (← current).any TokenKind.startsValue then inner

def fieldBody (inner : Reading Unit) : Reading Unit := do
  take
  expect .colon
  take
  fieldValue inner

/-- What a named node holds after its opener. -/
def namedBody (inner : Reading Unit) (opener : Span) : Reading Unit := do
  let name ← currentText
  take
  kindDetail name
  items inner
  close .parenClose .unclosedNode opener
  suffix

section Nested

variable {inner : Reading Unit} (nests : Nests inner room)
include nests

private theorem item_writes (sees : Sees (kind :: ahead) cursor) : (item inner kind).Writes room cursor (oneOf itemKinds) := by
  unfold item
  split
  · exact (negatedField_writes sees).among (by decide)
  · exact (Writes.take sees).among (by decide)
  · exact (detachedCapture_writes sees).among (by decide)
  · split
    next starts =>
      refine (nests.pattern sees starts).weaken (oneOf_mono fun kind known => ?_)
      exact List.mem_append_right [.node .negatedField, .token .dot, .node .capture] known
    next other =>
      exact (unexpected_writes _ sees fun _ => Bool.eq_false_iff.mpr other).among (by decide)

private theorem body_writes (closer : TokenKind) (unclosed : Diagnostic.Kind) (opener : Span) (sees : Sees ahead cursor) :
    (do items inner; close closer unclosed opener; suffix : Reading Unit).Writes room cursor (bodyShape closer) :=
  (Writes.repeatWhile (nextMember_writes fun sees _ => item_writes nests sees) sees).bind fun _ _ _ sees =>
    (close_writes closer unclosed opener sees).bind fun _ _ _ => suffix_writes

private theorem enclosed_writes (closer : TokenKind) (unclosed : Diagnostic.Kind) (sees : Sees (kind :: ahead) cursor) :
    (do let opener ← currentSpan; take; items inner; close closer unclosed opener; suffix : Reading Unit).Writes
      room cursor (token kind * bodyShape closer) :=
  .asking sees fun opener _ sees _ => .taking sees fun _ sees _ => body_writes nests closer unclosed opener sees

private theorem grouping_writes (sees : Sees (.parenOpen :: ahead) cursor) :
    (grouping inner).Writes (room + 1) cursor (node .grouping) := by
  have inside := enclosed_writes nests .parenClose .unclosedNode sees.unplaced
  exact .node sees sees.awake inside ⟨inside.fits, nofun, fun _ => Nat.succ_pos room, nofun, nofun, nofun⟩

private theorem list_writes (sees : Sees (.bracketOpen :: ahead) cursor) :
    (list inner).Writes (room + 1) cursor (node .list) := by
  have inside := enclosed_writes nests .bracketClose .unclosedList sees.unplaced
  exact .node sees sees.awake inside ⟨inside.fits, nofun, fun _ => Nat.succ_pos room, nofun, nofun, nofun⟩

private theorem fieldValue_writes (sees : Sees ahead cursor) :
    (fieldValue inner).Writes room cursor (maybe (oneOf (.node .error :: valueKinds))) := by
  refine .looking sees fun next sees _ => ?_
  split
  next here =>
    obtain ⟨kind, first, starts⟩ := Option.any_eq_true _ _ |>.mp here
    obtain ⟨later, rfl⟩ := List.head?_eq_some_iff.mp first
    exact (nests.value sees starts).1.weaken fun _ => .inr
  next => exact (Writes.pure sees ()).weaken fun _ => .inl

private theorem fieldValue_cutOff (sees : Sees ahead cursor) : (fieldValue inner).Each (CutOff room) cursor := by
  refine .looking sees fun next sees => ?_
  split
  next here =>
    obtain ⟨kind, first, starts⟩ := Option.any_eq_true _ _ |>.mp here
    obtain ⟨later, rfl⟩ := List.head?_eq_some_iff.mp first
    exact (nests.value sees starts).2
  next => exact .none rfl

private theorem fieldDefinition_writes (sees : Sees (.identifier :: .colon :: ahead) cursor) :
    (fieldDefinition inner).Writes (room + 1) cursor (node .fieldDefinition) := by
  have inside : (fieldBody inner).Writes room { cursor with waiting := [] } (shape false .fieldDefinition) :=
    .taking sees.unplaced fun _ sees _ => .expecting sees fun _ sees => .taking sees fun _ sees _ =>
      fieldValue_writes nests sees
  have cutOff : (fieldBody inner).Each (CutOff room) { cursor with waiting := [] } :=
    .taking (fun _ => nofun) sees.unplaced fun _ sees => .expecting sees fun _ sees =>
      .taking (fun _ => nofun) sees fun _ sees => fieldValue_cutOff nests sees
  refine .node sees sees.awake inside ⟨inside.fits, nofun, fun _ => Nat.succ_pos room, nofun, nofun, fun _ inside member => ?_⟩
  obtain ⟨rfl, opens⟩ := cutOff _ member inside rfl
  exact ⟨rfl, opens⟩

private theorem namedBody_writes (opener : Span) (sees : Sees (kind :: ahead) cursor)
    (names : kind = .identifier ∨ kind = .underscore) : ∃ missing,
      (namedBody inner opener).Writes room cursor (oneOf [.token .identifier, .token .underscore] *
        (detailShape missing * bodyShape .parenClose)) ∧ readsMissing (namedBody inner opener cursor).trees = missing := by
  obtain ⟨blanks, token, placed, blank, same, _, first⟩ := take_places sees.skip
  have name : (currentText cursor).value = token.text := by
    rw [Cursor.skip_twice] at first
    change (cursor.skip.rest.head?.map Token.text).getD "" = token.text
    rw [first]
    rfl
  have known : .token kind ∈ [Kind.token .identifier, .token .underscore] := by
    rcases names with rfl | rfl <;> decide
  refine ⟨decide (token.text = "MISSING"), .after rfl ⟨id, id⟩ ?_, ?_⟩
  · rw [name]
    exact ((Writes.take sees.skip).among known).bind fun _ _ _ sees => (kindDetail_writes token.text sees).bind
      fun _ _ _ => body_writes nests _ _ opener
  · have trees : ∃ rest, (namedBody inner opener cursor).trees = (take cursor.skip).trees ++ rest := ⟨_, rfl⟩
    obtain ⟨rest, split⟩ := trees
    rw [split, placed, List.append_assoc, readsMissing_blanks blank]
    exact readsMissing_token (same ▸ names) rest

/-- The name is the first token that can be one. -/
private theorem namedNode_writes (sees : Sees (.parenOpen :: kind :: ahead) cursor)
    (names : kind = .identifier ∨ kind = .underscore) : (namedNode inner).Writes (room + 1) cursor (node .namedNode) := by
  let start := { cursor with waiting := [] }
  have opened : Sees (.parenOpen :: kind :: ahead) start.skip := sees.unplaced.skip
  obtain ⟨blanks, token, placed, blank, same, _⟩ := take_places opened
  obtain ⟨missing, named, reads⟩ := namedBody_writes nests start.skip.span (take_sees opened).1 names
  let body : Reading Unit := do
    let opener ← currentSpan
    take
    namedBody inner opener
  have inside : body.Writes room start (shape missing .namedNode) := .after rfl ⟨id, id⟩ ((Writes.take opened).next named)
  refine .node sees sees.awake inside ⟨?_, nofun, fun _ => Nat.succ_pos room, nofun, nofun, nofun⟩
  have whole : readsMissing (body start).trees = missing := by
    change readsMissing ((take start.skip).trees ++ (namedBody inner start.skip.span (take start.skip).next).trees) = missing
    rw [placed, List.append_assoc, readsMissing_blanks blank]
    exact (readsMissing_opener same _).trans reads
  exact whole.symm ▸ inside.fits

private theorem namedNodeOrGrouping_writes (sees : Sees (.parenOpen :: kind :: ahead) cursor)
    (names : kind = .identifier ∨ kind = .underscore) :
    (namedNodeOrGrouping inner).Writes (room + 1) cursor (oneOf valueKinds) := by
  refine .glancing 2 sees fun next sees => ?_
  split
  · exact (grouping_writes nests sees).among (by decide)
  · exact (namedNode_writes nests sees names).among (by decide)

private theorem parenthesized_writes (sees : Sees (.parenOpen :: ahead) cursor) :
    (parenthesized inner).Writes (room + 1) cursor (oneOf valueKinds) := by
  refine .glancing 1 sees fun next sees => ?_
  rw [List.getElem?_cons_succ, ← List.head?_eq_getElem?]
  split
  next same =>
    obtain ⟨later, rfl⟩ := List.head?_eq_some_iff.mp same
    exact (predicate_writes (Nat.succ_pos room) sees).among (by decide)
  next same =>
    obtain ⟨later, rfl⟩ := List.head?_eq_some_iff.mp same
    exact namedNodeOrGrouping_writes nests sees (.inl rfl)
  next same =>
    obtain ⟨later, rfl⟩ := List.head?_eq_some_iff.mp same
    exact namedNodeOrGrouping_writes nests sees (.inr rfl)
  next => exact (grouping_writes nests sees).among (by decide)

private theorem construct_value (sees : Sees (kind :: ahead) cursor) (starts : kind.startsValue = true) :
    (construct inner).Writes (room + 1) cursor (oneOf valueKinds) := by
  refine .looking sees fun next sees _ => ?_
  cases kind with
  | parenOpen => exact parenthesized_writes nests sees
  | bracketOpen => exact (list_writes nests sees).among (by decide)
  | doubleQuote =>
    exact (anonymousNode_writes sees (.inl rfl)).among (by decide)
  | underscore =>
    exact (anonymousNode_writes sees (.inr rfl)).among (by decide)
  | _ => cases starts

private theorem construct_pattern (sees : Sees (kind :: ahead) cursor) (starts : kind.startsPattern = true) :
    (construct inner).Writes (room + 1) cursor (oneOf patternKinds) := by
  by_cases valued : kind.startsValue = true
  · refine (construct_value nests sees valued).weaken (oneOf_mono fun kind known => ?_)
    exact List.mem_append_right [.node .error, .node .fieldDefinition] known
  obtain rfl : kind = .identifier := by
    cases kind with
    | identifier => rfl
    | parenOpen | bracketOpen | doubleQuote | underscore => exact absurd rfl valued
    | _ => cases starts
  refine .looking sees fun next sees _ => .glancing 1 sees fun next sees => ?_
  rw [List.getElem?_cons_succ, ← List.head?_eq_getElem?]
  split
  next colon =>
    obtain ⟨later, rfl⟩ := List.head?_eq_some_iff.mp colon
    exact (fieldDefinition_writes nests sees).among (by decide)
  next =>
    have error : bareIdentifier.Writes (room + 1) next (node .error) := bareIdentifier_writes sees nofun
    exact error.among (by decide)

omit nests in
private theorem nested_writes {part : RegularExpression Kind} (sees : Sees ahead cursor)
    (inside : ∀ {cursor}, Sees ahead cursor → (construct inner).Writes (room + 1) cursor part) :
    (nested inner).Writes (room + 1) cursor part := by
  refine .after rfl ⟨id, id⟩ ?_
  exact (inside (sees.noted 0 _)).idle fun _ next _ sees => .silent rfl (sees.noted 0 next.fault) ⟨id, id⟩

private theorem nested_nests : Nests (unlessExhausted (nested inner)) (room + 1) := by
  refine ⟨fun sees starts => ?_, fun {kind ahead cursor} sees starts => ?_⟩
  · exact .unlessExhausted sees.awake (nested_writes sees fun sees => construct_pattern nests sees starts)
  · have writes : (unlessExhausted (nested inner)).Writes (room + 1) cursor (oneOf valueKinds) :=
      .unlessExhausted sees.awake (nested_writes sees fun sees => construct_value nests sees starts)
    refine ⟨writes.weaken (oneOf_mono fun _ => List.mem_cons_of_mem _), fun tree member inside same => ?_⟩
    obtain ⟨kind, known, single⟩ := mem_oneOf.mp writes.fits
    have listed : .node .error ∈ row (unlessExhausted (nested inner) cursor).trees :=
      mem_row (same ▸ member) rfl
    rw [single] at listed
    cases List.mem_singleton.mp listed
    exact absurd known (by decide)

end Nested

theorem swallow_leaves (cursor : Cursor) : (repeatWhile swallow).Each (∃ token, · = .leaf token) cursor := by
  refine .repeatWhile (fun cursor => .bind (.none rfl) ?_) cursor
  split
  · exact .none rfl
  · exact .bind (.take fun token => ⟨token, rfl⟩) (.none rfl)

/-- Swallowing ends where nothing is left, whatever happened before. -/
theorem swallow_finishes (blank : ∀ token ∈ cursor.waiting, token.isTrivia = true) :
    (repeatWhile swallow).Ensures cursor fun _ next =>
      solidKinds next.rest = [] ∧ ∀ token ∈ next.waiting, token.isTrivia = true := by
  refine Ensures.repeatWhile (fun cursor => ∀ token ∈ cursor.waiting, token.isTrivia = true) ?_ blank
  intro cursor blank
  have looked : atEnd.Ensures cursor fun ended next => ended = next.rest.isEmpty ∧ next = cursor.skip := ⟨rfl, rfl⟩
  refine looked.bind ?_
  rintro ended _ ⟨rfl, rfl⟩
  cases left : cursor.skip.rest with
  | nil => exact ⟨congrArg solidKinds left, Cursor.skip_blank blank⟩
  | cons token rest =>
    have taken : take.Ensures cursor.skip fun _ next => next.rest = rest ∧ next.waiting = [] := by
      rw [Ensures, take_token ((Cursor.skip_twice cursor).trans left)]
      exact ⟨rfl, rfl⟩
    refine taken.bind fun _ next after => ?_
    obtain ⟨same, placed⟩ := after
    have unplaced : ∀ token ∈ next.waiting, token.isTrivia = true := by
      rw [placed]
      intro token member
      cases member
    have suffix : token :: rest <:+ cursor.rest := left ▸ List.dropWhile_suffix _
    have shorter : next.rest.length < cursor.rest.length := same ▸ suffix.length_le
    exact ⟨unplaced, shorter⟩

/-- What is swallowed is all that is ahead. -/
theorem swallow_row (blank : ∀ token ∈ cursor.waiting, token.isTrivia = true) :
    ∃ tokens : List Token, (repeatWhile swallow cursor).trees = tokens.map .leaf ∧
      solids tokens = solids cursor.rest := by
  have leaves : (repeatWhile swallow cursor).trees ∈ Set.range (List.map Tree.leaf) := by
    rw [Set.range_list_map]
    intro tree member
    obtain ⟨token, rfl⟩ := swallow_leaves cursor tree member
    exact ⟨token, rfl⟩
  obtain ⟨tokens, same⟩ := leaves
  have kept := keeps.repeatWhile keeps.swallow cursor
  rw [Keeps, ← same, Tree.leavesOf_tokens] at kept
  obtain ⟨ended, last⟩ := swallow_finishes blank
  have none : solids (repeatWhile swallow cursor).next.rest = [] := List.map_eq_nil_iff.mp ended
  have solids := congrArg solids kept
  simp only [solids_append, solids_blank blank, solids_blank last, none, List.nil_append, List.append_nil] at solids
  exact ⟨tokens, same.symm, solids.symm⟩

/-- All that is ahead goes into one error, and nothing is left. -/
private theorem giveUp_writes (sees : Sees (kind :: ahead) cursor) (starts : kind.startsPattern = true) :
    giveUp.Writes 0 cursor (node .error) ∧ giveUp.Each (CutOff 0) cursor := by
  -- Reading is exhausted from here on, so that what is known of the tokens ahead no longer helps: the error
  -- is described by what it swallows.
  let start : Cursor := { cursor.skip.skip with waiting := [], exhausted := true }
  have begins : Sees (kind :: ahead) cursor.skip.skip := sees.skip.skip
  have unplaced : ∀ token ∈ start.waiting, token.isTrivia = true := nofun
  obtain ⟨tokens, leaves, same⟩ := swallow_row unplaced
  obtain ⟨ended, blank⟩ := swallow_finishes unplaced
  have worse : Worsens start (repeatWhile swallow start).next := worsens.repeatWhile worsens.swallow start
  have trees : (giveUp cursor).trees = cursor.skip.skip.waiting.map .leaf ++ [.node .error (tokens.map .leaf)] :=
    leaves ▸ rfl
  have inside : row (tokens.map .leaf) = .token kind :: ahead.map .token := by
    rw [row_tokens, ← solids_kinds, same]
    exact congrArg _ begins.kinds
  have opens : opensPattern (tokens.map .leaf) = true := by
    rw [opensPattern, inside]
    exact starts
  have fits : row (tokens.map .leaf) ∈ (shape false .error).matches' := by
    rw [inside]
    refine append_mem (mem_oneOf.mpr ⟨_, begins.solid List.mem_cons_self, rfl⟩) (mem_many.mpr fun other member => ?_)
    obtain ⟨one, among, rfl⟩ := List.mem_map.mp member
    exact begins.solid (List.mem_cons_of_mem _ among)
  refine ⟨⟨?_, ?_, ⟨[], ended, blank, fun _ => rfl⟩, ⟨worse.reported, fun _ => worse.exhausted rfl⟩, fun spent => ?_⟩, ?_⟩
  · rw [trees, row_append, row_blanks begins.blank]
    rfl
  · rw [trees]
    apply (Formed.leaves _).append
    refine .node ⟨fits, nofun, nofun, nofun, fun _ => .inl ⟨⟨rfl, opens⟩, worse.exhausted rfl, rfl⟩, nofun⟩ (.leaves tokens) .nil
  · cases sees.awake.symm.trans spent
  · intro tree member inner same
    rw [trees] at member
    rcases List.mem_append.mp member with before | here
    · obtain ⟨token, _, rfl⟩ := List.mem_map.mp before
      cases same
    · cases (List.mem_singleton.mp here).symm.trans same
      exact ⟨rfl, opens⟩

private theorem giveUp_nests : Nests (unlessExhausted giveUp) 0 := by
  refine ⟨fun sees starts => ?_, fun {kind ahead cursor} sees valued => ?_⟩
  · exact (Writes.unlessExhausted sees.awake (giveUp_writes sees starts).1).among (by decide)
  · have starts : kind.startsPattern = true := by
      cases kind with
      | parenOpen | bracketOpen | doubleQuote | underscore => rfl
      | _ => cases valued
    obtain ⟨writes, cutOff⟩ := giveUp_writes sees starts
    have same : unlessExhausted giveUp cursor = giveUp cursor := if_neg (by rw [sees.awake]; exact Bool.false_ne_true)
    refine ⟨(Writes.unlessExhausted sees.awake writes).among (by decide), ?_⟩
    rwa [Each, same]

private theorem pattern_nests (room : Nat) : Nests (pattern room) room := by
  induction room with
  | zero => exact giveUp_nests
  | succ room ih => exact nested_nests ih

variable {limit : Nat}

private theorem topLevel_writes (sees : Sees (kind :: ahead) cursor) :
    (topLevel limit (some kind)).Writes limit cursor (oneOf (.node .capture :: patternKinds)) := by
  unfold topLevel
  split
  next same =>
    cases same
    exact (detachedCapture_writes sees).among (by decide)
  next =>
    split
    next starts => exact ((pattern_nests limit).pattern sees starts).weaken (oneOf_mono fun _ => List.mem_cons_of_mem _)
    next other => exact (unexpected_writes _ sees fun _ => Bool.eq_false_iff.mpr other).among (by decide)

theorem nextTopLevel_writes (sees : Sees ahead cursor) :
    (nextTopLevel limit).Writes limit cursor (many (.node .capture :: patternKinds)) := by
  refine .ending sees fun next sees _ => ?_
  cases ahead with
  | nil => exact (Writes.pure sees false).weaken nil_many
  | cons kind ahead =>
    refine .looking sees fun next sees _ => ?_
    exact ((topLevel_writes sees).idle fun _ _ _ sees => .pure sees true).weaken oneOf_many

private theorem program_writes (limit : Nat) (tokens : List Token) :
    (program limit).Writes limit (.start tokens) (node .program) := by
  have sees : Sees (solidKinds tokens) (.start tokens) := ⟨rfl, nofun, nofun⟩
  refine .plain rfl nofun sees rfl ((Writes.repeatWhile nextTopLevel_writes sees.unplaced).idle fun _ next _ sees => ?_)
  refine .after rfl ⟨id, id⟩ ?_
  have blank := row_blanks sees.skip.blank
  exact ⟨blank, .leaves _, ⟨_, sees.skip.unplaced⟩, ⟨id, id⟩, fun _ => blank⟩

end Parser

/-- What the cursor knows to have been reported was reported before or is now. -/
structure Told (cursor : Cursor) (_ : List Tree) (reports : List Report) (next : Cursor) : Prop where
  reported : next.reported.isSome = true → cursor.reported.isSome = true ∨ reports ≠ []
  exhausted : next.exhausted = true → cursor.exhausted = true ∨ reports ≠ []

private theorem told : Law Told where
  stay _ := ⟨.inl, .inl⟩
  chain first second := by
    refine ⟨fun noted => ?_, fun deep => ?_⟩
    · rcases second.reported noted with before | now
      · exact (first.reported before).imp_right (List.append_ne_nil_of_left_ne_nil · _)
      · exact .inr (List.append_ne_nil_of_right_ne_nil _ now)
    · rcases second.exhausted deep with before | now
      · exact (first.exhausted before).imp_right (List.append_ne_nil_of_left_ne_nil · _)
      · exact .inr (List.append_ne_nil_of_right_ne_nil _ now)
  note _ _ _ _ := ⟨.inl, .inl⟩
  skip _ := ⟨.inl, .inl⟩
  place _ := ⟨.inl, .inl⟩
  token _ _ _ _ _ _ := ⟨.inl, .inl⟩
  around _ _ _ _ _ _ inside := ⟨inside.reported, inside.exhausted⟩
  found _ _ _ _ := ⟨fun _ => .inr nofun, .inl⟩
  last _ _ _ _ := ⟨.inl, fun _ => .inr nofun⟩

/-- All nodes of a parsed text are well made, and where there is an error there is a report. -/
theorem parse_formed (limit : Nat) (source : String) :
    Formed ((parse limit source).reports ≠ []) limit ((parse limit source).reports ≠ []) [(parse limit source).tree] := by
  have formed := (Parser.program_writes limit (Token.ofText source)).formed
  have noted := told.program limit (.start (Token.ofText source))
  refine formed.weaken (fun reported => ?_) (fun exhausted => ?_)
  · exact (noted.reported reported).resolve_left nofun
  · exact (noted.exhausted exhausted).resolve_left nofun

end TreeQuery.Syntax
