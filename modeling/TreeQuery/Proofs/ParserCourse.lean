import TreeQuery.Proofs.ParserPairs
import TreeQuery.Proofs.ReadingCourse

/-! The grammar follows courses, whatever text it is given. A list of members is read up to a closer or to the end
of the text, so that a construct without a closer is always followed by one of these. -/

namespace TreeQuery.Syntax
open Text (Span)
open Diagnostic (Report)

/-- What places a token moves on. -/
private theorem Course.moves {outer : Bool} {cursor next : Cursor} {trees : List Tree} {reports : List Report}
    {ahead : List TokenKind}
    (course : Course outer cursor trees reports next) (sees : Sees ahead cursor)
    (filled : solidKinds (Tree.leavesOf trees) ≠ []) :
    next.rest.length < cursor.rest.length := by
  obtain ⟨later, seen⟩ := course.sees sees
  have kept := congrArg solidKinds (keeps.course course)
  simp only [solidKinds_append, solidKinds_blank sees.blank, solidKinds_blank seen.blank, List.nil_append] at kept
  have forward := advances.course course
  refine Nat.lt_of_le_of_ne forward.length_le fun same => filled ?_
  rw [forward.eq_of_length same] at kept
  exact List.append_left_eq_self.mp kept.symm

namespace Parser
open Reading

variable {outer : Bool} {kind : TokenKind} {ahead : List TokenKind} {cursor : Cursor}

private theorem report_unplaced (found : Report) (cursor : Cursor) : report found { cursor with waiting := [] } =
    ⟨(), [], (report found cursor).reports, { (report found cursor).next with waiting := [] }⟩ := by
  unfold report
  split <;> rfl

/-- What is ahead is skipped, be it reported again or not. -/
private theorem skip_reported {found : Report} (about : found.kind = .unexpectedToken ∨ found.kind = .bareIdentifier)
    (span : found.span = cursor.span) (sees : Sees (kind :: ahead) cursor) (abuts : Abuts cursor)
    (stray : kind.isCloser = true → outer = true) : (do report found; skipToken : Reading Unit).Runs outer cursor := by
  obtain ⟨token, rest, first, rfl, _⟩ := Cursor.first sees.kinds
  have solid : token.isTrivia = false := Cursor.skip_solid first
  have left : cursor.rest = token :: rest := by rwa [abuts.skip_eq] at first
  let told := report found cursor
  obtain ⟨unread, unplaced⟩ : told.next.rest = cursor.rest ∧ told.next.waiting = cursor.waiting := by
    change (report found cursor).next.rest = _ ∧ (report found cursor).next.waiting = _
    unfold report
    split <;> exact ⟨rfl, rfl⟩
  have still : Abuts told.next := by rwa [Abuts, unread]
  let bare : Cursor := { told.next with waiting := [] }
  have blank : bare.skip = bare := Abuts.skip_eq still
  have taken : take bare = ⟨(), [.leaf token], [], { bare.past token rest with looks := 0 }⟩ := by
    rw [take_token (by rw [blank]; exact unread.trans left), blank]
    rfl
  have skipped : skipToken told.next = node .error take told.next := by
    have going : told.next.skip.rest.isEmpty = false := by rw [still.skip_eq, unread, left]; rfl
    change (if told.next.skip.rest.isEmpty = true then pure () else node .error take : Reading Unit) told.next.skip = _
    rw [going, still.skip_eq]
    rfl
  have course : Course outer { cursor with waiting := [] } [.node .error [.leaf token]]
    (report found { cursor with waiting := [] }).reports
      ((report found { cursor with waiting := [] }).next.past token rest) :=
    @Course.skipped outer { cursor with waiting := [] } token rest rfl left solid stray found about span
  rw [report_unplaced] at course
  have whole := (Course.place cursor).chain (course.chain (.note (bare.past token rest) 0 bare.fault fun _ => rfl))
  change Course outer cursor (told.trees ++ (skipToken told.next).trees) (told.reports ++ (skipToken told.next).reports)
    (skipToken told.next).next
  rw [skipped, report_quiet, node, unplaced]
  change Course outer cursor ([] ++ (cursor.waiting.map .leaf ++ [.node .error (take bare).trees]))
    (told.reports ++ (take bare).reports) (take bare).next
  rw [taken]
  exact whole

private theorem unexpected_runs (wanted : String) (sees : Sees (kind :: ahead) cursor)
    (stray : kind.isCloser = true → outer = true) :
    (unexpected wanted).Runs outer cursor :=
  .asking sees fun sees abuts => skip_reported (.inl rfl) rfl sees abuts stray

private theorem bareIdentifier_runs (sees : Sees (.identifier :: ahead) cursor) : bareIdentifier.Runs outer cursor := by
  rw [bareIdentifier, reportHere, bind_assoc]
  exact .asking sees fun sees abuts => skip_reported (.inr rfl) rfl sees abuts (absurd · Bool.false_ne_true)

private theorem capture_runs (sees : Sees (.atSign :: ahead) cursor) : capture.Runs outer cursor := by
  refine .node rfl (.taking sees.unplaced rfl fun next sees => .adjoining sees fun found sees near => ?_)
  split
  next named =>
    obtain ⟨later, rfl⟩ := near _ named rfl
    exact .take sees rfl
  next => exact .pure ()

private theorem detachedCapture_runs (sees : Sees (.atSign :: ahead) cursor) : detachedCapture.Runs outer cursor := by
  refine .asking sees fun sees abuts => runs_marked rfl sees abuts rfl fun next sees => ?_
  refine .after (.look next) .adjacent ?_
  change Marks outer _ (if next.rest.head?.map Token.kind = some .identifier then _ else _) next.look
  split
  next named =>
    obtain ⟨token, first, named⟩ := Option.map_eq_some_iff.mp named
    obtain ⟨rest, left⟩ := List.head?_eq_some_iff.mp first
    have known : Sees (.identifier :: solidKinds rest) next.look := by
      have kinds := sees.kinds
      rw [left] at kinds
      have same : ahead = .identifier :: solidKinds rest :=
        kinds.symm.trans (by simp [solidKinds, Token.isTrivia, named, TokenKind.isTrivia])
      exact same ▸ sees.look
    exact .after (.skip _) (.ask _) (.after (.take known.skip rfl) .take (.report (.inr rfl) rfl))
  next => exact .inl (.pure ())

private theorem quantifier_runs (sees : Sees ahead cursor) : quantifier.Runs outer cursor := by
  refine .looking sees fun next sees _ => ?_
  split
  next here =>
    obtain ⟨kind, first, quantifies⟩ := Option.any_eq_true _ _ |>.mp here
    obtain ⟨later, rfl⟩ := List.head?_eq_some_iff.mp first
    have word : kind.isWord = true := by
      cases kind with
      | star | plus | question => rfl
      | _ => cases quantifies
    exact .node rfl (.take sees.unplaced word)
  next => exact .pure ()

private theorem nextCapture_runs (sees : Sees ahead cursor) : nextCapture.Runs outer cursor := by
  refine .looking sees fun next sees _ => ?_
  split
  next here =>
    obtain ⟨later, rfl⟩ := List.head?_eq_some_iff.mp here
    exact (capture_runs sees).next (.pure true)
  next => exact .pure false

private theorem suffix_runs (sees : Sees ahead cursor) : suffix.Runs outer cursor :=
  .bind sees (quantifier_runs sees) fun _ _ _ sees => .repeatWhile nextCapture_runs sees

/-- Neither a quantifier nor a capture begins with what ends a list. -/
private theorem suffix_idles (sees : Sees ahead cursor) (abuts : Abuts cursor) (ends : Ends ahead) : suffix.Idles () cursor := by
  have first : cursor.rest.head?.map Token.kind = ahead.head? := by
    rw [← abuts.skip_eq]
    exact Cursor.head?_kind sees.kinds
  have looked (looks : Nat) (fault : Option Fault) : current.Idles ahead.head? { cursor with looks, fault } :=
    first ▸ Idles.current (show Abuts { cursor with looks, fault } from abuts)
  have unquantified : ahead.head?.any TokenKind.isQuantifier ≠ true := by
    intro quantifies
    obtain ⟨kind, here, quantifies⟩ := Option.any_eq_true _ _ |>.mp quantifies
    have closes := ends kind here
    cases kind <;> simp_all [TokenKind.isQuantifier, TokenKind.isCloser]
  have uncaptured : ahead.head? ≠ some .atSign := fun here => absurd (ends _ here) Bool.false_ne_true
  have unmarked : quantifier.Idles () cursor := by
    refine .bind (looked cursor.looks cursor.fault) fun looks fault => ?_
    rw [if_neg unquantified]
    exact .pure ()
  refine unmarked.bind fun looks fault => .repeatWhile (.bind (looked looks fault) fun looks fault => ?_)
  rw [if_neg uncaptured]
  exact .pure false

private theorem stringContent_runs (sees : Sees ahead cursor) : stringContent.Runs outer cursor := by
  refine .adjoining sees fun found sees near => ?_
  split
  next here =>
    obtain ⟨later, rfl⟩ := near _ here rfl
    exact .take sees rfl
  next => exact .pure ()

private theorem closingQuote_marks {opener : Span} {offset : Nat} (start : opener.start = offset) (sees : Sees ahead cursor) :
    (closingQuote opener).Marks outer offset cursor := by
  refine .after (.look cursor) .adjacent ?_
  change Marks outer _ (if cursor.rest.head?.map Token.kind = some .doubleQuote then _ else _) cursor.look
  split
  next quote =>
    obtain ⟨token, first, quote⟩ := Option.map_eq_some_iff.mp quote
    obtain ⟨rest, left⟩ := List.head?_eq_some_iff.mp first
    have known : Sees (.doubleQuote :: solidKinds rest) cursor.look := by
      have kinds := sees.kinds
      rw [left] at kinds
      have same : ahead = .doubleQuote :: solidKinds rest :=
        kinds.symm.trans (by simp [solidKinds, Token.isTrivia, quote, TokenKind.isTrivia])
      exact same ▸ sees.look
    exact .inl (.take known rfl)
  next => exact .report (.inl rfl) start

private theorem string_runs (sees : Sees (.doubleQuote :: ahead) cursor) (abuts : Abuts cursor) : string.Runs outer cursor := by
  rw [Runs, string, node_opened (fun opener => do take; stringContent; closingQuote opener) abuts]
  refine runs_marked rfl sees abuts rfl fun next sees => ?_
  have content : stringContent.Runs outer next := stringContent_runs sees
  obtain ⟨later, seen⟩ := content.sees sees
  exact .after content stringContent_silent (closingQuote_marks rfl seen)

private theorem negatedField_runs (sees : Sees (.bang :: ahead) cursor) : negatedField.Runs outer cursor :=
  .node rfl (.takingWord sees.unplaced rfl fun _ sees => .takingIf sees rfl (fun _ _ _ => .of_runs (.pure ()))
    fun _ _ => .missing rfl)

private theorem stringOrWildcard_runs (sees : Sees (kind :: ahead) cursor) (begins : kind = .doubleQuote ∨ kind = .underscore) :
    stringOrWildcard.Runs outer cursor := by
  refine .takingIf sees rfl (fun _ _ _ => .of_runs (.pure ())) fun next sees abuts other => ?_
  obtain rfl : kind = .doubleQuote := begins.resolve_right fun same => other (congrArg some same)
  exact string_runs sees abuts

private theorem anonymousNode_runs (sees : Sees (kind :: ahead) cursor) (begins : kind = .doubleQuote ∨ kind = .underscore) :
    anonymousNode.Runs outer cursor :=
  .node rfl (.bind sees.unplaced (stringOrWildcard_runs sees.unplaced begins) fun _ _ _ => suffix_runs)

private theorem missingKind_runs (sees : Sees ahead cursor) : missingKind.Runs outer cursor := by
  refine .looking sees fun next sees abuts => ?_
  split
  next same =>
    obtain ⟨later, rfl⟩ := List.head?_eq_some_iff.mp same
    exact .take sees rfl
  next same =>
    obtain ⟨later, rfl⟩ := List.head?_eq_some_iff.mp same
    exact string_runs sees abuts
  next => exact .pure ()

private theorem subtype_runs (sees : Sees ahead cursor) : subtype.Runs outer cursor :=
  .takingIf sees rfl (fun _ _ sees => .takingIf sees rfl (fun _ _ _ => .of_runs (.pure ())) fun _ _ => .missing rfl)
    fun _ _ _ _ => .pure ()

private theorem kindDetail_runs (name : String) (sees : Sees ahead cursor) : (kindDetail name).Runs outer cursor := by
  unfold kindDetail
  split
  · exact missingKind_runs sees
  · exact subtype_runs sees

private theorem predicateMark_resumes (sees : Sees ahead cursor) : predicateMark.Resumes outer cursor :=
  .takingIf sees rfl (fun _ _ _ => .of_runs (.pure ())) fun _ sees =>
    .takingIf sees rfl (fun _ _ _ => .of_runs (.pure ())) fun _ _ => .missing rfl

private theorem predicateName_resumes (sees : Sees ahead cursor) : predicateName.Resumes outer cursor :=
  .takingIf sees rfl (fun _ _ => predicateMark_resumes) fun _ _ => .missing rfl

/-- Members are read up to what ends the list. Each of them places a token. -/
private theorem members_finish {member : TokenKind → Reading Unit}
    (runs : ∀ {kind ahead cursor}, Sees (kind :: ahead) cursor → Abuts cursor → kind.isCloser = false →
      (member kind).Runs false cursor)
    (fills : ∀ {kind cursor}, Ahead cursor → cursor.exhausted = false → (member kind).Fills cursor) (sees : Sees ahead cursor) :
    (Reading.repeatWhile (nextMember member)).Finishes cursor := by
  have once {ahead : List TokenKind} {cursor : Cursor} (sees : Sees ahead cursor) : (nextMember member).Runs false cursor := by
    refine .looking sees fun next sees abuts => ?_
    cases ahead with
    | nil => exact .pure false
    | cons kind ahead =>
      change Runs false (if kind.isCloser = true then pure false else do member kind; pure true) next
      split
      · exact .pure false
      · exact (runs sees abuts (Bool.eq_false_iff.mpr ‹_›)).next (.pure true)
  refine ⟨.repeatWhile once sees, ?_⟩
  have ended : (Reading.repeatWhile (nextMember member)).Ensures cursor fun _ next => Ends (solidKinds next.rest) := by
    refine .repeatWhile (fun cursor => ∃ ahead, Sees ahead cursor) ?_ ⟨ahead, sees⟩
    rintro cursor ⟨ahead, sees⟩
    have looked : current.Ensures cursor fun found next => found = ahead.head? ∧ next = cursor.look.skip :=
      ⟨Cursor.head?_kind sees.look.kinds, rfl⟩
    refine looked.bind ?_
    rintro _ _ ⟨rfl, rfl⟩
    have next := sees.look.skip
    cases ahead with
    | nil =>
      change Ends (solidKinds cursor.look.skip.rest)
      rw [next.kinds]
      exact nofun
    | cons kind ahead =>
      change Ensures (if kind.isCloser = true then pure false else do member kind; pure true) cursor.look.skip _
      split
      next closes =>
        change Ends (solidKinds cursor.look.skip.rest)
        rw [next.kinds]
        rintro _ ⟨⟩
        exact closes
      next other =>
        have placed := runs next (.skip _) (Bool.eq_false_iff.mpr other)
        have filled : (member kind).Fills cursor.look.skip := fills (Cursor.ahead next.kinds) next.awake
        have shorter : (cursor.look.skip).rest.length ≤ cursor.rest.length := by
          obtain ⟨fault, same⟩ := cursor.look_eq
          rw [same]
          exact (List.dropWhile_suffix _).length_le
        exact ⟨placed.sees next, Nat.lt_of_lt_of_le (Course.moves placed next filled) shorter⟩
  exact ended

private theorem argument_runs (sees : Sees (kind :: ahead) cursor) (abuts : Abuts cursor) (inner : kind.isCloser = false) :
    (argument kind).Runs outer cursor := by
  unfold argument
  split
  · exact capture_runs sees
  · exact string_runs sees abuts
  · exact .take sees rfl
  · exact .take sees rfl
  · exact unexpected_runs _ sees fun closer => absurd (inner.symm.trans closer) Bool.false_ne_true

private theorem argument_fills (kind : TokenKind) (ahead : Ahead cursor) : (argument kind).Fills cursor := by
  unfold argument
  split
  · exact (capture_enters ahead).fills
  · exact (string_enters ahead).fills
  · exact .take ahead
  · exact .take ahead
  · exact (unexpected_enters _ ahead).fills

private theorem arguments_finish (sees : Sees ahead cursor) : arguments.Finishes cursor :=
  .node rfl (members_finish argument_runs (fun ahead _ => argument_fills _ ahead) sees.unplaced)

private theorem predicate_runs (sees : Sees (.parenOpen :: .sharp :: ahead) cursor) (abuts : Abuts cursor) :
    predicate.Runs outer cursor := by
  let inside : Reading Unit := do
    (do expect .sharp; take; predicateName : Reading Unit)
    arguments
  have whole : predicate = node .predicate (do
      let opener ← currentSpan
      take
      inside
      close Brackets.round.closer Brackets.round.unclosed opener
      pure ()) := by
    simp only [inside, bind_assoc, bind_pure_unit]
    rfl
  rw [whole]
  refine runs_delimited rfl (fun _ => .pure ()) (fun _ _ _ => .pure ()) sees abuts fun next sees => ?_
  have named : (do expect .sharp; take; predicateName : Reading Unit).Runs false next :=
    .expecting sees fun _ sees => .takingWord sees rfl fun _ => predicateName_resumes
  exact .bind sees named fun _ _ _ => arguments_finish

section Nested

variable {inner : Reading Unit}
  (runs : ∀ {outer kind ahead cursor}, Sees (kind :: ahead) cursor → kind.startsPattern = true → inner.Runs outer cursor)
  (fills : ∀ {cursor}, Ahead cursor → cursor.exhausted = false → inner.Fills cursor)
include runs

private theorem item_runs (sees : Sees (kind :: ahead) cursor) (inside : kind.isCloser = false) :
    (item inner kind).Runs outer cursor := by
  unfold item
  split
  · exact negatedField_runs sees
  · exact .take sees rfl
  · exact detachedCapture_runs sees
  · split
    next starts => exact runs sees starts
    next => exact unexpected_runs _ sees fun closer => absurd (inside.symm.trans closer) Bool.false_ne_true

include fills

private theorem items_finish (sees : Sees ahead cursor) : (items inner).Finishes cursor :=
  members_finish (fun sees _ inside => item_runs runs sees inside)
    (fun ahead awake => item_fills _ (fills ahead awake) ahead) sees

private theorem namedNode_runs (sees : Sees (.parenOpen :: kind :: ahead) cursor) (abuts : Abuts cursor)
    (names : kind = .identifier ∨ kind = .underscore) : (namedNode inner).Runs outer cursor := by
  let named : Reading Unit := do
    let name ← currentText
    take
    kindDetail name
  have whole : namedNode inner = node .namedNode (do
      let opener ← currentSpan
      take
      (do named; items inner : Reading Unit)
      close Brackets.round.closer Brackets.round.unclosed opener
      suffix) := by
    simp only [named, bind_assoc]
    rfl
  have word : kind.isWord = true := by rcases names with rfl | rfl <;> rfl
  rw [whole]
  refine runs_delimited rfl suffix_runs suffix_idles sees abuts
    fun next sees => .bind sees ?_ fun _ _ _ => items_finish runs fills
  exact .asking sees fun sees _ => .taking sees word fun _ sees => kindDetail_runs _ sees

private theorem grouping_runs (sees : Sees (.parenOpen :: ahead) cursor) (abuts : Abuts cursor) :
    (grouping inner).Runs outer cursor :=
  @runs_delimited _ _ _ .grouping .round _ _ rfl suffix_runs suffix_idles sees abuts fun _ => items_finish runs fills

private theorem list_runs (sees : Sees (.bracketOpen :: ahead) cursor) (abuts : Abuts cursor) : (list inner).Runs outer cursor :=
  @runs_delimited _ _ _ .list .square _ _ rfl suffix_runs suffix_idles sees abuts fun _ => items_finish runs fills

omit fills in
private theorem fieldDefinition_runs (sees : Sees (.identifier :: .colon :: ahead) cursor) :
    (fieldDefinition inner).Runs outer cursor := by
  refine .node rfl (.taking sees.unplaced rfl fun _ sees => .expecting sees fun _ sees => .taking sees rfl fun _ sees =>
    .looking sees fun next sees _ => ?_)
  split
  next here =>
    obtain ⟨kind, first, starts⟩ := Option.any_eq_true _ _ |>.mp here
    obtain ⟨later, rfl⟩ := List.head?_eq_some_iff.mp first
    refine runs sees ?_
    cases kind with
    | parenOpen | bracketOpen | doubleQuote | underscore => rfl
    | _ => cases starts
  next => exact .pure ()

private theorem namedNodeOrGrouping_runs (sees : Sees (.parenOpen :: kind :: ahead) cursor)
    (names : kind = .identifier ∨ kind = .underscore) : (namedNodeOrGrouping inner).Runs outer cursor := by
  refine .glancing 2 sees fun next sees abuts => ?_
  split
  · exact grouping_runs runs fills sees abuts
  · exact namedNode_runs runs fills sees abuts names

private theorem parenthesized_runs (sees : Sees (.parenOpen :: ahead) cursor) : (parenthesized inner).Runs outer cursor := by
  refine .glancing 1 sees fun next sees abuts => ?_
  rw [List.getElem?_cons_succ, ← List.head?_eq_getElem?]
  split
  next same =>
    obtain ⟨later, rfl⟩ := List.head?_eq_some_iff.mp same
    exact predicate_runs sees abuts
  next same =>
    obtain ⟨later, rfl⟩ := List.head?_eq_some_iff.mp same
    exact namedNodeOrGrouping_runs runs fills sees (.inl rfl)
  next same =>
    obtain ⟨later, rfl⟩ := List.head?_eq_some_iff.mp same
    exact namedNodeOrGrouping_runs runs fills sees (.inr rfl)
  next => exact grouping_runs runs fills sees abuts

private theorem construct_runs (sees : Sees (kind :: ahead) cursor) (starts : kind.startsPattern = true) :
    (construct inner).Runs outer cursor := by
  refine .looking sees fun next sees abuts => ?_
  cases kind with
  | parenOpen => exact parenthesized_runs runs fills sees
  | bracketOpen => exact list_runs runs fills sees abuts
  | doubleQuote => exact anonymousNode_runs sees (.inl rfl)
  | underscore => exact anonymousNode_runs sees (.inr rfl)
  | identifier =>
    refine .glancing 1 sees fun next sees _ => ?_
    rw [List.getElem?_cons_succ, ← List.head?_eq_getElem?]
    split
    next colon =>
      obtain ⟨later, rfl⟩ := List.head?_eq_some_iff.mp colon
      exact fieldDefinition_runs runs sees
    next => exact bareIdentifier_runs sees
  | _ => cases starts

private theorem nested_runs (sees : Sees (kind :: ahead) cursor) (starts : kind.startsPattern = true) :
    (nested inner).Runs outer cursor := by
  have rested (cursor : Cursor) : (move Cursor.rested).Runs outer cursor := .note cursor 0 cursor.fault fun _ => rfl
  have within : (construct inner).Runs outer cursor.rested := construct_runs runs fills (sees.noted 0 _) starts
  exact (rested cursor).next (within.next (rested _))

end Nested

private theorem giveUp_runs (sees : Sees (kind :: ahead) cursor) : giveUp.Runs outer cursor := by
  refine .asking sees fun sees _ => .asking sees fun sees abuts => ?_
  rw [Cursor.skip_skip] at sees abuts ⊢
  let start : Cursor := { cursor.skip with waiting := [] }
  let found := Report.of .nestingTooDeep ⟨cursor.skip.offset, cursor.skip.stop⟩
  let swallowed := Reading.repeatWhile swallow { start with exhausted := true }
  have ahead : start.rest ≠ [] := by
    have more : Ahead start := Cursor.ahead sees.kinds
    rwa [Ahead, Abuts.skip_eq (show Abuts start from abuts)] at more
  have course : Course outer start [.node .error swallowed.trees] [found] swallowed.next :=
    @Course.givenUp outer start rfl abuts ahead sees.awake found rfl rfl
  have quiet : swallowed.reports = [] := (Silent.repeatWhile swallow_silent).quiet _
  have whole := (Course.place cursor.skip).chain course
  change Course outer cursor.skip (cursor.skip.waiting.map .leaf ++ [.node .error swallowed.trees])
    (found :: swallowed.reports) swallowed.next
  rw [quiet]
  exact whole

private theorem pattern_runs (room : Nat) (sees : Sees (kind :: ahead) cursor) (starts : kind.startsPattern = true) :
    (pattern room).Runs outer cursor := by
  induction room generalizing outer kind ahead cursor with
  | zero => exact .unlessExhausted sees.awake (giveUp_runs sees)
  | succ room ih =>
    exact .unlessExhausted sees.awake
      (nested_runs (fun sees starts => ih sees starts) (pattern_fills room) sees starts)

private theorem topLevel_runs (limit : Nat) (sees : Sees (kind :: ahead) cursor) :
    (topLevel limit (some kind)).Runs true cursor := by
  unfold topLevel
  split
  next same =>
    cases same
    exact detachedCapture_runs sees
  next =>
    split
    next starts => exact pattern_runs limit sees starts
    next => exact unexpected_runs _ sees fun _ => rfl

private theorem nextTopLevel_runs (limit : Nat) (sees : Sees ahead cursor) : (nextTopLevel limit).Runs true cursor := by
  refine .ending sees fun next sees _ => ?_
  cases ahead with
  | nil => exact .pure false
  | cons kind ahead => exact .looking sees fun next sees _ => (topLevel_runs limit sees).next (.pure true)

private theorem program_runs (limit : Nat) (tokens : List Token) : (program limit).Runs true (.start tokens) := by
  have sees : Sees (solidKinds tokens) (.start tokens) := ⟨rfl, nofun, nofun⟩
  have items : (Reading.repeatWhile (nextTopLevel limit)).Runs true (.start tokens) :=
    .repeatWhile (nextTopLevel_runs limit) sees
  have placed (cursor : Cursor) : placeWaiting.Runs true cursor := .place cursor
  have skipped (cursor : Cursor) : (move Cursor.skip).Runs true cursor := .skip cursor
  exact .node rfl (items.next ((skipped _).next (placed _)))

end Parser

/-- A parsed text is a course past all its tokens. -/
theorem parse_course (limit : Nat) (source : String) : ∃ next, next.rest = [] ∧ next.waiting = [] ∧
    Course true (.start (Token.ofText source)) [(parse limit source).tree] (parse limit source).reports next := by
  obtain ⟨_, ended, placed⟩ := Parser.program_ends limit (Token.ofText source)
  exact ⟨_, ended, placed, Parser.program_runs limit (Token.ofText source)⟩

end TreeQuery.Syntax
