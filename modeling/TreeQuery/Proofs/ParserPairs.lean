import TreeQuery.Proofs.ReadingPairs

/-! Two runs of the parser side by side, production by production. -/

namespace TreeQuery.Syntax

namespace Parser
open Reading

variable {cursor : Cursor}

private theorem current_ahead {kind : TokenKind} (found : (current cursor).value = some kind) : Ahead cursor := by
  intro ended
  obtain ⟨fault, look⟩ := cursor.look_eq
  have rest : cursor.look.skip.rest = [] := by rwa [look]
  have none : (current cursor).value = Option.none := congrArg (fun rest => rest.head?.map Token.kind) rest
  cases found.symm.trans none

private theorem current_awake {cursor : Cursor} : (current cursor).next.exhausted = cursor.exhausted := by
  obtain ⟨fault, look⟩ := cursor.look_eq
  change cursor.look.exhausted = cursor.exhausted
  rw [look]

private theorem nextCapture_fills (again : (nextCapture cursor).value = true) : nextCapture.Fills cursor := by
  by_cases found : (current cursor).value = some .atSign
  · refine .next ?_
    rw [if_pos found]
    exact .bind (capture_enters (current_ahead found).look.skip).fills
  · change Step.value ((if (current cursor).value = some .atSign then _ else _ : Reading Bool) _) = true at again
    rw [if_neg found] at again
    cases again

private theorem nextMember_fills {member : TokenKind → Reading Unit} {kind : TokenKind}
    (found : (current cursor).value = some kind)
    (more : kind.isCloser = false) (fills : (member kind).Fills (current cursor).next) :
    (nextMember member).Fills cursor := by
  refine .next ?_
  rw [found]
  change Reading.Fills (if kind.isCloser = true then pure false else do member kind; pure true) _
  rw [more]
  exact .bind fills

private theorem bind_value {α β : Type} (first : Reading α) (second : α → Reading β) (cursor : Cursor) :
    ((first >>= second) cursor).value = (second (first cursor).value (first cursor).next).value := rfl

/-- The step goes on only from a token that is no closer. -/
private theorem nextMember_again {member : TokenKind → Reading Unit} (again : (nextMember member cursor).value = true) :
    ∃ kind, (current cursor).value = some kind ∧ kind.isCloser = false := by
  rw [nextMember, bind_value] at again
  cases found : (current cursor).value with
  | none =>
    rw [found] at again
    cases again
  | some kind =>
    refine ⟨kind, rfl, Bool.eq_false_iff.mpr fun closer => ?_⟩
    rw [found] at again
    change Step.value ((if kind.isCloser = true then pure false else do member kind; pure true : Reading Bool) _) = true at again
    rw [closer] at again
    cases again

theorem item_fills {inner : Reading Unit} (kind : TokenKind) (fills : inner.Fills cursor) (ahead : Ahead cursor) :
    (item inner kind).Fills cursor := by
  unfold item
  split
  · exact (negatedField_enters ahead).fills
  · exact .take ahead
  · exact (detachedCapture_enters ahead).fills
  · split
    · exact fills
    · exact (unexpected_enters _ ahead).fills

section Inside

variable {inner : Reading Unit} {opener next : TokenKind} {ahead : List TokenKind}
  (kinds : solidKinds cursor.rest = opener :: next :: ahead)
include kinds

private theorem namedNode_uses : (namedNode inner).Uses 2 cursor := by
  let begun : Cursor := { cursor with waiting := [] }.skip
  have skipped : solidKinds begun.rest = opener :: next :: ahead := (solidKinds_dropWhile _).trans kinds
  refine .node (.asking fun _ => (?_ : Uses (1 + 1) _ _))
  refine .bind (Fills.take (Cursor.ahead skipped)).uses ?_
  have later := (take_passes skipped).1
  exact .asking fun _ => Fills.uses (.bind (.take (Cursor.ahead later).skip))

/-- A group of items places its opener and the first token of a pattern in it. -/
private theorem grouping_uses (starts : next.startsPattern = true) (awake : cursor.exhausted = false)
    (fills : ∀ {cursor}, Ahead cursor → cursor.exhausted = false → inner.Fills cursor) :
    (grouping inner).Uses 2 cursor := by
  let begun : Cursor := { cursor with waiting := [] }.skip
  have skipped : solidKinds begun.rest = opener :: next :: ahead := (solidKinds_dropWhile _).trans kinds
  refine .node (.asking fun _ => (?_ : Uses (1 + 1) _ _))
  refine .bind (Fills.take (Cursor.ahead skipped)).uses ?_
  obtain ⟨later, still⟩ := take_passes skipped
  change Uses 1 _ (take begun).next
  generalize (take begun).next = inside at later still
  have looked : solidKinds inside.look.rest = next :: ahead := by
    obtain ⟨_, look⟩ := inside.look_eq
    rw [look, later]
  have found : (current inside).value = some next := Cursor.head?_kind looked
  have more : next.isCloser = false := by
    cases next <;> simp_all [TokenKind.startsPattern, TokenKind.isCloser]
  have within := (Cursor.ahead later).look.skip
  exact Fills.uses (.bind (.repeatWhile (nextMember_fills found more
    (item_fills next (fills within (current_awake.trans (still.trans awake))) within))))

private theorem namedNodeOrGrouping_uses (starts : next.startsPattern = true) (awake : cursor.exhausted = false)
    (fills : ∀ {cursor}, Ahead cursor → cursor.exhausted = false → inner.Fills cursor) :
    (namedNodeOrGrouping inner).Uses 2 cursor := by
  obtain ⟨_, look⟩ := cursor.look_eq
  have looked : solidKinds cursor.look.skip.rest = opener :: next :: ahead :=
    (solidKinds_dropWhile _).trans (by rw [look]; exact kinds)
  have still : cursor.look.skip.exhausted = false := by rw [look]; exact awake
  change Uses 2 (if _ then grouping inner else namedNode inner) cursor.look.skip
  split
  · exact grouping_uses looked starts still fills
  · exact namedNode_uses looked

end Inside

private theorem nextTopLevel_ahead {limit : Nat} (again : (nextTopLevel limit cursor).value = true) : Ahead cursor := by
  intro ended
  have finished : cursor.skip.rest.isEmpty = true := by simp [ended]
  change Step.value ((if cursor.skip.rest.isEmpty = true then _ else _ : Reading Bool) _) = true at again
  rw [finished] at again
  cases again

theorem nextTopLevel_fills {limit : Nat} (ahead : Ahead cursor) (awake : cursor.exhausted = false) :
    (nextTopLevel limit).Fills cursor := by
  have more : cursor.skip.rest.isEmpty = false := by simpa [Ahead] using ahead
  obtain ⟨_, look⟩ := cursor.skip.look_eq
  have still : cursor.skip.look.skip.exhausted = false := by rw [look]; exact awake
  change Reading.Fills (if cursor.skip.rest.isEmpty = true then pure false
    else do
      topLevel limit (← current)
      pure true) cursor.skip
  rw [more]
  exact .next (.bind (topLevel_fills _ ahead.skip.look.skip still))

end Parser

namespace Pairing
open Text (Span)
open Reading TreeQuery.Syntax.Parser Pairs

variable {pairing : Pairing} {kind : TokenKind} {ahead : List TokenKind} {here there : Cursor}

private theorem reportHere_pairs {found : Diagnostic.Kind} (shallow : found ≠ .nestingTooDeep)
    (both : pairing.At ahead here there) :
    pairing.Pairs (reportHere found) (reportHere found) here there :=
  .spanning both fun _ _ _ _ matching both => .report (.of found _) both.abreast shallow rfl matching

private theorem skipToken_pairs (both : pairing.At (kind :: ahead) here there) :
    pairing.Pairs skipToken skipToken here there := by
  refine .asking both fun moved => ?_
  have more : here.skip.rest.isEmpty = false := by simpa [Ahead] using both.here_ahead
  have more' : there.skip.rest.isEmpty = false := by simpa [Ahead] using both.there_ahead
  rw [more, more']
  exact .entering moved fun _ _ both => .take both

private theorem unexpected_pairs (wanted : String) (both : pairing.At (kind :: ahead) here there) :
    pairing.Pairs (unexpected wanted) (unexpected wanted) here there :=
  .spanning both fun span _ _ _ matching both =>
    .reporting ((Diagnostic.Report.of .unexpectedToken span).withDetail wanted) both nofun rfl matching
      fun _ _ both => skipToken_pairs both

private theorem bareIdentifier_pairs (both : pairing.At (kind :: ahead) here there) :
    pairing.Pairs bareIdentifier bareIdentifier here there := by
  change pairing.Pairs (currentSpan >>= fun span => do report (.of .bareIdentifier span); skipToken)
    (currentSpan >>= fun span => do report (.of .bareIdentifier span); skipToken) here there
  exact .spanning both fun span _ _ _ matching both =>
    .reporting (.of .bareIdentifier span) both nofun rfl matching fun _ _ both => skipToken_pairs both

private theorem close_pairs {closer : TokenKind} {unclosed : Diagnostic.Kind} {opener twin : Span}
    (shallow : unclosed ≠ .nestingTooDeep) (matching : pairing.matching opener twin) (both : pairing.At ahead here there) :
    pairing.Pairs (close closer unclosed opener) (close closer unclosed twin) here there := by
  refine .takingIf both (fun _ _ _ _ both => .pure both.abreast ()) fun _ _ _ both => ?_
  exact .report (.of unclosed opener) both.abreast shallow rfl matching

private theorem capture_pairs (both : pairing.At (.atSign :: ahead) here there) :
    pairing.Pairs capture capture here there := by
  refine .entering both fun _ _ both => .taking both fun _ _ both beside => ?_
  refine .adjoining .identifier rfl both (beside rfl) (fun _ _ _ both => ?_) fun _ _ _ _ found twin both _ => ?_
  · rw [if_pos rfl]
    exact .take both
  · rw [if_neg found, if_neg twin]
    exact .pure both.abreast ()

private theorem detachedCapture_pairs (both : pairing.At (.atSign :: ahead) here there) :
    pairing.Pairs detachedCapture detachedCapture here there := by
  refine .spanning both fun start twin _ _ starts both => .entering both fun _ _ both =>
    .taking both fun _ _ both beside => ?_
  refine .adjoining .identifier rfl both (beside rfl) (fun _ _ _ both => ?_) fun _ _ _ _ found twin both _ => ?_
  · rw [if_pos rfl, if_pos rfl]
    refine .spanning both fun name mate _ _ named both => .taking both fun _ _ both _ => ?_
    exact .report (.of .captureWithoutTarget ⟨start.start, name.stop⟩) both.abreast nofun rfl
      (pairing.joint starts named)
  · rw [if_neg found, if_neg twin]
    exact .pure both.abreast ()

private theorem quantifier_pairs (both : pairing.At ahead here there) : pairing.Pairs quantifier quantifier here there := by
  refine .looking both (fun here there both => ?_) fun kind here there _ past => ?_
  · cases ahead with
    | nil => exact .pure both.abreast ()
    | cons kind ahead =>
      change pairing.Pairs (if kind.isQuantifier = true then _ else _) (if kind.isQuantifier = true then _ else _) here there
      split
      · exact .entering both fun _ _ both => .take both
      · exact .pure both.abreast ()
  · have other : kind.isQuantifier = false := by
      have starts := past.starts
      cases kind <;> simp_all [TokenKind.startsPattern, TokenKind.isQuantifier]
    change pairing.Pairs _ (if kind.isQuantifier = true then _ else _) here there
    rw [other]
    exact .pure past.both.abreast ()

private theorem nextCapture_pairs (both : pairing.At ahead here there) : pairing.Pairs nextCapture nextCapture here there := by
  refine .looking both (fun here there both => ?_) fun kind here there _ past => ?_
  · split
    next found =>
      obtain ⟨rest, rfl⟩ := List.head?_eq_some_iff.mp found
      exact .bind (capture_pairs both) fun _ _ _ _ both => .pure both.abreast true
    next => exact .pure both.abreast false
  · have other : (some kind : Option TokenKind) ≠ some .atSign := by
      rintro ⟨⟩
      cases past.starts
    rw [if_neg (by simp), if_neg other]
    exact .pure past.both.abreast false

private theorem suffix_pairs (both : pairing.At ahead here there) : pairing.Pairs suffix suffix here there :=
  .bind (quantifier_pairs both) fun _ _ _ _ both =>
    .looping (fun law => law.nextCapture) (fun law => law.nextCapture) (fun _ _ _ both => nextCapture_pairs both)
      (fun _ _ => nextCapture_fills) (fun _ _ => nextCapture_fills) both.abreast

private theorem closingQuote_pairs {opener twin : Span} (matching : pairing.matching opener twin)
    (both : pairing.At ahead here there) (beside : Beside here there) :
    pairing.Pairs (closingQuote opener) (closingQuote twin) here there := by
  refine .adjoining .doubleQuote rfl both beside (fun _ _ _ both => ?_) fun _ _ _ _ found other both _ => ?_
  · rw [if_pos rfl, if_pos rfl]
    exact .take both
  · rw [if_neg found, if_neg other]
    exact .report (.of .unclosedString opener) both.abreast nofun rfl matching

private theorem string_pairs (both : pairing.At (.doubleQuote :: ahead) here there) :
    pairing.Pairs string string here there := by
  refine .entering both fun _ _ both => .spanning both fun opener twin _ _ matching both =>
    .taking both fun here there both beside => .assoc ?_
  refine .adjoining .stringContent rfl both (beside rfl) (fun _ _ _ both => ?_)
    fun _ _ _ _ found other both beside => ?_
  · rw [if_pos rfl]
    exact .taking both fun _ _ both beside => closingQuote_pairs matching both (beside rfl)
  · rw [if_neg found, if_neg other]
    exact closingQuote_pairs matching both beside

private theorem negatedField_pairs (both : pairing.At (kind :: ahead) here there) :
    pairing.Pairs negatedField negatedField here there :=
  .entering both fun _ _ both => .taking both fun _ _ both _ =>
    .takingIf both (fun _ _ _ _ both => .pure both.abreast ()) fun _ _ _ both => reportHere_pairs nofun both

private theorem anonymousNode_pairs (both : pairing.At (kind :: ahead) here there)
    (literal : kind = .doubleQuote ∨ kind = .underscore) :
    pairing.Pairs anonymousNode anonymousNode here there := by
  refine .entering both fun _ _ both => .bind ?_ fun _ _ _ _ both => suffix_pairs both
  refine .takingIf both (fun _ _ _ _ both => .pure both.abreast ()) fun _ _ other both => ?_
  obtain rfl : kind = .doubleQuote := literal.resolve_right fun wild => other (congrArg some wild)
  exact string_pairs both

private theorem argument_pairs (both : pairing.At (kind :: ahead) here there) :
    pairing.Pairs (argument kind) (argument kind) here there := by
  unfold argument
  split
  · exact capture_pairs both
  · exact string_pairs both
  · exact .take both
  · exact .take both
  · exact unexpected_pairs _ both

private theorem argument_fills {cursor : Cursor} (kind : TokenKind) (ahead : Ahead cursor) : (argument kind).Fills cursor := by
  unfold argument
  split
  · exact (capture_enters ahead).fills
  · exact (string_enters ahead).fills
  · exact .take ahead
  · exact .take ahead
  · exact (unexpected_enters _ ahead).fills

private theorem nextMember_pairs {member other : TokenKind → Reading Unit}
    (each : ∀ kind ahead here there, pairing.At (kind :: ahead) here there → pairing.Pairs (member kind) (other kind) here there)
    (fills : ∀ kind cursor, Ahead cursor → cursor.exhausted = false → (other kind).Fills cursor)
    (both : pairing.At ahead here there) : pairing.Pairs (nextMember member) (nextMember other) here there := by
  refine .looking both (fun here there both => ?_) fun kind here there _ past => ?_
  · cases ahead with
    | nil => exact .pure both.abreast false
    | cons kind ahead =>
      change pairing.Pairs (if kind.isCloser = true then _ else _) (if kind.isCloser = true then _ else _) here there
      split
      · exact .pure both.abreast false
      · exact .bind (each _ _ _ _ both) fun _ _ _ _ both => .pure both.abreast true
  · have other : ¬ kind.isCloser = true := by
      have starts := past.starts
      cases kind <;> simp_all [TokenKind.startsPattern, TokenKind.isCloser]
    change pairing.Pairs _ (if kind.isCloser = true then _ else _) here there
    rw [if_neg other]
    exact .past past (.bind (fills kind _ past.there_ahead past.awake))

private theorem members_pairs {member other : TokenKind → Reading Unit}
    (lawful : ∀ kind, (member kind).Lawful) (lawful_there : ∀ kind, (other kind).Lawful)
    (each : ∀ kind ahead here there, pairing.At (kind :: ahead) here there → pairing.Pairs (member kind) (other kind) here there)
    (fills : ∀ kind cursor, Ahead cursor → cursor.exhausted = false → (member kind).Fills cursor)
    (fills_there : ∀ kind cursor, Ahead cursor → cursor.exhausted = false → (other kind).Fills cursor)
    (abreast : pairing.abreast here there) :
    pairing.Pairs (Reading.repeatWhile (nextMember member)) (Reading.repeatWhile (nextMember other)) here there := by
  have entered {reading : TokenKind → Reading Unit} (cursor : Cursor)
      (each : ∀ kind cursor, Ahead cursor → cursor.exhausted = false → (reading kind).Fills cursor)
      (awake : Ahead cursor → cursor.exhausted = false) (again : (nextMember reading cursor).value = true) :
      (nextMember reading).Fills cursor := by
    obtain ⟨kind, found, more⟩ := nextMember_again again
    have ahead := current_ahead found
    exact nextMember_fills found more (each kind _ ahead.look.skip (current_awake.trans (awake ahead)))
  exact .looping (fun law => law.nextMember fun kind => lawful kind law)
    (fun law => law.nextMember fun kind => lawful_there kind law)
    (fun _ _ _ both => nextMember_pairs each fills_there both) (fun cursor => entered cursor fills)
    (fun cursor => entered cursor fills_there) abreast

private theorem arguments_pairs (abreast : pairing.abreast here there) (placed : Ahead here ∨ ¬ pairing.apart) :
    pairing.Pairs arguments arguments here there :=
  .node abreast placed (members_pairs (fun kind _ law => law.argument kind) (fun kind _ law => law.argument kind)
    (fun _ _ _ _ both => argument_pairs both) (fun kind _ ahead _ => argument_fills kind ahead)
    (fun kind _ ahead _ => argument_fills kind ahead) (pairing.unplaced abreast placed))

private theorem predicateMark_pairs (both : pairing.At ahead here there) :
    pairing.Pairs predicateMark predicateMark here there :=
  .takingIf both (fun _ _ _ _ both => .pure both.abreast ()) fun _ _ _ both =>
    .takingIf both (fun _ _ _ _ both => .pure both.abreast ()) fun _ _ _ both => reportHere_pairs nofun both

private theorem predicateName_pairs (both : pairing.At ahead here there) :
    pairing.Pairs predicateName predicateName here there :=
  .takingIf both (fun _ _ _ _ both => predicateMark_pairs both) fun _ _ _ both => reportHere_pairs nofun both

/-- Where nothing is left for the first run, it reports. -/
private theorem argumentsAndCloser_pairs {opener twin : Span} (matching : pairing.matching opener twin)
    (both : pairing.At ahead here there) :
    pairing.Pairs (do arguments; close .parenClose .unclosedNode opener)
      (do arguments; close .parenClose .unclosedNode twin) here there := by
  by_cases placed : Ahead here ∨ ¬ pairing.apart
  · exact .bind (arguments_pairs both.abreast placed) fun _ _ _ _ both => close_pairs nofun matching both
  · obtain ⟨ended, apart⟩ := not_or.mp placed
    have none : solidKinds here.rest = [] := by
      rw [← solidKinds_dropWhile]
      exact congrArg solidKinds (not_not.mp ended)
    exact .inr (pairing.unclosed both.abreast (not_not.mp apart) none)

private theorem predicate_pairs (both : pairing.At (.parenOpen :: .sharp :: ahead) here there) :
    pairing.Pairs predicate predicate here there := by
  refine .entering both fun _ _ both => .spanning both fun opener twin _ _ matching both => .taking both fun _ _ both _ => ?_
  refine .expecting both fun _ _ both => .taking both fun _ _ both _ => .bind (predicateName_pairs both) fun _ _ _ _ both => ?_
  exact argumentsAndCloser_pairs matching both

private theorem missingKind_pairs (both : pairing.At ahead here there) :
    pairing.Pairs missingKind missingKind here there := by
  refine .looking both (fun here there both => ?_) fun kind here there _ past => ?_
  · split
    next found =>
      obtain ⟨rest, rfl⟩ := List.head?_eq_some_iff.mp found
      exact .take both
    next found =>
      obtain ⟨rest, rfl⟩ := List.head?_eq_some_iff.mp found
      exact string_pairs both
    next => exact .pure both.abreast ()
  · change pairing.Pairs (Pure.pure ()) _ here there
    split
    next => exact .past past (.take past.there_ahead)
    next => exact .past past (string_enters past.there_ahead).fills
    next => exact .pure past.both.abreast ()

private theorem subtype_pairs (both : pairing.At ahead here there) : pairing.Pairs subtype subtype here there :=
  .takingIf both (fun _ _ _ _ both => .takingIf both (fun _ _ _ _ both => .pure both.abreast ())
    fun _ _ _ both => reportHere_pairs nofun both) fun _ _ _ both => .pure both.abreast ()

private theorem kindDetail_pairs (name : String) (both : pairing.At ahead here there) :
    pairing.Pairs (kindDetail name) (kindDetail name) here there := by
  unfold kindDetail
  split
  · exact missingKind_pairs both
  · exact subtype_pairs both

/-- What both runs read inside constructs. -/
structure Descends (pairing : Pairing) (inner other : Reading Unit) : Prop where
  pairs : ∀ {kind ahead here there}, pairing.At (kind :: ahead) here there → pairing.Pairs inner other here there
  lawful : inner.Lawful
  lawful_there : other.Lawful
  fills : ∀ {cursor}, Ahead cursor → cursor.exhausted = false → inner.Fills cursor
  fills_there : ∀ {cursor}, Ahead cursor → cursor.exhausted = false → other.Fills cursor

section Nested

variable {inner other : Reading Unit} (descends : Descends pairing inner other)
include descends

private theorem item_pairs (both : pairing.At (kind :: ahead) here there) :
    pairing.Pairs (item inner kind) (item other kind) here there := by
  unfold item
  split
  · exact negatedField_pairs both
  · exact .take both
  · exact detachedCapture_pairs both
  · split
    · exact descends.pairs both
    · exact unexpected_pairs _ both

private theorem items_pairs (abreast : pairing.abreast here there) : pairing.Pairs (items inner) (items other) here there :=
  members_pairs (fun _ _ law => law.item (descends.lawful law) _) (fun _ _ law => law.item (descends.lawful_there law) _)
    (fun _ _ _ _ both => item_pairs descends both)
    (fun kind _ ahead awake => item_fills kind (descends.fills ahead awake) ahead)
    (fun kind _ ahead awake => item_fills kind (descends.fills_there ahead awake) ahead) abreast

private theorem body_pairs {closer : TokenKind} {unclosed : Diagnostic.Kind} {opener twin : Span}
    (shallow : unclosed ≠ .nestingTooDeep) (matching : pairing.matching opener twin)
    (abreast : pairing.abreast here there) :
    pairing.Pairs (do items inner; close closer unclosed opener; suffix)
      (do items other; close closer unclosed twin; suffix) here there :=
  .bind (items_pairs descends abreast) fun _ _ _ _ both => .bind (close_pairs shallow matching both)
    fun _ _ _ _ both => suffix_pairs both

private theorem namedNode_pairs {name : TokenKind} (both : pairing.At (kind :: name :: ahead) here there) :
    pairing.Pairs (namedNode inner) (namedNode other) here there := by
  refine .entering both fun _ _ both => .spanning both fun opener twin _ _ matching both => .taking both fun _ _ both _ => ?_
  refine .reading_text both fun name _ _ both => .taking both fun _ _ both _ => ?_
  exact .bind (kindDetail_pairs name both) fun _ _ _ _ both => body_pairs descends nofun matching both.abreast

private theorem grouping_pairs (both : pairing.At (kind :: ahead) here there) :
    pairing.Pairs (grouping inner) (grouping other) here there :=
  .entering both fun _ _ both => .spanning both fun _ _ _ _ matching both => .taking both fun _ _ both _ =>
    body_pairs descends nofun matching both.abreast

private theorem list_pairs (both : pairing.At (kind :: ahead) here there) :
    pairing.Pairs (list inner) (list other) here there :=
  .entering both fun _ _ both => .spanning both fun _ _ _ _ matching both => .taking both fun _ _ both _ =>
    body_pairs descends nofun matching both.abreast

private theorem fieldDefinition_pairs (both : pairing.At (kind :: .colon :: ahead) here there) :
    pairing.Pairs (fieldDefinition inner) (fieldDefinition other) here there := by
  refine .entering both fun _ _ both => .taking both fun _ _ both _ => .expecting both fun _ _ both =>
    .taking both fun _ _ both _ => .looking both (fun here there both => ?_) fun next here there _ past => ?_
  · cases ahead with
    | nil => exact .pure both.abreast ()
    | cons next ahead =>
      change pairing.Pairs (if next.startsValue = true then _ else _) (if next.startsValue = true then _ else _) here there
      split
      · exact descends.pairs both
      · exact .pure both.abreast ()
  · change pairing.Pairs (Pure.pure ()) (if next.startsValue = true then _ else _) here there
    split
    · exact .past past (descends.fills_there past.there_ahead past.awake)
    · exact .pure past.both.abreast ()

omit descends in
/-- No other token can be found beyond the end than one that begins a pattern. -/
private theorem beyond_ne {n : Nat} (starts : kind.startsPattern = false) (within : n ≤ ahead.length) :
    (ahead ++ pairing.beyond)[n]? = some kind ↔ ahead[n]? = some kind := by
  rcases Nat.lt_or_eq_of_le within with shorter | rfl
  · rw [List.getElem?_append_left shorter]
  · rw [List.getElem?_append_right (Nat.le_refl _), Nat.sub_self, ← List.head?_eq_getElem?,
      List.getElem?_eq_none (Nat.le_refl _)]
    refine iff_of_false (fun next => ?_) nofun
    cases (pairing.opens kind next).symm.trans starts

private theorem namedNodeOrGrouping_pairs {name : TokenKind} (both : pairing.At (kind :: name :: ahead) here there) :
    pairing.Pairs (namedNodeOrGrouping inner) (namedNodeOrGrouping other) here there := by
  refine .peeking 2 both fun here there both => ?_
  have same : (kind :: name :: ahead ++ pairing.beyond)[2]? = some .colon ↔ (kind :: name :: ahead)[2]? = some .colon :=
    beyond_ne rfl (by simp)
  by_cases found : (kind :: name :: ahead)[2]? = some .colon
  · rw [if_pos found, if_pos (same.mpr found)]
    exact grouping_pairs descends both
  · rw [if_neg found, if_neg (mt same.mp found)]
    exact namedNode_pairs descends both

private theorem parenthesized_pairs (both : pairing.At (.parenOpen :: ahead) here there) :
    pairing.Pairs (parenthesized inner) (parenthesized other) here there := by
  refine .peeking 1 both fun here there both => ?_
  cases ahead with
  | cons second ahead =>
    have next : (TokenKind.parenOpen :: second :: ahead ++ pairing.beyond)[1]? = some second := rfl
    rw [next]
    cases second
    case sharp => exact predicate_pairs both
    case identifier | underscore => exact namedNodeOrGrouping_pairs descends both
    all_goals exact grouping_pairs descends both
  | nil => 
    have next : ([TokenKind.parenOpen] ++ pairing.beyond)[1]? = pairing.beyond.head? := (List.head?_eq_getElem? ..).symm
    rw [next]
    change pairing.Pairs (grouping inner) _ here there
    have astray {name : TokenKind} (named : pairing.beyond.head? = some name) :
        pairing.Pairs (grouping inner) (namedNodeOrGrouping other) here there := by
      obtain ⟨rest, same⟩ := List.head?_eq_some_iff.mp named
      exact .strayed both (by simp [same]) (namedNodeOrGrouping_uses
        (both.other.trans (congrArg _ same)) (pairing.opens name named)
        (pairing.awake_there both.abreast both.there_ahead) descends.fills_there)
    split
    next marked => cases pairing.opens _ marked
    next named => exact astray named
    next named => exact astray named
    next => exact grouping_pairs descends both

private theorem construct_pairs (both : pairing.At (kind :: ahead) here there) :
    pairing.Pairs (construct inner) (construct other) here there := by
  refine .looking both (fun here there both => ?_) fun _ _ _ none => nomatch none
  rw [List.head?_cons]
  split
  next opens =>
    obtain rfl := Option.some.inj opens
    exact parenthesized_pairs descends both
  next => exact list_pairs descends both
  next quoted => exact anonymousNode_pairs both (.inl (Option.some.inj quoted))
  next wild => exact anonymousNode_pairs both (.inr (Option.some.inj wild))
  next named =>
    obtain rfl := Option.some.inj named
    refine .peeking 1 both fun here there both => ?_
    have same : (.identifier :: ahead ++ pairing.beyond)[1]? = some .colon ↔
        (TokenKind.identifier :: ahead)[1]? = some .colon := beyond_ne rfl (by simp)
    by_cases divided : (TokenKind.identifier :: ahead)[1]? = some .colon
    · rw [if_pos divided, if_pos (same.mpr divided)]
      cases ahead with
      | nil => cases divided
      | cons second ahead =>
        obtain rfl := Option.some.inj divided
        exact fieldDefinition_pairs descends both
    · rw [if_neg divided, if_neg (mt same.mp divided)]
      exact bareIdentifier_pairs both
  next => exact unexpected_pairs _ both

private theorem nested_pairs (both : pairing.At (kind :: ahead) here there) :
    pairing.Pairs (nested inner) (nested other) here there :=
  .step (pairing.rest both.abreast) (.bind (construct_pairs descends both.rested) fun _ _ _ _ both =>
    .inl ⟨rfl, pairing.rest both.abreast⟩)

end Nested

private theorem pattern_pairs (room : Nat) (both : pairing.At (kind :: ahead) here there) :
    pairing.Pairs (pattern room) (pattern (room + pairing.deeper)) here there := by
  induction room generalizing kind ahead here there with
  | zero =>
    have awake := pairing.awake_here both.abreast both.here_ahead
    rw [Nat.zero_add, Pairs, stretch, pattern, unlessExhausted_awake awake]
    exact (pairing.limit both.abreast both.here_ahead awake).imp_left fun alike => ⟨rfl, alike⟩
  | succ room ih =>
    rw [Nat.add_right_comm]
    exact .awake (pairing.awake_here both.abreast both.here_ahead) (pairing.awake_there both.abreast both.there_ahead)
      (nested_pairs ⟨ih, fun law => law.pattern _, fun law => law.pattern _, pattern_fills _, pattern_fills _⟩ both)

private theorem topLevel_pairs (limit : Nat) (both : pairing.At (kind :: ahead) here there) :
    pairing.Pairs (topLevel limit (some kind)) (topLevel (limit + pairing.deeper) (some kind)) here there := by
  unfold topLevel
  split
  next same =>
    obtain rfl := Option.some.inj same
    exact detachedCapture_pairs both
  next =>
    split
    · exact pattern_pairs limit both
    · exact unexpected_pairs _ both

theorem nextTopLevel_pairs (limit : Nat) (both : pairing.At ahead here there) :
    pairing.Pairs (nextTopLevel limit) (nextTopLevel (limit + pairing.deeper)) here there := by
  refine .asking both fun moved => ?_
  cases ahead with
  | cons kind ahead =>
    have more : here.skip.rest.isEmpty = false := by simpa [Ahead] using both.here_ahead
    have more' : there.skip.rest.isEmpty = false := by simpa [Ahead] using both.there_ahead
    rw [more, more']
    refine .looking moved (fun _ _ both => ?_) fun _ _ _ none => by cases none
    exact .bind (topLevel_pairs limit both) fun _ _ _ _ both => .pure both.abreast true
  | nil =>
    have ended : here.skip.rest.isEmpty = true := by simpa using Cursor.ended both.kinds
    rw [ended]
    cases next : pairing.beyond.head? with
    | none =>
      have ended' : there.skip.rest.isEmpty = true := by
        simpa using Cursor.ended (both.other.trans (List.head?_eq_none_iff.mp next))
      rw [ended']
      exact .pure moved.abreast false
    | some kind =>
      have past : pairing.Past kind here there := ⟨both, next⟩
      exact .past ⟨moved, next⟩ (nextTopLevel_fills past.there_ahead past.awake)

/-- Two whole runs, but for the trivia at the end. -/
theorem queries_pairs (pairing : Pairing) (limit : Nat) (abreast : pairing.abreast here there) :
    pairing.Pairs (Reading.repeatWhile (nextTopLevel limit)) (Reading.repeatWhile (nextTopLevel (limit + pairing.deeper)))
      here there :=
  .looping (fun law => law.nextTopLevel limit) (fun law => law.nextTopLevel _) (fun _ _ _ both => nextTopLevel_pairs limit both)
    (fun _ awake again => nextTopLevel_fills (nextTopLevel_ahead again) (awake (nextTopLevel_ahead again)))
    (fun _ awake again => nextTopLevel_fills (nextTopLevel_ahead again) (awake (nextTopLevel_ahead again))) abreast

end Pairing

end TreeQuery.Syntax
