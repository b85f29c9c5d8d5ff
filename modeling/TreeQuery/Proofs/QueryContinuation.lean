import TreeQuery.Proofs.ParserPairs
import TreeQuery.Proofs.PhraseExtension
import TreeQuery.Proofs.QueryAcceptance
import TreeQuery.Proofs.ReadingShapes

/-! A query that goes on. A run that reports nothing and a run over more tokens go the same way, as long
as the second takes none of those that only it has ahead. -/

namespace TreeQuery.Syntax
open Text (Span)
open Diagnostic (Report)

theorem Cursor.skip_upcoming (cursor : Cursor) : cursor.skip.waiting ++ cursor.skip.rest = cursor.waiting ++ cursor.rest :=
  (keeps.skip cursor).symm

namespace Continued

/-- The second run has the same tokens ahead and then some more. Trivia that waits in the first waits in
the second after what is spare in it. -/
structure Abreast (more spare : List Token) (here there : Cursor) : Prop where
  awake : here.exhausted = false
  awake_there : there.exhausted = false
  unreported : here.reported = none
  unreported_there : there.reported = none
  blank : ∀ token ∈ here.waiting, token.isTrivia = true
  blank_there : ∀ token ∈ there.waiting, token.isTrivia = true
  spared : ∀ token ∈ spare, token.isTrivia = true
  upcoming : there.waiting ++ there.rest = spare ++ (here.waiting ++ here.rest) ++ more
  /-- Before a token both are at the same place in the trivia. -/
  level : Ahead here ∨ more = [] → there.rest = here.rest ++ more

/-- Both go the same way and report nothing. -/
structure Alike (more : List Token) (part mate : Stretch) : Prop where
  quiet : part.reports = []
  quiet_there : mate.reports = []
  kept : solidKinds part.before.rest = solidKinds (Tree.leavesOf part.trees) ++ solidKinds part.after.rest
  placed : ∃ spare left, Abreast more spare part.before mate.before ∧ Abreast more left part.after mate.after ∧
    (spare = [] → left = []) ∧ mate.trees ++ left.map .leaf = spare.map .leaf ++ part.trees

/-- The first reports something, or the second places more tokens than the first has ahead. -/
def Parted (part mate : Stretch) : Prop :=
  part.reports ≠ [] ∨ (solidKinds part.before.rest).length < (solidKinds (Tree.leavesOf mate.trees)).length

variable {more spare left : List Token} {here there : Cursor} {part mate further last : Stretch}

namespace Abreast

theorem kinds (abreast : Abreast more spare here there) : solidKinds there.rest = solidKinds here.rest ++ solidKinds more := by
  have same := congrArg solidKinds abreast.upcoming
  simpa only [solidKinds_append, solidKinds_blank abreast.blank, solidKinds_blank abreast.blank_there,
    solidKinds_blank abreast.spared, List.nil_append] using same

theorem waiting (abreast : Abreast more spare here there) (ahead : Ahead here ∨ more = []) :
    there.waiting = spare ++ here.waiting := by
  have same := abreast.upcoming
  rw [abreast.level ahead, ← List.append_assoc, ← List.append_assoc] at same
  exact List.append_cancel_right (List.append_cancel_right same)

/-- What is spare in the second run is told by the cursors. -/
theorem spare_unique (abreast : Abreast more spare here there) (other : Abreast more left here there) : spare = left := by
  have same := abreast.upcoming.symm.trans other.upcoming
  exact List.append_cancel_right (List.append_cancel_right same)

theorem skip (abreast : Abreast more spare here there) : Abreast more spare here.skip there.skip where
  awake := abreast.awake
  awake_there := abreast.awake_there
  unreported := abreast.unreported
  unreported_there := abreast.unreported_there
  blank := Cursor.skip_blank abreast.blank
  blank_there := Cursor.skip_blank abreast.blank_there
  spared := abreast.spared
  upcoming := by
    rw [Cursor.skip_upcoming, Cursor.skip_upcoming, abreast.upcoming]
  level ahead := by
    have ahead : Ahead here ∨ more = [] := ahead.imp_left fun ahead => by rwa [Ahead, Cursor.skip_twice] at ahead
    change there.rest.dropWhile _ = here.rest.dropWhile _ ++ more
    rw [abreast.level ahead]
    rcases ahead with ahead | rfl
    · rw [List.dropWhile_append, if_neg (by simpa [Ahead, Cursor.skip] using ahead)]
    · simp

private theorem noted (abreast : Abreast more spare here there) (looks others : Nat) (fault twin : Option Fault) :
    Abreast more spare { here with looks, fault } { there with looks := others, fault := twin } where
  awake := abreast.awake
  awake_there := abreast.awake_there
  unreported := abreast.unreported
  unreported_there := abreast.unreported_there
  blank := abreast.blank
  blank_there := abreast.blank_there
  spared := abreast.spared
  upcoming := abreast.upcoming
  level := abreast.level

private theorem look (abreast : Abreast more spare here there) : Abreast more spare here.look there.look := by
  obtain ⟨fault, look⟩ := here.look_eq
  obtain ⟨twin, mate⟩ := there.look_eq
  rw [look, mate]
  exact abreast.noted _ _ _ _

private theorem unplaced (abreast : Abreast more spare here there) (ahead : Ahead here ∨ more = []) :
    Abreast more [] here.unplaced there.unplaced where
  awake := abreast.awake
  awake_there := abreast.awake_there
  unreported := abreast.unreported
  unreported_there := abreast.unreported_there
  blank := nofun
  blank_there := nofun
  spared := nofun
  upcoming := abreast.level ahead
  level := abreast.level

/-- Both find the same token next. -/
private theorem first (abreast : Abreast more spare here there) (ahead : Ahead here) : ∃ token rest,
    here.skip.rest = token :: rest ∧ there.skip.rest = token :: (rest ++ more) := by
  obtain ⟨token, rest, next⟩ := List.exists_cons_of_ne_nil ahead
  refine ⟨token, rest, next, ?_⟩
  rw [abreast.skip.level (.inl ahead.skip), next, List.cons_append]

end Abreast

namespace Alike

private theorem onward (alike : Alike more part mate) : ∃ spare, Abreast more spare part.after mate.after := by
  obtain ⟨_, left, _, after, _⟩ := alike.placed
  exact ⟨left, after⟩

/-- A move of both that places nothing. -/
private theorem step (change : Cursor → Cursor) (kept : solidKinds (change here).rest = solidKinds here.rest)
    (before : Abreast more spare here there) (after : Abreast more spare (change here) (change there)) :
    Alike more (.moved change here) (.moved change there) :=
  ⟨rfl, rfl, kept.symm, spare, spare, before, after, id, by simp [Stretch.moved]⟩

private theorem take (abreast : Abreast more spare here there) (ahead : Ahead here) :
    Alike more (Reading.take.stretch here) (Reading.take.stretch there) := by
  obtain ⟨token, rest, next, twin⟩ := abreast.first ahead
  have waiting := abreast.skip.waiting (.inl ahead.skip)
  have solid := Cursor.skip_solid next
  have kept : solidKinds here.rest = token.kind :: solidKinds rest := by
    rw [← solidKinds_dropWhile]
    exact (congrArg solidKinds next).trans (by simp [solidKinds, solid])
  have placed : solidKinds (here.skip.waiting ++ [token]) = [token.kind] := by
    rw [solidKinds_append, solidKinds_blank abreast.skip.blank]
    simp [solidKinds, solid]
  rw [Reading.stretch, Reading.stretch, Reading.take_token next, Reading.take_token twin]
  refine ⟨rfl, rfl, ?_, spare, [], abreast, ?_, fun _ => rfl, ?_⟩
  · rw [Tree.leavesOf_tokens, placed]
    exact kept
  · exact ⟨abreast.awake, abreast.awake_there, abreast.unreported, abreast.unreported_there,
      List.forall_mem_nil _, List.forall_mem_nil _, List.forall_mem_nil _, rfl, fun _ => rfl⟩
  · simp [waiting]

private theorem chain (alike : Alike more part mate) (joint : part.after = further.before) (other : mate.after = last.before)
    (later : Alike more further last) : Alike more (part.extend further) (mate.extend last) := by
  obtain ⟨spare, left, before, between, none, placed⟩ := alike.placed
  obtain ⟨_, final, again, after, still, others⟩ := later.placed
  rw [← joint, ← other] at again
  obtain rfl := between.spare_unique again
  refine ⟨?_, ?_, ?_, spare, final, before, after, still ∘ none, ?_⟩
  · simp [Stretch.extend, alike.quiet, later.quiet]
  · simp [Stretch.extend, alike.quiet_there, later.quiet_there]
  · rw [Stretch.extend, Tree.leavesOf_append, solidKinds_append, alike.kept, joint, later.kept, List.append_assoc]
  · rw [Stretch.extend, Stretch.extend, List.append_assoc, others, ← List.append_assoc, placed, List.append_assoc]

private theorem around (kind : NodeKind) (abreast : Abreast more spare here there) (ahead : Ahead here ∨ more = [])
    (begun : part.before = here.unplaced) (begun_there : mate.before = there.unplaced) (alike : Alike more part mate) :
    Alike more (.around here kind part) (.around there kind mate) := by
  obtain ⟨_, left, before, after, none, placed⟩ := alike.placed
  rw [begun, begun_there] at before
  obtain rfl := before.spare_unique (abreast.unplaced ahead)
  obtain rfl := none rfl
  have kept : solidKinds here.rest = _ := begun ▸ alike.kept
  refine ⟨alike.quiet, alike.quiet_there, ?_, spare, [], abreast, after, fun _ => rfl, ?_⟩
  · rw [Stretch.around, Tree.leavesOf_append, solidKinds_append, Tree.leavesOf_tokens, solidKinds_blank abreast.blank]
    simpa [Tree.leavesOf, Tree.leaves] using kept
  · have same : mate.trees = part.trees := by simpa using placed
    simp [Stretch.around, same, abreast.waiting ahead]

/-- As many tokens are placed by both. -/
private theorem solids (alike : Alike more part mate) :
    solidKinds (Tree.leavesOf mate.trees) = solidKinds (Tree.leavesOf part.trees) := by
  obtain ⟨spare, left, before, after, _, placed⟩ := alike.placed
  have same := congrArg (solidKinds ∘ Tree.leavesOf) placed
  simpa [Tree.leavesOf_append, Tree.leavesOf_tokens, solidKinds_append, solidKinds_blank before.spared,
    solidKinds_blank after.spared] using same

end Alike

namespace Parted

private theorem later (parted : Parted part mate) : Parted (part.extend further) (mate.extend last) := by
  refine parted.imp (fun told => by simp [Stretch.extend, told]) fun stray => ?_
  rw [Stretch.extend, Stretch.extend, Tree.leavesOf_append, solidKinds_append, List.length_append]
  exact Nat.lt_add_right _ stray

private theorem lately (alike : Alike more part mate) (joint : part.after = further.before) (parted : Parted further last) :
    Parted (part.extend further) (mate.extend last) := by
  refine parted.imp (fun told => by simp [Stretch.extend, told]) fun stray => ?_
  rw [Stretch.extend, Stretch.extend, Tree.leavesOf_append, solidKinds_append, List.length_append, alike.solids,
    alike.kept, List.length_append, joint]
  exact Nat.add_lt_add_left stray _

private theorem within {kind other : NodeKind} (begun : part.before = here.unplaced) (parted : Parted part mate) :
    Parted (.around here kind part) (.around there other mate) := by
  refine parted.imp id fun stray => ?_
  rw [begun] at stray
  rw [Stretch.around, Stretch.around, Tree.leavesOf_append, solidKinds_append, List.length_append]
  refine Nat.lt_add_left _ (Nat.lt_of_lt_of_eq stray ?_)
  simp [Tree.leavesOf, Tree.leaves]

end Parted

end Continued

open Continued in
/-- A run over a text and a run over a longer one, which goes on with trivia and then with patterns. -/
def continued (more : List Token) (gap : ∀ token, more.head? = some token → token.isTrivia = true)
    (opens : ∀ kind, (solidKinds more).head? = some kind → kind.startsPattern = true) : Pairing where
  beyond := solidKinds more
  deeper := 0
  apart := more ≠ []
  abreast here there := ∃ spare, Abreast more spare here there
  matching _ _ := True
  alike := Alike more
  parted := Parted
  opens := opens
  kinds := fun ⟨_, abreast⟩ => abreast.kinds
  blank := fun ⟨_, abreast⟩ => ⟨abreast.blank, abreast.blank_there⟩
  deep := fun ⟨_, abreast⟩ => abreast.awake.trans abreast.awake_there.symm
  spent := fun ⟨_, abreast⟩ deep => nomatch abreast.awake.symm.trans deep
  text := by
    rintro here there ⟨_, abreast⟩ ahead
    obtain ⟨token, rest, next, twin⟩ := abreast.first ahead
    rw [next, twin]
    rfl
  span _ := trivial
  joint _ _ := trivial
  beside := by
    rintro here there kind ahead ⟨_, abreast⟩ kinds _ other solid
    obtain ⟨token, rest, next, twin⟩ := abreast.first (Cursor.ahead kinds)
    rw [Reading.take_token next, Reading.take_token twin]
    cases rest with
    | cons token rest => exact Iff.rfl
    | nil =>
      refine iff_of_false nofun fun found => ?_
      obtain ⟨first, head, rfl⟩ := Option.map_eq_some_iff.mp found
      cases solid.symm.trans (gap first head)
  onward alike := alike.onward
  still := fun ⟨_, abreast⟩ => .step id rfl abreast abreast
  chain := .chain
  look := by
    rintro here there ⟨_, abreast⟩
    obtain ⟨_, look⟩ := here.look_eq
    exact .step Cursor.look (by rw [look]) abreast abreast.look
  rest := fun ⟨_, abreast⟩ => .step _ rfl abreast (abreast.noted _ _ _ _)
  skip := fun ⟨_, abreast⟩ => .step Cursor.skip (solidKinds_dropWhile _) abreast abreast.skip
  take := fun ⟨_, abreast⟩ ahead => .take abreast ahead
  unplaced := fun ⟨_, abreast⟩ ahead => ⟨[], abreast.unplaced (ahead.imp_right not_not.mp)⟩
  around := fun ⟨_, abreast⟩ ahead begun begun_there alike =>
    .around _ abreast (ahead.imp_right not_not.mp) begun begun_there alike
  found := by
    rintro here there report span ⟨_, abreast⟩ _ _ _
    refine .inr (.inl ?_)
    simp [Reading.stretch, Reading.report, abreast.awake, abreast.unreported]
  limit _ _ _ := .inr (.inl nofun)
  stray _ _ stray := .inr stray
  unclosed := by
    rintro here opener mate ⟨_, abreast⟩ _ ended
    have none : words here.rest = [] := List.map_eq_nil_iff.mp ((words_kinds _).trans ended)
    refine .inl fun quiet => ?_
    obtain ⟨closing, members, _⟩ := (Parser.argumentsAndCloser_accepts opener here
      ⟨abreast.awake, abreast.unreported, none⟩).1 quiet
    have left := Phrase.steps_leave (fun _ _ => Phrase.argument_leaves) members.parts
    cases List.suffix_nil.mp left
  later := .later
  lately alike joint _ parted := .lately alike joint parted
  within begun _ parted := .within begun parted

/-- What comes last is a field definition without a value. -/
def LeavesBare (trees : List Tree) : Prop :=
  ∃ children, trees.getLast? = some (.node .fieldDefinition children) ∧ ∀ child ∈ children, ∃ token, child = .leaf token

namespace LeavesBare
open Reading TreeQuery.Syntax.Parser

variable {α β : Type} {cursor : Cursor} {inner : Reading Unit}

private theorem next {first : Reading α} {second : α → Reading β} (quiet : (first cursor).trees = [])
    (after : LeavesBare (second (first cursor).value (first cursor).next).trees) :
    LeavesBare ((first >>= second) cursor).trees := by
  change LeavesBare ((first cursor).trees ++ _)
  rwa [quiet]

private theorem fieldDefinition (sees : Sees [.identifier, .colon] cursor) : LeavesBare (fieldDefinition inner cursor).trees :=
  ⟨_, List.getLast?_concat, Each.taking (fun token => ⟨token, rfl⟩) sees.unplaced fun _ sees => .expecting sees fun _ sees =>
    .taking (fun token => ⟨token, rfl⟩) sees fun _ sees => .looking sees fun _ _ => .none rfl⟩

private theorem construct (sees : Sees [.identifier, .colon] cursor) : LeavesBare (construct inner cursor).trees := by
  have first : (current cursor).value = some .identifier := Cursor.head?_kind sees.look.kinds
  have looked := sees.look.skip.look.skip
  have second : (ahead 1 (current cursor).next).value = some .colon :=
    (kind_solid? 1 cursor.look.skip.look.skip.rest).trans (by rw [looked.kinds]; rfl)
  refine next rfl ?_
  rw [first]
  refine next rfl ?_
  rw [second]
  exact fieldDefinition looked

private theorem topLevel (room : Nat) (sees : Sees [.identifier, .colon] cursor) :
    LeavesBare (topLevel (room + 1) (some .identifier) cursor).trees := by
  change LeavesBare (unlessExhausted (nested (pattern room)) cursor).trees
  rw [unlessExhausted_awake sees.awake]
  have rested : Sees [.identifier, .colon] cursor.rested := ⟨sees.kinds, sees.blank, sees.spent⟩
  change LeavesBare ((Parser.construct (pattern room) cursor.rested).trees ++ [])
  rw [List.append_nil]
  exact construct rested

private theorem nextTopLevel (room : Nat) (sees : Sees [.identifier, .colon] cursor) :
    LeavesBare (nextTopLevel (room + 1) cursor).trees := by
  have more : cursor.skip.rest.isEmpty = false := by simpa [Ahead] using Cursor.ahead sees.kinds
  have first : (current cursor.skip).value = some .identifier := Cursor.head?_kind sees.skip.look.kinds
  refine next rfl ?_
  change LeavesBare ((if cursor.skip.rest.isEmpty = true then pure false
    else do
      Parser.topLevel (room + 1) (← current)
      pure true : Reading Bool) cursor.skip).trees
  rw [more]
  refine next rfl ?_
  rw [first]
  change LeavesBare ((Parser.topLevel (room + 1) (some .identifier) cursor.skip.look.skip).trees ++ [])
  rw [List.append_nil]
  exact topLevel room sees.skip.look.skip

end LeavesBare

private theorem Stretch.extend_assoc (first second third : Stretch) :
    (first.extend second).extend third = first.extend (second.extend third) := by
  simp only [extend, List.append_assoc]

private theorem LeavesBare.after {trees later : List Tree} (bare : LeavesBare later) : LeavesBare (trees ++ later) := by
  obtain ⟨children, last, tokens⟩ := bare
  exact ⟨children, by rw [List.getLast?_append, last]; rfl, tokens⟩

section Queries

open Reading TreeQuery.Syntax.Parser Continued

theorem queries_ended {limit : Nat} {cursor : Cursor} (ended : ¬ Ahead cursor) :
    repeatWhile (nextTopLevel limit) cursor = ⟨(), [], [], cursor.skip⟩ := by
  have finished : cursor.skip.rest.isEmpty = true := by simpa [Ahead] using ended
  have step : nextTopLevel limit cursor = ⟨false, [], [], cursor.skip⟩ := by
    change (if cursor.skip.rest.isEmpty = true then pure false else _ : Reading Bool) cursor.skip = _
    rw [finished]
    rfl
  rw [repeatWhile, step]
  rfl

/-- From a construct on: what is read of it, and what is read after it. -/
theorem queries_step (limit : Nat) {cursor : Cursor} (ahead : Ahead cursor) (awake : cursor.exhausted = false)
    (blank : ∀ token ∈ cursor.waiting, token.isTrivia = true) :
    ((nextTopLevel limit).stretch cursor).after.rest.length < cursor.rest.length ∧
    (repeatWhile (nextTopLevel limit)).stretch cursor = ((nextTopLevel limit).stretch cursor).extend
      ((repeatWhile (nextTopLevel limit)).stretch ((nextTopLevel limit).stretch cursor).after) := by
  have moves := (@nextTopLevel_fills _ limit ahead awake).moves (keeps.nextTopLevel limit)
    (advances.nextTopLevel limit) blank
  have again : (nextTopLevel limit cursor).value = true := by
    have more : cursor.skip.rest.isEmpty = false := by simpa [Ahead] using ahead
    change Step.value ((if cursor.skip.rest.isEmpty = true then pure false else _ : Reading Bool) cursor.skip) = true
    rw [more]
    rfl
  refine ⟨moves, ?_⟩
  rw [repeatWhile_stretch fun _ => moves, if_pos again]
  rfl

variable {more spare : List Token} {here there : Cursor} {limit : Nat}

/-- What is read without reports is a construct of the grammar. -/
private theorem nextTopLevel_top (awake : here.exhausted = false) (unreported : here.reported = none) (ahead : Ahead here)
    (quiet : (nextTopLevel limit here).reports = []) :
    Phrase.TopLevel true limit (words here.rest) (words (nextTopLevel limit here).next.rest) := by
  have some : words here.rest ≠ [] := by
    intro none
    exact ahead (Cursor.ended (by rw [← words_kinds, none]; rfl))
  have read := (@nextTopLevel_accepts _ limit here ⟨awake, unreported, rfl⟩).1 quiet
  cases again : (nextTopLevel limit here).value with
  | true => simpa [again] using read
  | false =>
    rw [again, if_neg Bool.false_ne_true] at read
    exact absurd read.1 some

/-- Where the last construct has no bare field, more was ahead than a field name. -/
private theorem nextTopLevel_valued (awake : here.exhausted = false) (blank : ∀ token ∈ here.waiting, token.isTrivia = true)
    (top : Phrase.TopLevel true limit (words here.rest) (words (nextTopLevel limit here).next.rest))
    (closed : ¬ LeavesBare (nextTopLevel limit here).trees) (none : words (nextTopLevel limit here).next.rest = []) :
    (words here.rest).map Word.kind ≠ [.identifier, .colon] := by
  intro kinds
  have sees : Sees [.identifier, .colon] here :=
    ⟨(words_kinds _).symm.trans kinds, blank, fun deep => absurd (awake.symm.trans deep) Bool.false_ne_true⟩
  cases limit with
  | succ room => exact closed (.nextTopLevel room sees)
  | zero =>
    -- At the limit there is no field to read.
    generalize words here.rest = ahead at top kinds
    cases top with
    | pattern none => exact none
    | hanging hangs =>
      obtain ⟨sigil⟩ := hangs
      simp [sigil] at kinds

variable (gap : ∀ token, more.head? = some token → token.isTrivia = true)
  (opens : ∀ kind, (solidKinds more).head? = some kind → kind.startsPattern = true)
include gap opens

/-- One construct more is read alike, unless it is the last and a field without a value. -/
private theorem nextTopLevel_continues (abreast : Abreast more spare here there) (ahead : Ahead here)
    (quiet : (nextTopLevel limit here).reports = [])
    (closed : solidKinds (nextTopLevel limit here).next.rest = [] → ¬ LeavesBare (nextTopLevel limit here).trees) :
    Alike more ((nextTopLevel limit).stretch here) ((nextTopLevel limit).stretch there) := by
  have top := nextTopLevel_top abreast.awake abreast.unreported ahead quiet
  have valued (none : words (nextTopLevel limit here).next.rest = []) : (words here.rest).map Word.kind ≠ [.identifier, .colon] :=
    nextTopLevel_valued abreast.awake abreast.blank top (closed (by rw [← words_kinds, none]; rfl)) none
  have starts : begins (fun kind => !kind.startsPattern) (words more) = false := by
    cases first : words more with
    | nil => rfl
    | cons word rest =>
      have pattern := opens word.kind (by rw [← words_kinds, first]; rfl)
      simp [begins, pattern]
  have further := Phrase.topLevel_extends starts (words_loose _) valued top
  have begun : Fresh (words here.rest ++ words more) there :=
    ⟨abreast.awake_there, abreast.unreported_there, by rw [abreast.level (.inl ahead), words_append gap]⟩
  obtain ⟨_, _, left⟩ := (@nextTopLevel_accepts _ limit there begun).2 true _ further
  have both : (continued more gap opens).At (solidKinds here.rest) here there := ⟨⟨spare, abreast⟩, rfl⟩
  rcases Pairing.nextTopLevel_pairs limit both with ⟨_, alike⟩ | told | stray
  · exact alike
  · exact absurd quiet told
  · -- The second run takes as many words as the first, which has them all ahead.
    have taken := congrArg (List.length ∘ solidKinds) (keeps.nextTopLevel limit there)
    have before := congrArg List.length begun.sees
    have after := congrArg List.length left.sees
    have fewer := (Phrase.topLevel_leaves top).length_le
    have count (tokens : List Token) : (words tokens).length = (solidKinds tokens).length := by
      rw [← words_kinds, List.length_map]
    simp only [Function.comp_apply, solidKinds_append, solidKinds_blank abreast.blank_there, List.nil_append,
      List.length_append, count] at taken before after fewer
    have stray : (solidKinds here.rest).length < (solidKinds (Tree.leavesOf (nextTopLevel limit there).trees)).length := stray
    omega

/-- All that the first run reads the second reads alike, and then goes on from there. -/
theorem queries_continue (abreast : Abreast more spare here there)
    (quiet : (repeatWhile (nextTopLevel limit) here).reports = [])
    (closed : ¬ LeavesBare (repeatWhile (nextTopLevel limit) here).trees) :
    ∃ part mate, Alike more part mate ∧ ¬ Ahead part.after ∧
      (repeatWhile (nextTopLevel limit)).stretch here = part.extend ((repeatWhile (nextTopLevel limit)).stretch part.after) ∧
      (repeatWhile (nextTopLevel limit)).stretch there = mate.extend ((repeatWhile (nextTopLevel limit)).stretch mate.after) := by
  induction left : here.rest.length using Nat.strongRecOn generalizing here there spare with
  | ind size ih =>
    by_cases ahead : Ahead here
    · obtain ⟨shorter, split⟩ := queries_step limit ahead abreast.awake abreast.blank
      obtain ⟨first, later⟩ := List.append_eq_nil_iff.mp ((congrArg Stretch.reports split).symm.trans quiet)
      have trees : (repeatWhile (nextTopLevel limit) here).trees = (nextTopLevel limit here).trees ++
          (repeatWhile (nextTopLevel limit) (nextTopLevel limit here).next).trees := congrArg Stretch.trees split
      have alike := nextTopLevel_continues gap opens abreast ahead first fun ended bare => closed ?_
      · have ahead_there : Ahead there := by
          obtain ⟨token, rest, _, next⟩ := abreast.first ahead
          simp [Ahead, next]
        obtain ⟨_, split_there⟩ := queries_step limit ahead_there abreast.awake_there abreast.blank_there
        obtain ⟨_, between⟩ := alike.onward
        obtain ⟨part, mate, further, ended, rest, rest_there⟩ := ih _ (left ▸ shorter) between later
          (fun bare => closed (trees ▸ bare.after)) rfl
        have joint : part.before = _ := (congrArg Stretch.before rest).symm
        have joint_there : mate.before = _ := (congrArg Stretch.before rest_there).symm
        refine ⟨_, _, alike.chain joint.symm joint_there.symm further, ended, ?_, ?_⟩
        · rw [split, rest, Stretch.extend_assoc]
          rfl
        · rw [split_there, rest_there, Stretch.extend_assoc]
          rfl
      · rw [trees, queries_ended (not_not.mpr (Cursor.ended ended)), List.append_nil]
        exact bare
    · exact ⟨.still here, .still there, .step id rfl abreast abreast, ahead, rfl, rfl⟩

end Queries

end TreeQuery.Syntax
