import TreeQuery.Proofs.ReadingEnds
import TreeQuery.Proofs.ReadingShapes

/-! Two readings side by side. They go the same way as long as the same kinds of tokens are ahead of both,
and what they place and report stays alike. Where they go different ways they have parted, whatever
either of them does from then on. -/

namespace TreeQuery.Syntax
open Text (Span)
open Diagnostic (Report)

/-- What a reading did on its way from one cursor to another. -/
structure Stretch where
  before : Cursor
  trees : List Tree
  reports : List Report
  after : Cursor

namespace Stretch

def still (cursor : Cursor) : Stretch := ⟨cursor, [], [], cursor⟩

/-- Nothing but a move of the cursor. -/
def moved (change : Cursor → Cursor) (cursor : Cursor) : Stretch := ⟨cursor, [], [], change cursor⟩

def extend (first second : Stretch) : Stretch :=
  ⟨first.before, first.trees ++ second.trees, first.reports ++ second.reports, second.after⟩

/-- A node around what was placed from `cursor` on. -/
def around (cursor : Cursor) (kind : NodeKind) (inside : Stretch) : Stretch :=
  ⟨cursor, cursor.waiting.map .leaf ++ [.node kind inside.trees], inside.reports, inside.after⟩

end Stretch

def Reading.stretch {α : Type} (reading : Reading α) (cursor : Cursor) : Stretch :=
  ⟨cursor, (reading cursor).trees, (reading cursor).reports, (reading cursor).next⟩

def Cursor.unplaced (cursor : Cursor) : Cursor := { cursor with waiting := [] }

/-- The tokens after which it counts whether the next one follows at once. -/
def TokenKind.joins : TokenKind → Bool
  | .atSign | .doubleQuote | .stringContent => true
  | _ => false

/-- The same solid token, if any, follows both at once. -/
def Beside (here there : Cursor) : Prop := ∀ kind : TokenKind, kind.isTrivia = false →
  (here.rest.head?.map Token.kind = some kind ↔ there.rest.head?.map Token.kind = some kind)

/-- Where no token is beyond, the first one vacuously begins a pattern. -/
theorem none_beyond (kind : TokenKind) (found : ([] : List TokenKind).head? = some kind) : kind.startsPattern = true :=
  absurd found.symm (Option.some_ne_none kind)

/-- How two runs over queries compare: when their cursors are abreast and their spans match, and what it
is for two stretches of them to be alike or to have parted. Each step made by both from cursors abreast keeps
them alike or parts them. -/
structure Pairing where
  /-- The solid tokens that only the second run finds after those ahead of both. -/
  beyond : List TokenKind
  /-- How much deeper patterns may nest in the second run. -/
  deeper : Nat
  /-- Whether the trivia past the end of the first run can differ. -/
  apart : Prop
  abreast : Cursor → Cursor → Prop
  matching : Span → Span → Prop
  alike : Stretch → Stretch → Prop
  parted : Stretch → Stretch → Prop
  opens : ∀ kind, beyond.head? = some kind → kind.startsPattern = true
  kinds : ∀ {here there}, abreast here there → solidKinds there.rest = solidKinds here.rest ++ beyond
  blank : ∀ {here there}, abreast here there → (∀ token ∈ here.waiting, token.isTrivia = true) ∧
    ∀ token ∈ there.waiting, token.isTrivia = true
  deep : ∀ {here there}, abreast here there → here.exhausted = there.exhausted
  spent : ∀ {here there}, abreast here there → here.exhausted = true → solidKinds there.rest = []
  text : ∀ {here there}, abreast here there → Ahead here →
    here.skip.rest.head?.map Token.text = there.skip.rest.head?.map Token.text
  span : ∀ {here there}, abreast here there → matching here.skip.span there.skip.span
  joint : ∀ {first last other final}, matching first other → matching last final →
    matching ⟨first.start, last.stop⟩ ⟨other.start, final.stop⟩
  beside : ∀ {here there kind ahead}, abreast here there → solidKinds here.rest = kind :: ahead → kind.joins = true →
    Beside (Reading.take here).next (Reading.take there).next
  onward : ∀ {part mate}, alike part mate → abreast part.after mate.after
  still : ∀ {here there}, abreast here there → alike (.still here) (.still there)
  chain : ∀ {part mate later last}, alike part mate → part.after = later.before → mate.after = last.before →
    alike later last → alike (part.extend later) (mate.extend last)
  look : ∀ {here there}, abreast here there → alike (.moved Cursor.look here) (.moved Cursor.look there)
  rest : ∀ {here there}, abreast here there → alike (.moved Cursor.rested here) (.moved Cursor.rested there)
  skip : ∀ {here there}, abreast here there → alike (.moved Cursor.skip here) (.moved Cursor.skip there)
  take : ∀ {here there}, abreast here there → Ahead here → alike (Reading.take.stretch here) (Reading.take.stretch there)
  unplaced : ∀ {here there}, abreast here there → Ahead here ∨ ¬ apart → abreast here.unplaced there.unplaced
  around : ∀ {here there kind part mate}, abreast here there → Ahead here ∨ ¬ apart →
    part.before = here.unplaced → mate.before = there.unplaced → alike part mate →
    alike (.around here kind part) (.around there kind mate)
  found : ∀ {here there} {report : Report} {span}, abreast here there → report.kind ≠ .nestingTooDeep →
    report.related = [] → matching report.span span →
    alike ((Reading.report report).stretch here) ((Reading.report { report with span }).stretch there) ∨
      parted ((Reading.report report).stretch here) ((Reading.report { report with span }).stretch there)
  /-- At the limit of the first run. -/
  limit : ∀ {here there}, abreast here there → Ahead here → here.exhausted = false →
    alike (Parser.giveUp.stretch here) ((Parser.pattern deeper).stretch there) ∨
      parted (Parser.giveUp.stretch here) ((Parser.pattern deeper).stretch there)
  /-- The second run goes on where nothing is left for the first. -/
  stray : ∀ {part mate : Stretch}, abreast part.before mate.before → beyond ≠ [] →
    (solidKinds part.before.rest).length < (solidKinds (Tree.leavesOf mate.trees)).length → parted part mate
  /-- Nothing is left for the first run in a predicate. -/
  unclosed : ∀ {here opener} {mate : Stretch}, abreast here mate.before → apart → solidKinds here.rest = [] →
    parted (Reading.stretch (do Parser.arguments; Parser.close .parenClose .unclosedNode opener) here) mate
  later : ∀ {part mate further last}, parted part mate → parted (part.extend further) (mate.extend last)
  lately : ∀ {part mate later last}, alike part mate → part.after = later.before → mate.after = last.before →
    parted later last → parted (part.extend later) (mate.extend last)
  within : ∀ {here there kind other part mate}, part.before = here.unplaced → mate.before = there.unplaced →
    parted part mate → parted (.around here kind part) (.around there other mate)

namespace Reading

variable {α β : Type} {cursor : Cursor}

/-- At least so many tokens are placed that are no trivia. -/
def Uses (count : Nat) (reading : Reading α) (cursor : Cursor) : Prop :=
  count ≤ (solidKinds (Tree.leavesOf (reading cursor).trees)).length

theorem Fills.uses {reading : Reading α} (fills : reading.Fills cursor) : reading.Uses 1 cursor :=
  List.length_pos_iff.mpr fills

namespace Uses

variable {first : Reading α} {second : α → Reading β} {count more : Nat}

theorem bind (before : first.Uses count cursor)
    (after : (second (first cursor).value).Uses more (first cursor).next) :
    (first >>= second).Uses (count + more) cursor := by
  change _ ≤ (solidKinds (Tree.leavesOf ((first cursor).trees ++ (second (first cursor).value (first cursor).next).trees))).length
  rw [Tree.leavesOf_append, solidKinds_append, List.length_append]
  exact Nat.add_le_add before after

theorem node {kind : NodeKind} {body : Reading Unit} (inside : body.Uses count { cursor with waiting := [] }) :
    (Reading.node kind body).Uses count cursor := by
  have joined : solidKinds (Tree.leavesOf (Reading.node kind body cursor).trees) =
      solidKinds cursor.waiting ++ solidKinds (Tree.leavesOf (body { cursor with waiting := [] }).trees) := by
    rw [Reading.node, Tree.leavesOf_append, solidKinds_append, Tree.leavesOf_tokens]
    simp [Tree.leavesOf, Tree.leaves]
  rw [Uses, joined, List.length_append]
  exact Nat.le_add_left_of_le inside

theorem asking {question : Cursor → α} (after : ∀ answer, (second answer).Uses count cursor.skip) :
    (ask question >>= second).Uses count cursor := after _

end Uses

theorem take_passes {kind : TokenKind} {ahead : List TokenKind} (kinds : solidKinds cursor.rest = kind :: ahead) :
    solidKinds (take cursor).next.rest = ahead ∧ (take cursor).next.exhausted = cursor.exhausted := by
  obtain ⟨token, rest, left, _, others⟩ := Cursor.first kinds
  rw [take_token left]
  exact ⟨others, rfl⟩

/-- Placed tokens are taken from those ahead. -/
theorem Fills.moves {reading : Reading α} (fills : reading.Fills cursor) (keeps : Obeys Keeps reading)
    (forward : Obeys Advances reading) (blank : ∀ token ∈ cursor.waiting, token.isTrivia = true) :
    (reading cursor).next.rest.length < cursor.rest.length := by
  apply Nat.lt_of_le_of_ne (forward cursor).length_le
  intro same
  have kept := congrArg solidKinds (keeps cursor)
  rw [(forward cursor).eq_of_length same] at kept
  simp only [solidKinds_append, solidKinds_blank blank, List.nil_append] at kept
  have counted := congrArg List.length kept
  have filled : 0 < (solidKinds (Tree.leavesOf (reading cursor).trees)).length := fills.uses
  simp only [List.length_append] at counted
  omega

end Reading

/-- Every law holds of the reading. -/
def Reading.Lawful {α : Type} (reading : Reading α) : Prop :=
  ∀ {relation : Cursor → List Tree → List Report → Cursor → Prop}, Law relation → Obeys relation reading

/-- A loop is its first step and, where that answers so, the loop again. -/
theorem Reading.repeatWhile_stretch {step : Reading Bool} {cursor : Cursor}
    (moves : (step cursor).value = true → (step cursor).next.rest.length < cursor.rest.length) :
    (repeatWhile step).stretch cursor = (step.stretch cursor).extend
      (if (step cursor).value = true then (repeatWhile step).stretch (step cursor).next else .still (step cursor).next) := by
  unfold stretch
  rw [repeatWhile]
  cases again : (step cursor).value with
  | false => simp [Stretch.extend, Stretch.still]
  | true => simp [moves again, Stretch.extend]

namespace Pairing
open Reading

variable (pairing : Pairing) {α β γ : Type}

/-- The two go the same way, with the same answer, or part. -/
def Pairs (reading other : Reading α) (here there : Cursor) : Prop :=
  ((reading here).value = (other there).value ∧ pairing.alike (reading.stretch here) (other.stretch there)) ∨
    pairing.parted (reading.stretch here) (other.stretch there)

variable {here there : Cursor}

theorem awake_there (abreast : pairing.abreast here there) (ahead : Ahead there) : there.exhausted = false := by
  apply Bool.eq_false_iff.mpr
  intro exhausted
  exact ahead (Cursor.ended (pairing.spent abreast ((pairing.deep abreast).trans exhausted)))

theorem awake_here (abreast : pairing.abreast here there) (ahead : Ahead here) : here.exhausted = false := by
  apply Bool.eq_false_iff.mpr
  intro exhausted
  have none : solidKinds here.rest ++ pairing.beyond = [] := (pairing.kinds abreast).symm.trans (pairing.spent abreast exhausted)
  exact ahead (Cursor.ended (List.append_eq_nil_iff.mp none).1)

/-- Cursors abreast, with these kinds of solid tokens ahead of the first. -/
structure At (ahead : List TokenKind) (here there : Cursor) : Prop where
  abreast : pairing.abreast here there
  kinds : solidKinds here.rest = ahead

variable {pairing} {kind : TokenKind} {ahead : List TokenKind}

namespace At

theorem other (both : pairing.At ahead here there) : solidKinds there.rest = ahead ++ pairing.beyond :=
  (pairing.kinds both.abreast).trans (by rw [both.kinds])

theorem here_ahead (both : pairing.At (kind :: ahead) here there) : Ahead here := Cursor.ahead both.kinds

theorem there_ahead (both : pairing.At (kind :: ahead) here there) : Ahead there := Cursor.ahead both.other

private theorem skip (both : pairing.At ahead here there) : pairing.At ahead here.skip there.skip :=
  ⟨pairing.onward (pairing.skip both.abreast), (solidKinds_dropWhile _).trans both.kinds⟩

private theorem look (both : pairing.At ahead here there) : pairing.At ahead here.look there.look := by
  refine ⟨pairing.onward (pairing.look both.abreast), ?_⟩
  obtain ⟨fault, same⟩ := here.look_eq
  rw [same]
  exact both.kinds

theorem rested (both : pairing.At ahead here there) : pairing.At ahead here.rested there.rested :=
  ⟨pairing.onward (pairing.rest both.abreast), both.kinds⟩

private theorem unplaced (both : pairing.At (kind :: ahead) here there) :
    pairing.At (kind :: ahead) here.unplaced there.unplaced :=
  ⟨pairing.unplaced both.abreast (.inl both.here_ahead), both.kinds⟩

private theorem take (both : pairing.At (kind :: ahead) here there) :
    pairing.At ahead (Reading.take here).next (Reading.take there).next :=
  ⟨pairing.onward (pairing.take both.abreast both.here_ahead), (take_passes both.kinds).1⟩

end At

/-- Nothing is left for the first run, and the second goes on with a token of this kind. -/
structure Past (pairing : Pairing) (kind : TokenKind) (here there : Cursor) : Prop where
  both : pairing.At [] here there
  next : pairing.beyond.head? = some kind

namespace Past

theorem starts (past : pairing.Past kind here there) : kind.startsPattern = true := pairing.opens kind past.next

private theorem some (past : pairing.Past kind here there) : pairing.beyond ≠ [] := by
  intro none
  simpa [none] using past.next

private theorem sees (past : pairing.Past kind here there) : ∃ rest, solidKinds there.rest = kind :: rest := by
  obtain ⟨rest, same⟩ := List.head?_eq_some_iff.mp past.next
  exact ⟨rest, past.both.other.trans same⟩

theorem there_ahead (past : pairing.Past kind here there) : Ahead there := by
  obtain ⟨rest, sees⟩ := past.sees
  exact Cursor.ahead sees

theorem awake (past : pairing.Past kind here there) : there.exhausted = false :=
  pairing.awake_there past.both.abreast past.there_ahead

end Past

namespace Pairs

variable {first : Reading α} {second : α → Reading γ} {other : Reading β} {last : β → Reading γ}
  {reading mate : Reading γ}

/-- What both do alike is followed by what they do next. -/
theorem step (alike : pairing.alike (first.stretch here) (other.stretch there))
    (after : pairing.Pairs (second (first here).value) (last (other there).value) (first here).next (other there).next) :
    pairing.Pairs (first >>= second) (other >>= last) here there := by
  rcases after with ⟨same, further⟩ | parted
  · exact .inl ⟨same, pairing.chain alike rfl rfl further⟩
  · exact .inr (pairing.lately alike rfl rfl parted)

private theorem parting (parted : pairing.parted (first.stretch here) (other.stretch there)) :
    pairing.Pairs (first >>= second) (other >>= last) here there :=
  have later : pairing.parted
      (.extend (first.stretch here) ((second (first here).value).stretch (first here).next))
      (.extend (other.stretch there) ((last (other there).value).stretch (other there).next)) := pairing.later parted
  .inr later

theorem bind {other : Reading α} {last : α → Reading γ} (before : pairing.Pairs first other here there)
    (after : ∀ value ahead here there, pairing.At ahead here there →
      pairing.Pairs (second value) (last value) here there) :
    pairing.Pairs (first >>= second) (other >>= last) here there := by
  rcases before with ⟨same, alike⟩ | parted
  · exact step alike (same ▸ after _ _ _ _ ⟨pairing.onward alike, rfl⟩)
  · exact parting parted

theorem assoc {δ : Type} {first other : Reading α} {second last : α → Reading δ} {third final : δ → Reading γ}
    (whole : pairing.Pairs (first >>= fun value => second value >>= third) (other >>= fun value => last value >>= final) here there) :
    pairing.Pairs ((first >>= second) >>= third) ((other >>= last) >>= final) here there := by
  have same (first : Reading α) (second : α → Reading δ) (third : δ → Reading γ) (cursor : Cursor) :
      ((first >>= second) >>= third).stretch cursor = (first >>= fun value => second value >>= third).stretch cursor := by
    change Stretch.mk _ ((_ ++ _) ++ _) ((_ ++ _) ++ _) _ = _
    rw [List.append_assoc, List.append_assoc]
    rfl
  rw [Pairs, same, same]
  exact whole

theorem pure (abreast : pairing.abreast here there) (value : γ) :
    pairing.Pairs (Pure.pure value) (Pure.pure value) here there := .inl ⟨rfl, pairing.still abreast⟩

/-- The second reading places more than is ahead of the first. -/
theorem strayed (both : pairing.At ahead here there) (some : pairing.beyond ≠ [])
    (uses : mate.Uses (ahead.length + 1) there) : pairing.Pairs reading mate here there := by
  rw [← both.kinds] at uses
  exact .inr (pairing.stray both.abreast some uses)

theorem past (past : pairing.Past kind here there) (fills : mate.Fills there) :
    pairing.Pairs reading mate here there := strayed past.both past.some fills.uses

theorem asking {question : Cursor → α} {other : Cursor → β} (both : pairing.At ahead here there)
    (after : pairing.At ahead here.skip there.skip →
      pairing.Pairs (second (question here.skip)) (last (other there.skip)) here.skip there.skip) :
    pairing.Pairs (ask question >>= second) (ask other >>= last) here there :=
  step (pairing.skip both.abreast) (after both.skip)

/-- Spans asked for match. -/
theorem spanning {second last : Span → Reading γ} (both : pairing.At ahead here there)
    (after : ∀ span twin here there, pairing.matching span twin → pairing.At ahead here there →
      pairing.Pairs (second span) (last twin) here there) :
    pairing.Pairs (currentSpan >>= second) (currentSpan >>= last) here there :=
  asking both fun moved => after _ _ _ _ (pairing.span both.abreast) moved

/-- The same text is read where a token is ahead. -/
theorem reading_text {second last : String → Reading γ} (both : pairing.At (kind :: ahead) here there)
    (after : ∀ text here there, pairing.At (kind :: ahead) here there →
      pairing.Pairs (second text) (last text) here there) :
    pairing.Pairs (currentText >>= second) (currentText >>= last) here there := by
  refine asking both fun moved => ?_
  rw [pairing.text both.abreast both.here_ahead]
  exact after _ _ _ moved

theorem peeking {second last : Option TokenKind → Reading γ} (n : Nat) (both : pairing.At ahead here there)
    (after : ∀ here there, pairing.At ahead here there →
      pairing.Pairs (second ahead[n]?) (last (ahead ++ pairing.beyond)[n]?) here there) :
    pairing.Pairs (Reading.ahead n >>= second) (Reading.ahead n >>= last) here there := by
  have looked := both.look
  refine step (pairing.chain (pairing.look both.abreast) rfl rfl (pairing.skip looked.abreast)) ?_
  have answer : (Reading.ahead n here).value = ahead[n]? :=
    (kind_solid? n here.look.skip.rest).trans (by rw [looked.skip.kinds])
  have other : (Reading.ahead n there).value = (ahead ++ pairing.beyond)[n]? :=
    (kind_solid? n there.look.skip.rest).trans (by rw [looked.skip.other])
  rw [answer, other]
  exact after _ _ looked.skip

/-- Both find the same token next, unless the second run goes on past the end of the first. -/
theorem looking {second last : Option TokenKind → Reading γ} (both : pairing.At ahead here there)
    (same : ∀ here there, pairing.At ahead here there → pairing.Pairs (second ahead.head?) (last ahead.head?) here there)
    (more : ∀ kind here there, ahead = [] → pairing.Past kind here there →
      pairing.Pairs (second none) (last (some kind)) here there) :
    pairing.Pairs (current >>= second) (current >>= last) here there := by
  have looked := both.look
  refine step (pairing.chain (pairing.look both.abreast) rfl rfl (pairing.skip looked.abreast)) ?_
  have answer : (current here).value = ahead.head? := Cursor.head?_kind looked.kinds
  have other : (current there).value = (ahead ++ pairing.beyond).head? := Cursor.head?_kind looked.other
  rw [answer, other]
  cases ahead with
  | cons kind ahead => exact same _ _ looked.skip
  | nil =>
    cases next : pairing.beyond.head? with
    | none =>
      rw [List.nil_append, next]
      exact same _ _ looked.skip
    | some kind =>
      rw [List.nil_append, next]
      exact more kind _ _ rfl ⟨looked.skip, next⟩

theorem expecting {second last : Reading γ} (both : pairing.At (kind :: ahead) here there)
    (after : ∀ here there, pairing.At (kind :: ahead) here there → pairing.Pairs second last here there) :
    pairing.Pairs (do expect kind; second) (do expect kind; last) here there := by
  refine assoc (looking both (fun here there both => ?_) fun _ _ _ none => nomatch none)
  rw [List.head?_cons, if_pos rfl]
  exact after here there both

theorem taking {second last : Reading γ} (both : pairing.At (kind :: ahead) here there)
    (after : ∀ here there, pairing.At ahead here there → (kind.joins = true → Beside here there) →
      pairing.Pairs second last here there) :
    pairing.Pairs (do Reading.take; second) (do Reading.take; last) here there :=
  step (pairing.take both.abreast both.here_ahead) (after _ _ both.take fun joins => pairing.beside both.abreast both.kinds joins)

theorem take (both : pairing.At (kind :: ahead) here there) : pairing.Pairs Reading.take Reading.take here there :=
  .inl ⟨rfl, pairing.take both.abreast both.here_ahead⟩

/-- A token of this kind is taken by both or left by both, or the second run goes on. -/
theorem takingIf {second last : Bool → Reading γ} (both : pairing.At ahead here there)
    (taken : ∀ rest here there, ahead = kind :: rest → pairing.At rest here there →
      pairing.Pairs (second true) (last true) here there)
    (left : ∀ here there, ahead.head? ≠ some kind → pairing.At ahead here there →
      pairing.Pairs (second false) (last false) here there) :
    pairing.Pairs (takeIf kind >>= second) (takeIf kind >>= last) here there := by
  change pairing.Pairs (current >>= fun found => (if found = some kind then do Reading.take; Pure.pure true else Pure.pure false) >>= second)
    (current >>= fun found => (if found = some kind then do Reading.take; Pure.pure true else Pure.pure false) >>= last) here there
  refine looking both (fun here there both => ?_) fun next here there none past => ?_
  · split
    next found =>
      obtain ⟨rest, rfl⟩ := List.head?_eq_some_iff.mp found
      have moved := both.take
      exact step (pairing.chain (pairing.take both.abreast both.here_ahead) rfl rfl (pairing.still moved.abreast))
        (taken rest _ _ rfl moved)
    next other => exact left here there other both
  · subst none
    rw [if_neg nofun]
    split
    next => exact Pairs.past past (Fills.bind (Fills.take past.there_ahead)).bind
    next =>
      exact left here there nofun past.both

/-- Right after a token both find another one of this kind at once, or both do not. -/
theorem adjoining (kind : TokenKind) {second last : Option TokenKind → Reading γ} (solid : kind.isTrivia = false)
    (both : pairing.At ahead here there) (beside : Beside here there)
    (follows : ∀ rest here there, pairing.At (kind :: rest) here there →
      pairing.Pairs (second (some kind)) (last (some kind)) here there)
    (other : ∀ found twin here there, found ≠ some kind → twin ≠ some kind → pairing.At ahead here there →
      Beside here there → pairing.Pairs (second found) (last twin) here there) :
    pairing.Pairs (adjacent >>= second) (adjacent >>= last) here there := by
  refine step (pairing.look both.abreast) ?_
  change pairing.Pairs (second (here.rest.head?.map Token.kind)) (last (there.rest.head?.map Token.kind)) here.look there.look
  have same := beside kind solid
  by_cases found : here.rest.head?.map Token.kind = some kind
  · rw [found, same.mp found]
    obtain ⟨token, first, rfl⟩ := Option.map_eq_some_iff.mp found
    obtain ⟨rest, left⟩ := List.head?_eq_some_iff.mp first
    refine follows (solidKinds rest) _ _ ⟨both.look.abreast, ?_⟩
    rw [both.look.kinds, ← both.kinds, left]
    simp [solidKinds, Token.isTrivia, solid]
  · apply other _ _ _ _ found (mt same.mpr found) both.look
    obtain ⟨_, look⟩ := here.look_eq
    obtain ⟨_, twin⟩ := there.look_eq
    rw [look, twin]
    exact beside

theorem node {kind : NodeKind} {body other : Reading Unit} (abreast : pairing.abreast here there)
    (placed : Ahead here ∨ ¬ pairing.apart) (inside : pairing.Pairs body other here.unplaced there.unplaced) :
    pairing.Pairs (Reading.node kind body) (Reading.node kind other) here there := by
  rcases inside with ⟨_, alike⟩ | parted
  · exact .inl ⟨rfl, pairing.around abreast placed rfl rfl alike⟩
  · exact .inr (pairing.within rfl rfl parted)

/-- A node that begins with a token that is ahead. -/
theorem entering {node : NodeKind} {body other : Reading Unit} (both : pairing.At (kind :: ahead) here there)
    (inside : ∀ here there, pairing.At (kind :: ahead) here there → pairing.Pairs body other here there) :
    pairing.Pairs (Reading.node node body) (Reading.node node other) here there :=
  .node both.abreast (.inl both.here_ahead) (inside _ _ both.unplaced)

theorem report (found : Report) {span : Span} (abreast : pairing.abreast here there)
    (shallow : found.kind ≠ .nestingTooDeep) (single : found.related = []) (matching : pairing.matching found.span span) :
    pairing.Pairs (Reading.report found) (Reading.report { found with span }) here there :=
  (pairing.found abreast shallow single matching).imp_left fun alike => ⟨rfl, alike⟩

theorem reporting (found : Report) {span : Span} {second last : Reading γ} (both : pairing.At ahead here there)
    (shallow : found.kind ≠ .nestingTooDeep) (single : found.related = []) (matching : pairing.matching found.span span)
    (after : ∀ here there, pairing.At ahead here there → pairing.Pairs second last here there) :
    pairing.Pairs (do Reading.report found; second) (do Reading.report { found with span }; last) here there := by
  rcases pairing.found both.abreast shallow single matching with alike | parted
  · refine step alike (after _ _ ⟨pairing.onward alike, ?_⟩)
    have same : (Reading.report found here).next.rest = here.rest := by
      unfold Reading.report
      split <;> rfl
    rw [same, both.kinds]
  · exact parting parted

theorem awake {reading other : Reading Unit} (awake : here.exhausted = false) (awake_there : there.exhausted = false)
    (inside : pairing.Pairs reading other here there) :
    pairing.Pairs (unlessExhausted reading) (unlessExhausted other) here there := by
  rw [Pairs, stretch, stretch, unlessExhausted_awake awake, unlessExhausted_awake awake_there]
  exact inside

/-- Loops whose steps move on wherever they go on. -/
private theorem repeatWhile {step other : Reading Bool}
    (once : ∀ here there, pairing.abreast here there → pairing.Pairs step other here there)
    (moves : ∀ here there, pairing.abreast here there → (step here).value = true →
      (step here).next.rest.length < here.rest.length)
    (moves_there : ∀ here there, pairing.abreast here there → (other there).value = true →
      (other there).next.rest.length < there.rest.length) (abreast : pairing.abreast here there) :
    pairing.Pairs (Reading.repeatWhile step) (Reading.repeatWhile other) here there := by
  induction left : here.rest.length using Nat.strongRecOn generalizing here there with
  | ind size ih =>
    have first := repeatWhile_stretch (moves here there abreast)
    have second := repeatWhile_stretch (moves_there here there abreast)
    rw [Pairs, first, second]
    rcases once here there abreast with ⟨same, alike⟩ | parted
    · rw [← same]
      cases again : (step here).value with
      | false => exact .inl ⟨rfl, pairing.chain alike rfl rfl (pairing.still (pairing.onward alike))⟩
      | true =>
        have shorter := moves here there abreast again
        rcases ih _ (left ▸ shorter) (pairing.onward alike) rfl with ⟨_, further⟩ | parted
        · exact .inl ⟨rfl, pairing.chain alike rfl rfl further⟩
        · exact .inr (pairing.lately alike rfl rfl parted)
    · exact .inr (pairing.later parted)

/-- Loops whose steps place a token wherever they go on. -/
theorem looping {step other : Reading Bool} (lawful : step.Lawful) (lawful_there : other.Lawful)
    (once : ∀ ahead here there, pairing.At ahead here there → pairing.Pairs step other here there)
    (fills : ∀ cursor, (Ahead cursor → cursor.exhausted = false) → (step cursor).value = true → step.Fills cursor)
    (fills_there : ∀ cursor, (Ahead cursor → cursor.exhausted = false) → (other cursor).value = true → other.Fills cursor)
    (abreast : pairing.abreast here there) :
    pairing.Pairs (Reading.repeatWhile step) (Reading.repeatWhile other) here there := by
  refine repeatWhile (fun here there abreast => once _ _ _ ⟨abreast, rfl⟩) (fun here there abreast again => ?_)
    (fun here there abreast again => ?_) abreast
  · have filled := fills here (pairing.awake_here abreast) again
    exact filled.moves (lawful keeps) (lawful advances) (pairing.blank abreast).1
  · have filled := fills_there there (pairing.awake_there abreast) again
    exact filled.moves (lawful_there keeps) (lawful_there advances) (pairing.blank abreast).2

end Pairs

end Pairing

end TreeQuery.Syntax
