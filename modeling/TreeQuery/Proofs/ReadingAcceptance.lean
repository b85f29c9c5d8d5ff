import TreeQuery.Proofs.QueryPhrases
import TreeQuery.Proofs.ReadingOutcome

/-! When a reading reports nothing. Before the first report every report is made, so that a reading
stays silent for the words it accepts and for no others; which words these are, and what it leaves
of them, does not depend on trivia. -/

namespace TreeQuery.Syntax
open Diagnostic (Report)

variable {tokens : List Token} {ahead middle rest : List Word} {word last : Word} {cursor : Cursor}

theorem words_dropWhile (tokens : List Token) : words (tokens.dropWhile Token.isTrivia) = words tokens := by
  induction tokens with
  | nil => rfl
  | cons token rest ih =>
    cases blank : token.isTrivia with
    | true => simp only [List.dropWhile_cons, blank, if_true, words, ih]
    | false => simp only [List.dropWhile_cons, blank, Bool.false_eq_true, if_false]

theorem words_kinds (tokens : List Token) : (words tokens).map Word.kind = solidKinds tokens := by
  induction tokens with
  | nil => rfl
  | cons token rest ih => cases blank : token.isTrivia <;> simp_all [words, solidKinds]

theorem words_solid {token : Token} (solid : token.isTrivia = false) (rest : List Token) :
    words (token :: rest) = ⟨token.kind, token.text, rest.head?.any (!·.isTrivia)⟩ :: words rest := by
  rw [words, if_neg (by simp [solid])]

/-- What follows at once, if it is no trivia, is the next word. -/
theorem words_adjoin {kind : TokenKind} (solid : kind.isTrivia = false) (rest : List Token) :
    rest.head?.map Token.kind = some kind ↔
      rest.head?.any (!·.isTrivia) = true ∧ begins (· = kind) (words rest) = true := by
  cases rest with
  | nil => simp
  | cons next further =>
    cases blank : next.isTrivia with
    | true =>
      have other : next.kind ≠ kind := fun same => by simp [Token.isTrivia, same, solid] at blank
      simp [other, blank]
    | false => simp [words_solid blank, begins, blank]

/-- Nothing was reported so far, and these are the words ahead. -/
structure Fresh (ahead : List Word) (cursor : Cursor) : Prop where
  shallow : cursor.exhausted = false
  unreported : cursor.reported = none
  sees : words cursor.rest = ahead

/-- The word before was taken just now. What follows it at once is seen where the two are joined. -/
structure After (last : Word) (ahead : List Word) (cursor : Cursor) : Prop extends Fresh ahead cursor where
  adjoins : ∀ kind : TokenKind, kind.isTrivia = false →
    (cursor.rest.head?.map Token.kind = some kind ↔ last.joined = true ∧ begins (· = kind) ahead = true)

theorem Fresh.skip (fresh : Fresh ahead cursor) : Fresh ahead cursor.skip :=
  ⟨fresh.shallow, fresh.unreported, (words_dropWhile _).trans fresh.sees⟩

private theorem Fresh.look (fresh : Fresh ahead cursor) : Fresh ahead cursor.look := by
  unfold Cursor.look
  split <;> exact ⟨fresh.shallow, fresh.unreported, fresh.sees⟩

theorem Fresh.unplaced (fresh : Fresh ahead cursor) : Fresh ahead { cursor with waiting := [] } :=
  ⟨fresh.shallow, fresh.unreported, fresh.sees⟩

private theorem After.look (after : After last ahead cursor) : After last ahead cursor.look := by
  have same : cursor.look.rest = cursor.rest := by
    unfold Cursor.look
    split <;> rfl
  refine ⟨after.toFresh.look, ?_⟩
  rw [same]
  exact after.adjoins

theorem Fresh.rested (fresh : Fresh ahead cursor) : Fresh ahead cursor.rested :=
  ⟨fresh.shallow, fresh.unreported, fresh.sees⟩

private theorem Fresh.first (fresh : Fresh (word :: ahead) cursor) : ∃ token rest, cursor.skip.rest = token :: rest ∧
    word = ⟨token.kind, token.text, rest.head?.any (!·.isTrivia)⟩ ∧ words rest = ahead := by
  have left := fresh.skip.sees
  cases shape : cursor.skip.rest with
  | nil => simp [shape, words] at left
  | cons token rest =>
    rw [shape, words_solid (Cursor.skip_solid shape)] at left
    obtain ⟨same, others⟩ := List.cons.inj left
    exact ⟨token, rest, rfl, same.symm, others⟩

private theorem Fresh.ended (fresh : Fresh [] cursor) : cursor.skip.rest = [] := by
  have left := fresh.skip.sees
  cases shape : cursor.skip.rest with
  | nil => rfl
  | cons token rest => simp [shape, words_solid (Cursor.skip_solid shape)] at left

/-- A reading that starts so reports nothing exactly if it has an outcome, and then has that one. -/
def Reading.Accepts {α : Type} (reading : Reading α) (start : Cursor → Prop) (outcome : α → List Word → Prop) : Prop :=
  ∀ cursor, start cursor →
    ((reading cursor).reports = [] → outcome (reading cursor).value (words (reading cursor).next.rest)) ∧
    ∀ value rest, outcome value rest →
      (reading cursor).reports = [] ∧ (reading cursor).value = value ∧ Fresh rest (reading cursor).next

namespace Reading.Accepts
open Reading

variable {α β : Type} {start : Cursor → Prop} {outcome : β → List Word → Prop} {known : α} {phrase : List Word → Prop}

theorem congr {reading : Reading β} {other : β → List Word → Prop} (accepts : reading.Accepts start outcome)
    (same : ∀ value rest, outcome value rest ↔ other value rest) : reading.Accepts start other := by
  intro cursor begun
  obtain ⟨quiet, silent⟩ := accepts cursor begun
  exact ⟨fun none => (same _ _).mp (quiet none), fun value rest holds => silent value rest ((same _ _).mpr holds)⟩

private theorem bind {first : Reading α} {second : α → Reading β} {between : α → List Word → Prop}
    {later : α → List Word → β → List Word → Prop} (before : first.Accepts start between)
    (after : ∀ value middle, between value middle → (second value).Accepts (Fresh middle) (later value middle)) :
    (first >>= second).Accepts start fun value rest =>
      ∃ answer middle, between answer middle ∧ later answer middle value rest := by
  intro cursor begun
  obtain ⟨quiet, silent⟩ := before cursor begun
  constructor
  · intro none
    obtain ⟨none, others⟩ := List.append_eq_nil_iff.mp none
    have holds := quiet none
    obtain ⟨_, _, fresh⟩ := silent _ _ holds
    exact ⟨_, _, holds, (after _ _ holds _ fresh).1 others⟩
  · rintro value rest ⟨answer, middle, holds, further⟩
    obtain ⟨none, rfl, fresh⟩ := silent answer middle holds
    obtain ⟨others, same, left⟩ := (after _ middle holds _ fresh).2 value rest further
    exact ⟨List.append_eq_nil_iff.mpr ⟨none, others⟩, same, left⟩

/-- A first step with one outcome leads to the second step. -/
theorem step {first : Reading α} {second : α → Reading β}
    (before : first.Accepts start fun answer left => answer = known ∧ left = middle)
    (after : (second known).Accepts (Fresh middle) outcome) : (first >>= second).Accepts start outcome := by
  have later : ∀ value left, value = known ∧ left = middle → (second value).Accepts (Fresh left) outcome := by
    rintro value left ⟨rfl, rfl⟩
    exact after
  refine (bind before later).congr fun value rest => ?_
  constructor
  · rintro ⟨_, _, _, holds⟩
    exact holds
  · intro holds
    exact ⟨known, middle, ⟨rfl, rfl⟩, holds⟩

theorem sequence {first : Reading Unit} {second : Reading β} {later : List Word → β → List Word → Prop}
    (before : first.Accepts start fun _ => phrase)
    (after : ∀ middle, phrase middle → second.Accepts (Fresh middle) (later middle)) :
    (do first; second : Reading β).Accepts start fun value rest => ∃ middle, phrase middle ∧ later middle value rest := by
  refine (bind before fun _ => after).congr fun value rest => ?_
  constructor
  · rintro ⟨_, middle, holds⟩
    exact ⟨middle, holds⟩
  · rintro ⟨middle, holds⟩
    exact ⟨(), middle, holds⟩

theorem pure (value : β) : (Pure.pure value : Reading β).Accepts (Fresh ahead) fun answer left =>
    answer = value ∧ left = ahead := by
  intro cursor fresh
  refine ⟨fun _ => ⟨rfl, fresh.sees⟩, ?_⟩
  rintro _ _ ⟨rfl, rfl⟩
  exact ⟨rfl, rfl, fresh⟩

theorem idle : (Pure.pure () : Reading Unit).Accepts (Fresh ahead) fun _ left => left = ahead :=
  (pure ()).congr fun _ _ => ⟨And.right, fun same => ⟨rfl, same⟩⟩

theorem move {change : Cursor → Cursor} (kept : ∀ cursor, Fresh ahead cursor → Fresh ahead (change cursor)) :
    (Reading.move change).Accepts (Fresh ahead) fun _ left => left = ahead := by
  intro cursor fresh
  refine ⟨fun _ => (kept cursor fresh).sees, ?_⟩
  rintro _ _ rfl
  exact ⟨rfl, rfl, kept cursor fresh⟩

theorem past {first : Reading Unit} {second : Reading β} (before : first.Accepts start fun _ left => left = middle)
    (after : second.Accepts (Fresh middle) outcome) : (do first; second : Reading β).Accepts start outcome :=
  step (before.congr fun answer _ => ⟨fun same => ⟨Subsingleton.elim answer (), same⟩, And.right⟩) after

theorem moving {change : Cursor → Cursor} {second : Reading β}
    (kept : ∀ cursor, Fresh ahead cursor → Fresh ahead (change cursor))
    (after : second.Accepts (Fresh ahead) outcome) :
    (do Reading.move change; second : Reading β).Accepts (Fresh ahead) outcome :=
  past (move kept) after

/-- What is asked about the place itself makes no difference. -/
theorem asking {question : Cursor → α} {second : α → Reading β}
    (after : ∀ answer, (second answer).Accepts (Fresh ahead) outcome) :
    (Reading.ask question >>= second).Accepts (Fresh ahead) outcome := by
  intro cursor fresh
  exact after (question cursor.skip) cursor.skip fresh.skip

private theorem ask {question : Cursor → α} (answers : ∀ cursor, Fresh ahead cursor → question cursor.skip = known) :
    (Reading.ask question).Accepts (Fresh ahead) fun answer left => answer = known ∧ left = ahead := by
  intro cursor fresh
  refine ⟨fun _ => ⟨answers cursor fresh, fresh.skip.sees⟩, ?_⟩
  rintro _ _ ⟨rfl, rfl⟩
  exact ⟨rfl, answers cursor fresh, fresh.skip⟩

theorem current : Reading.current.Accepts (Fresh ahead) fun answer left =>
    answer = ahead.head?.map Word.kind ∧ left = ahead := by
  refine moving (fun _ => Fresh.look) (ask fun cursor fresh => ?_)
  cases ahead with
  | nil => rw [fresh.ended]; rfl
  | cons word others =>
    obtain ⟨token, others, left, rfl, _⟩ := fresh.first
    rw [left]
    rfl

theorem lookahead (n : Nat) : (Reading.ahead n).Accepts (Fresh ahead) fun answer left =>
    answer = ahead[n]?.map Word.kind ∧ left = ahead := by
  refine moving (fun _ => Fresh.look) (ask fun cursor fresh => ?_)
  rw [kind_solid?, ← words_kinds, fresh.skip.sees, List.getElem?_map]

theorem atEnd : Reading.atEnd.Accepts (Fresh ahead) fun answer left => answer = ahead.isEmpty ∧ left = ahead := by
  refine ask fun cursor fresh => ?_
  cases ahead with
  | nil => rw [fresh.ended]; rfl
  | cons word others =>
    obtain ⟨token, rest, left, _⟩ := fresh.first
    rw [left]
    rfl

theorem currentText : Reading.currentText.Accepts (Fresh (word :: ahead)) fun answer left =>
    answer = word.text ∧ left = word :: ahead := by
  refine ask fun cursor fresh => ?_
  obtain ⟨token, rest, left, rfl, _⟩ := fresh.first
  rw [left]
  rfl

/-- What follows a token that is taken begins right after it. -/
theorem taking {second : Reading β} (after : second.Accepts (After word ahead) outcome) :
    (do Reading.take; second : Reading β).Accepts (Fresh (word :: ahead)) outcome := by
  intro cursor fresh
  obtain ⟨token, rest, left, rfl, others⟩ := fresh.first
  have taken := take_token left
  have begun : After ⟨token.kind, token.text, rest.head?.any (!·.isTrivia)⟩ ahead (Reading.take cursor).next := by
    rw [taken]
    exact ⟨⟨fresh.shallow, fresh.unreported, others⟩, fun kind solid => others ▸ words_adjoin solid rest⟩
  have none : (Reading.take cursor).reports = [] := by rw [taken]
  obtain ⟨quiet, silent⟩ := after _ begun
  constructor
  · intro reports
    exact quiet (List.append_eq_nil_iff.mp reports).2
  · intro value rest holds
    obtain ⟨reports, same, left⟩ := silent value rest holds
    exact ⟨List.append_eq_nil_iff.mpr ⟨none, reports⟩, same, left⟩

/-- A reading that may start anywhere may start right after a token. -/
theorem after {reading : Reading β} (accepts : reading.Accepts (Fresh ahead) outcome) :
    reading.Accepts (After last ahead) outcome :=
  fun cursor begun => accepts cursor begun.toFresh

theorem take : Reading.take.Accepts (Fresh (word :: ahead)) fun _ left => left = ahead := by
  have last : (do Reading.take; Pure.pure () : Reading Unit).Accepts (Fresh (word :: ahead)) fun _ left => left = ahead :=
    taking (after idle)
  intro cursor fresh
  simpa [Bind.bind, Reading.bind, Pure.pure, Reading.pure] using last cursor fresh

theorem adjacent {second : Option TokenKind → Reading β}
    (after : ∀ found, (∀ kind : TokenKind, kind.isTrivia = false →
      (found = some kind ↔ last.joined = true ∧ begins (· = kind) ahead = true)) →
      (second found).Accepts (After last ahead) outcome) :
    (Reading.adjacent >>= second).Accepts (After last ahead) outcome := by
  intro cursor begun
  exact after (cursor.rest.head?.map Token.kind) begun.adjoins cursor.look begun.look

theorem takeIf_taken {kind : TokenKind} (same : word.kind = kind) :
    (takeIf kind).Accepts (Fresh (word :: ahead)) fun taken left => taken = true ∧ left = ahead := by
  refine step current ?_
  rw [List.head?_cons, Option.map_some, if_pos (congrArg some same)]
  exact taking (after (pure true))

theorem takeIf_left {kind : TokenKind} (other : begins (· = kind) ahead = false) :
    (takeIf kind).Accepts (Fresh ahead) fun taken left => taken = false ∧ left = ahead := by
  have elsewhere : ahead.head?.map Word.kind ≠ some kind := fun here => by simp [head?_kind_iff.mp here] at other
  refine step current ?_
  rw [if_neg elsewhere]
  exact pure false

theorem expect {kind : TokenKind} (same : word.kind = kind) :
    (expect kind).Accepts (Fresh (word :: ahead)) fun _ left => left = word :: ahead := by
  refine step current ?_
  rw [List.head?_cons, Option.map_some, if_pos (congrArg some same)]
  exact idle

theorem assoc {γ : Type} {first : Reading γ} {second : γ → Reading α} {third : α → Reading β}
    (whole : (first >>= fun value => second value >>= third).Accepts start outcome) :
    ((first >>= second) >>= third).Accepts start outcome := by
  intro cursor begun
  have same : (((first >>= second) >>= third) cursor).reports =
      ((first >>= fun value => second value >>= third) cursor).reports := List.append_assoc ..
  obtain ⟨quiet, silent⟩ := whole cursor begun
  constructor
  · intro none
    exact quiet (same ▸ none)
  · intro value rest holds
    obtain ⟨none, answer, left⟩ := silent value rest holds
    exact ⟨same.trans none, answer, left⟩

theorem node {kind : NodeKind} {body : Reading Unit} {outcome : Unit → List Word → Prop}
    (inside : body.Accepts (Fresh middle) outcome) : (Reading.node kind body).Accepts (Fresh middle) outcome :=
  fun cursor fresh => inside { cursor with waiting := [] } fresh.unplaced

/-- What has to report accepts nothing. -/
theorem report (found : Report) : (Reading.report found).Accepts (Fresh ahead) fun _ _ => False := by
  intro cursor fresh
  have told : (Reading.report found cursor).reports = [found] := by
    simp [Reading.report, fresh.shallow, fresh.unreported]
  exact ⟨fun none => by simp [told] at none, fun _ _ => False.elim⟩

theorem reportLast (found : Report) : (Reading.reportLast found).Accepts (Fresh ahead) fun _ _ => False := by
  refine fun cursor _ => ⟨fun none => ?_, fun _ _ => False.elim⟩
  cases none

theorem reporting {first : Reading Unit} {second : Reading β} (loud : first.Accepts start fun _ _ => False) :
    (do first; second : Reading β).Accepts start fun _ _ => False := by
  have never : ∀ middle : List Word, False → second.Accepts (Fresh middle) fun _ _ => False := fun _ => False.elim
  refine (sequence loud never).congr fun _ _ => ?_
  exact ⟨fun ⟨_, told, _⟩ => told, False.elim⟩

theorem unlessExhausted {reading : Reading Unit} {outcome : Unit → List Word → Prop}
    (inside : reading.Accepts (Fresh ahead) outcome) : (Reading.unlessExhausted reading).Accepts (Fresh ahead) outcome := by
  intro cursor fresh
  have shallow : ¬ cursor.exhausted = true := by simp [fresh.shallow]
  rw [Reading.unlessExhausted, if_neg shallow]
  exact inside cursor fresh

/-- A loop accepts what its steps accept one after the other, up to where a step says that it is
over. Every step that goes on uses up words. -/
theorem repeatWhile {reading : Reading Bool} {part : Phrase} {stopped : List Word → Prop} (forward : Obeys Advances reading)
    (shrinks : ∀ ahead rest, part ahead rest → rest.length < ahead.length)
    (once : ∀ ahead, reading.Accepts (Fresh ahead) fun again left =>
      if again = true then part ahead left else stopped ahead ∧ left = ahead) :
    (Reading.repeatWhile reading).Accepts (Fresh ahead) fun _ left =>
      Relation.ReflTransGen part ahead left ∧ stopped left := by
  have moved {cursor : Cursor} {ahead rest : List Word} (fresh : Fresh ahead cursor) (onward : part ahead rest)
      (left : Fresh rest (reading cursor).next) : (reading cursor).next.rest.length < cursor.rest.length := by
    apply Nat.lt_of_le_of_ne (forward cursor).length_le
    intro same
    have equal := (forward cursor).eq_of_length same
    have fewer := shrinks ahead rest onward
    rw [← left.sees, equal, fresh.sees] at fewer
    exact Nat.lt_irrefl _ fewer
  intro cursor fresh
  constructor
  · induction size : cursor.rest.length using Nat.strongRecOn generalizing cursor ahead with
    | ind size ih =>
      obtain ⟨quiet, silent⟩ := once ahead cursor fresh
      rw [Reading.repeatWhile]
      cases again : (reading cursor).value with
      | false =>
        intro none
        obtain ⟨stops, same⟩ : stopped ahead ∧ words (reading cursor).next.rest = ahead := by
          simpa [again] using quiet (by simpa using none)
        exact ⟨by simpa [same] using Relation.ReflTransGen.refl, by simpa [same] using stops⟩
      | true =>
        simp only [Bool.true_eq_false, if_false]
        split
        next shorter =>
          intro none
          obtain ⟨none, others⟩ := List.append_eq_nil_iff.mp none
          have holds := quiet none
          obtain ⟨_, _, left⟩ := silent _ _ holds
          have onward : part ahead (words (reading cursor).next.rest) := by simpa [again] using holds
          obtain ⟨parts, stops⟩ := ih _ (size ▸ shorter) (reading cursor).next left rfl others
          exact ⟨.head onward parts, stops⟩
        next stuck =>
          intro none
          have holds := quiet none
          obtain ⟨_, _, left⟩ := silent _ _ holds
          have onward : part ahead (words (reading cursor).next.rest) := by simpa [again] using holds
          exact absurd (moved fresh onward left) stuck
  · rintro _ rest ⟨parts, stops⟩
    induction parts using Relation.ReflTransGen.head_induction_on generalizing cursor with
    | refl =>
      obtain ⟨none, ended, left⟩ := (once rest cursor fresh).2 false rest (by simpa using stops)
      rw [Reading.repeatWhile, if_pos ended]
      exact ⟨none, rfl, left⟩
    | head onward _ ih =>
      obtain ⟨none, again, left⟩ := (once _ cursor fresh).2 true _ (by simpa using onward)
      obtain ⟨others, _, last⟩ := ih _ left
      rw [Reading.repeatWhile, if_neg (by simp [again]), dif_pos (moved fresh onward left)]
      exact ⟨List.append_eq_nil_iff.mpr ⟨none, others⟩, rfl, last⟩

end Reading.Accepts

end TreeQuery.Syntax
