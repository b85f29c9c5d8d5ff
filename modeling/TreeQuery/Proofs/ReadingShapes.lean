import Mathlib.Data.List.TakeWhile
import TreeQuery.Proofs.ReadingOutcome
import TreeQuery.Proofs.TreeShapes

/-! Readings that place trees of a given shape. A shape is made up as the reading is: one part for each
step, in the same order. Once nesting went too deep nothing more is placed, so that what was placed
last stays last. -/

namespace TreeQuery.Syntax
open Shape
open Diagnostic (Report)

/-- Solid tokens of these kinds are ahead, and only trivia waits. Once nesting went too deep, nothing
is ahead. -/
structure Sees (ahead : List TokenKind) (cursor : Cursor) : Prop where
  kinds : solidKinds cursor.rest = ahead
  blank : ∀ token ∈ cursor.waiting, token.isTrivia = true
  spent : cursor.exhausted = true → ahead = []

/-- No trivia is right ahead. -/
def Abuts (cursor : Cursor) : Prop := cursor.rest.takeWhile Token.isTrivia = []

/-- Reports are not taken back, nor is it that nesting went too deep. -/
structure Worsens (before after : Cursor) : Prop where
  reported : before.reported.isSome = true → after.reported.isSome = true
  exhausted : before.exhausted = true → after.exhausted = true

private theorem Worsens.refl (cursor : Cursor) : Worsens cursor cursor := ⟨id, id⟩

private theorem Worsens.trans {before middle after : Cursor} (first : Worsens before middle) (second : Worsens middle after) :
    Worsens before after := ⟨second.reported ∘ first.reported, second.exhausted ∘ first.exhausted⟩

theorem worsens : Law fun cursor _ _ next => Worsens cursor next where
  stay := .refl
  chain := .trans
  note _ _ _ _ := ⟨id, id⟩
  skip _ := ⟨id, id⟩
  place _ := ⟨id, id⟩
  token _ _ _ _ _ _ := ⟨id, id⟩
  around _ _ _ _ _ _ inside := inside
  found _ _ _ _ := ⟨fun _ => rfl, id⟩
  last _ _ _ _ := ⟨id, fun _ => rfl⟩

variable {kind : TokenKind} {ahead : List TokenKind} {cursor : Cursor}

theorem Cursor.look_eq (cursor : Cursor) : ∃ fault, cursor.look = { cursor with looks := cursor.looks + 1, fault } := by
  unfold Cursor.look
  split <;> exact ⟨_, rfl⟩

theorem Cursor.skip_blank (blank : ∀ token ∈ cursor.waiting, token.isTrivia = true) :
    ∀ token ∈ cursor.skip.waiting, token.isTrivia = true := by
  intro token member
  rcases List.mem_append.mp member with before | after
  · exact blank token before
  · exact List.mem_takeWhile_imp after

theorem row_tokens (tokens : List Token) : row (tokens.map .leaf) = (solidKinds tokens).map .token := by
  induction tokens with
  | nil => rfl
  | cons token rest ih =>
    have first : row [.leaf token] = (solidKinds [token]).map .token := by
      cases blank : token.isTrivia with
      | true =>
        have all : ∀ other ∈ [token], other.isTrivia = true := by simpa using blank
        rw [solidKinds_blank all]
        exact row_blanks all
      | false =>
        rw [row_solid blank]
        simp [solidKinds, blank]
    calc row (.leaf token :: rest.map .leaf)
      _ = row [.leaf token] ++ row (rest.map .leaf) := row_append [_] _
      _ = (solidKinds [token] ++ solidKinds rest).map .token := by rw [first, ih, List.map_append]
      _ = (solidKinds (token :: rest)).map .token := by rw [← solidKinds_append]; rfl

private theorem solidTokens_mem (solid : kind.isTrivia = false) : .token kind ∈ solidTokens := by
  refine List.mem_map.mpr ⟨kind, List.mem_filter.mpr ⟨?_, by rw [solid]; rfl⟩, rfl⟩
  cases kind <;> decide

private theorem solidKinds_solid {tokens : List Token} (member : kind ∈ solidKinds tokens) : kind.isTrivia = false := by
  obtain ⟨token, among, rfl⟩ := List.mem_map.mp member
  simpa [Token.isTrivia] using (List.mem_filter.mp among).2

namespace Sees

theorem solid (sees : Sees ahead cursor) (member : kind ∈ ahead) : .token kind ∈ solidTokens := by
  rw [← sees.kinds] at member
  exact solidTokens_mem (solidKinds_solid member)

theorem awake (sees : Sees (kind :: ahead) cursor) : cursor.exhausted = false := by
  apply Bool.eq_false_iff.mpr
  intro exhausted
  cases sees.spent exhausted

theorem noted (sees : Sees ahead cursor) (looks : Nat) (fault : Option Fault) :
    Sees ahead { cursor with looks, fault } := ⟨sees.kinds, sees.blank, sees.spent⟩

theorem unplaced (sees : Sees ahead cursor) : Sees ahead { cursor with waiting := [] } :=
  ⟨sees.kinds, nofun, sees.spent⟩

theorem skip (sees : Sees ahead cursor) : Sees ahead cursor.skip :=
  ⟨(solidKinds_dropWhile _).trans sees.kinds, Cursor.skip_blank sees.blank, sees.spent⟩

theorem look (sees : Sees ahead cursor) : Sees ahead cursor.look := by
  obtain ⟨fault, same⟩ := cursor.look_eq
  rw [same]
  exact sees.noted _ fault

end Sees

private theorem Worsens.look (cursor : Cursor) : Worsens cursor cursor.look := by
  obtain ⟨fault, same⟩ := cursor.look_eq
  rw [same]
  exact ⟨id, id⟩

theorem Abuts.skip (cursor : Cursor) : Abuts cursor.skip := by
  have twice : (cursor.rest.dropWhile Token.isTrivia).takeWhile Token.isTrivia = [] := by
    apply List.eq_nil_iff_forall_not_mem.mpr
    intro token member
    cases left : cursor.skip.rest with
    | nil =>
      have none : cursor.rest.dropWhile Token.isTrivia = [] := left
      rw [none] at member
      cases member
    | cons first rest =>
      have some : cursor.rest.dropWhile Token.isTrivia = first :: rest := left
      rw [some, List.takeWhile_cons_of_neg (by simp [Cursor.skip_solid left])] at member
      cases member
  exact twice

namespace Reading

/-- What a reading places: trees of the shape, all nodes in them well made. -/
structure Writes {α : Type} (reading : Reading α) (room : Nat) (cursor : Cursor) (part : RegularExpression Kind) : Prop where
  fits : row (reading cursor).trees ∈ part.matches'
  formed : Formed ((reading cursor).next.reported.isSome = true) room ((reading cursor).next.exhausted = true)
    (reading cursor).trees
  sees : ∃ later, Sees later (reading cursor).next
  worsens : Worsens cursor (reading cursor).next
  spent : cursor.exhausted = true → row (reading cursor).trees = []

/-- Every tree placed is such. -/
def Each {α : Type} (holds : Tree → Prop) (reading : Reading α) (cursor : Cursor) : Prop :=
  ∀ tree ∈ (reading cursor).trees, holds tree

variable {α β : Type} {room : Nat} {first : Reading α} {second : α → Reading β}
  {part rest whole : RegularExpression Kind} {holds : Tree → Prop}

namespace Each

theorem none {reading : Reading α} (quiet : (reading cursor).trees = []) : reading.Each holds cursor := by
  intro tree member
  rw [quiet] at member
  cases member

theorem bind (before : first.Each holds cursor)
    (after : (second (first cursor).value).Each holds (first cursor).next) : (first >>= second).Each holds cursor := by
  intro tree member
  rcases List.mem_append.mp member with placed | later
  · exact before tree placed
  · exact after tree later

theorem take (tokens : ∀ token, holds (.leaf token)) : take.Each holds cursor := by
  cases left : cursor.skip.rest with
  | nil => exact none (by rw [take_at_end left])
  | cons token rest =>
    intro tree member
    rw [take_token left] at member
    obtain ⟨token, _, rfl⟩ := List.mem_map.mp member
    exact tokens token

theorem repeatWhile {step : Reading Bool} (once : ∀ cursor, step.Each holds cursor) (cursor : Cursor) :
    (repeatWhile step).Each holds cursor := by
  induction left : cursor.rest.length using Nat.strongRecOn generalizing cursor with
  | ind size ih =>
    rw [Each, Reading.repeatWhile]
    split
    · exact once cursor
    · split
      next shorter =>
        intro tree member
        rcases List.mem_append.mp member with placed | later
        · exact once cursor tree placed
        · exact ih _ (left ▸ shorter) _ rfl tree later
      next => exact once cursor

/-- A token with no trivia in front of it. -/
theorem takeAlone (unplaced : cursor.waiting = []) (abuts : Abuts cursor) :
    Reading.take.Each (·.kind.isTrivia = false) cursor := by
  cases left : cursor.skip.rest with
  | nil => exact none (by rw [take_at_end left])
  | cons token rest =>
    have blank : cursor.skip.waiting = [] := by
      change cursor.waiting ++ cursor.rest.takeWhile Token.isTrivia = []
      rw [unplaced, abuts]
      rfl
    intro tree member
    rw [take_token left, blank] at member
    cases List.mem_singleton.mp member
    exact Cursor.skip_solid left

end Each

/-- The next token is placed after the trivia before it. -/
theorem take_places (sees : Sees (kind :: ahead) cursor) :
    ∃ (blanks : List Token) (token : Token), (take cursor).trees = blanks.map .leaf ++ [.leaf token] ∧
      (∀ blank ∈ blanks, blank.isTrivia = true) ∧ token.kind = kind ∧ token.isTrivia = false ∧
      cursor.skip.rest.head? = some token := by
  obtain ⟨token, rest, left, same, _⟩ := Cursor.first sees.kinds
  refine ⟨cursor.skip.waiting, token, ?_, sees.skip.blank, same, Cursor.skip_solid left, by rw [left]; rfl⟩
  rw [take_token left, List.map_append]
  rfl

theorem take_sees (sees : Sees (kind :: ahead) cursor) :
    take.Ensures cursor fun _ next => Sees ahead next ∧ Worsens cursor next ∧ next.exhausted = false ∧ next.waiting = [] := by
  obtain ⟨token, rest, left, _, kinds⟩ := Cursor.first sees.kinds
  have awake : cursor.exhausted = false := sees.awake
  rw [Ensures, take_token left]
  refine ⟨⟨kinds, fun token placed => ?_, fun exhausted => ?_⟩, ⟨id, id⟩, awake, rfl⟩
  · cases placed
  · cases awake.symm.trans exhausted

theorem report_quiet (found : Report) (cursor : Cursor) : (report found cursor).trees = [] := by
  unfold report
  split <;> rfl

theorem report_sees (found : Report) (sees : Sees ahead cursor) :
    (report found).Ensures cursor fun _ next =>
      Sees ahead next ∧ Worsens cursor next ∧ (cursor.exhausted = false → next.reported.isSome = true) := by
  unfold Ensures report
  split
  next ignored =>
    refine ⟨sees, .refl cursor, fun awake => ?_⟩
    have before : cursor.reported = some found.span.start := by simpa [awake] using ignored
    rw [before]
    rfl
  next => exact ⟨⟨sees.kinds, sees.blank, sees.spent⟩, ⟨fun _ => rfl, id⟩, fun _ => rfl⟩

namespace Each

theorem taking {second : Reading β} (tokens : ∀ token, holds (.leaf token)) (sees : Sees (kind :: ahead) cursor)
    (later : ∀ next, Sees ahead next → second.Each holds next) :
    (do Reading.take; second : Reading β).Each holds cursor :=
  .bind (.take tokens) (later _ (take_sees sees).1)

theorem looking {second : Option TokenKind → Reading β} (sees : Sees ahead cursor)
    (later : ∀ next, Sees ahead next → (second ahead.head?).Each holds next) :
    (current >>= second).Each holds cursor := by
  have found : (current cursor).value = ahead.head? := Cursor.head?_kind sees.look.kinds
  refine bind (none rfl) ?_
  rw [found]
  exact later _ sees.look.skip

theorem expecting {second : Reading β} (sees : Sees ahead cursor)
    (later : ∀ next, Sees ahead next → second.Each holds next) :
    (do expect kind; second : Reading β).Each holds cursor := by
  change (current >>= fun found =>
    (if found = some kind then Pure.pure () else move (·.failed (.unexpected kind))) >>= fun _ => second).Each holds cursor
  refine looking sees fun next sees => ?_
  split
  · exact bind (none rfl) (later next sees)
  · exact bind (none rfl) (later _ (sees.noted _ _))

end Each

namespace Writes

theorem weaken {reading : Reading α} (writes : reading.Writes room cursor part)
    (within : ∀ word ∈ part.matches', word ∈ whole.matches') : reading.Writes room cursor whole :=
  ⟨within _ writes.fits, writes.formed, writes.sees, writes.worsens, writes.spent⟩

theorem among {reading : Reading α} {kind : Kind} {kinds : List Kind} (writes : reading.Writes room cursor (.char kind))
    (known : kind ∈ kinds) : reading.Writes room cursor (oneOf kinds) :=
  writes.weaken fun _ single => mem_oneOf.mpr ⟨kind, known, single⟩

/-- Only what is placed and where the reading ends count. -/
private theorem congr {reading : Reading α} {other : Reading β} (writes : reading.Writes room cursor part)
    (trees : (other cursor).trees = (reading cursor).trees) (next : (other cursor).next = (reading cursor).next) :
    other.Writes room cursor part := by
  refine ⟨?_, ?_, ?_, ?_, ?_⟩
  · rw [trees]
    exact writes.fits
  · rw [trees, next]
    exact writes.formed
  · rw [next]
    exact writes.sees
  · rw [next]
    exact writes.worsens
  · rw [trees]
    exact writes.spent

theorem silent {reading : Reading α} (quiet : (reading cursor).trees = []) (sees : Sees ahead (reading cursor).next)
    (worsens : Worsens cursor (reading cursor).next) : reading.Writes room cursor 1 := by
  refine ⟨?_, ?_, ⟨_, sees⟩, worsens, fun _ => by rw [quiet]; rfl⟩
  · rw [quiet]
    rfl
  · rw [quiet]
    exact .nil

theorem pure (sees : Sees ahead cursor) (value : α) : (Pure.pure value : Reading α).Writes room cursor 1 :=
  silent rfl sees (.refl _)

/-- What is placed later does not come after what is deep: by then nothing is placed. -/
theorem next (before : first.Writes room cursor part)
    (after : (second (first cursor).value).Writes room (first cursor).next rest) :
    (first >>= second).Writes room cursor (part * rest) := by
  have joined : row ((first >>= second) cursor).trees =
      row (first cursor).trees ++ row (second (first cursor).value (first cursor).next).trees := row_append ..
  refine ⟨?_, ?_, after.sees, before.worsens.trans after.worsens, fun exhausted => ?_⟩
  · rw [joined]
    exact append_mem before.fits after.fits
  · apply Formed.append _ after.formed
    apply before.formed.weaken after.worsens.reported
    intro exhausted
    exact ⟨after.worsens.exhausted exhausted, after.spent exhausted⟩
  · rw [joined, before.spent exhausted, after.spent (before.worsens.exhausted exhausted)]
    rfl

theorem bind (before : first.Writes room cursor part)
    (after : ∀ value next ahead, Sees ahead next → (second value).Writes room next rest) :
    (first >>= second).Writes room cursor (part * rest) := by
  obtain ⟨ahead, sees⟩ := before.sees
  exact before.next (after _ _ ahead sees)

/-- What comes last places nothing. -/
theorem idle (before : first.Writes room cursor part)
    (after : ∀ value next ahead, Sees ahead next → (second value).Writes room next 1) :
    (first >>= second).Writes room cursor part := by
  refine (before.bind after).weaken fun word member => ?_
  obtain ⟨word, fits, _, rfl, rfl⟩ := mem_seq.mp member
  rwa [List.append_nil]

/-- A step that places nothing. -/
theorem after (quiet : (first cursor).trees = []) (worsens : Worsens cursor (first cursor).next)
    (later : (second (first cursor).value).Writes room (first cursor).next whole) :
    (first >>= second).Writes room cursor whole := by
  have same : ((first >>= second) cursor).trees = (second (first cursor).value (first cursor).next).trees := by
    change (first cursor).trees ++ _ = _
    rw [quiet]
    rfl
  refine ⟨?_, ?_, later.sees, worsens.trans later.worsens, fun exhausted => ?_⟩
  · rw [same]
    exact later.fits
  · rw [same]
    exact later.formed
  · rw [same]
    exact later.spent (worsens.exhausted exhausted)

theorem asking {question : Cursor → α} (sees : Sees ahead cursor)
    (later : ∀ answer next, Sees ahead next → Abuts next → (second answer).Writes room next whole) :
    (ask question >>= second).Writes room cursor whole :=
  after rfl ⟨id, id⟩ (later _ _ sees.skip (.skip cursor))

theorem looking {second : Option TokenKind → Reading β} (sees : Sees ahead cursor)
    (later : ∀ next, Sees ahead next → Abuts next → (second ahead.head?).Writes room next whole) :
    (current >>= second).Writes room cursor whole := by
  have found : (current cursor).value = ahead.head? := Cursor.head?_kind sees.look.kinds
  apply after rfl ⟨(Worsens.look cursor).reported, (Worsens.look cursor).exhausted⟩
  rw [found]
  exact later _ sees.look.skip (.skip _)

theorem glancing {second : Option TokenKind → Reading β} (n : Nat) (sees : Sees ahead cursor)
    (later : ∀ next, Sees ahead next → (second ahead[n]?).Writes room next whole) :
    (Reading.ahead n >>= second).Writes room cursor whole := by
  have found : (Reading.ahead n cursor).value = ahead[n]? := by
    rw [← sees.look.skip.kinds]
    exact kind_solid? n _
  apply after rfl ⟨(Worsens.look cursor).reported, (Worsens.look cursor).exhausted⟩
  rw [found]
  exact later _ sees.look.skip

/-- A token that follows immediately and is not trivia is the next solid one. -/
theorem adjoining {second : Option TokenKind → Reading β} (sees : Sees ahead cursor)
    (later : ∀ found next, Sees ahead next →
      (∀ kind, found = some kind → kind.isTrivia = false → ∃ rest, ahead = kind :: rest) →
        (second found).Writes room next whole) :
    (adjacent >>= second).Writes room cursor whole := by
  apply after rfl (Worsens.look cursor)
  apply later _ _ sees.look
  intro kind found solid
  obtain ⟨token, first, rfl⟩ := Option.map_eq_some_iff.mp found
  obtain ⟨rest, left⟩ := List.head?_eq_some_iff.mp first
  refine ⟨solidKinds rest, sees.kinds.symm.trans ?_⟩
  simp [left, solidKinds, Token.isTrivia, solid]

theorem ending {second : Bool → Reading β} (sees : Sees ahead cursor)
    (later : ∀ next, Sees ahead next → Worsens cursor next → (second ahead.isEmpty).Writes room next whole) :
    (atEnd >>= second).Writes room cursor whole := by
  have found : (atEnd cursor).value = ahead.isEmpty := by
    change cursor.skip.rest.isEmpty = ahead.isEmpty
    cases ahead with
    | nil =>
      rw [Cursor.ended sees.kinds]
      rfl
    | cons kind ahead =>
      obtain ⟨token, rest, left, _⟩ := Cursor.first sees.kinds
      rw [left]
      rfl
  apply after rfl ⟨id, id⟩
  rw [found]
  exact later _ sees.skip ⟨id, id⟩

theorem take (sees : Sees (kind :: ahead) cursor) : Reading.take.Writes room cursor (token kind) := by
  obtain ⟨blanks, token, placed, blank, same, solid, _⟩ := take_places sees
  obtain ⟨later, worsens, _⟩ := take_sees sees
  refine ⟨?_, ?_, ⟨_, later⟩, worsens, fun exhausted => ?_⟩
  · rw [placed, row_append, row_blanks blank, row_solid solid, same]
    exact mem_char.mpr rfl
  · rw [placed]
    exact (Formed.leaves blanks).append (.leaf token .nil)
  · cases sees.awake.symm.trans exhausted

theorem taking {second : Reading β} (sees : Sees (kind :: ahead) cursor)
    (later : ∀ next, Sees ahead next → next.exhausted = false → second.Writes room next rest) :
    (do Reading.take; second : Reading β).Writes room cursor (token kind * rest) := by
  obtain ⟨sees', _, awake, _⟩ := take_sees sees
  exact (take sees).next (later _ sees' awake)

theorem takingIf {second : Bool → Reading β} (sees : Sees ahead cursor)
    (taken : ∀ next later, ahead = kind :: later → Sees later next → (second true).Writes room next part)
    (left : ∀ next, Sees ahead next → ahead.head? ≠ some kind → (second false).Writes room next whole)
    (within : ∀ word ∈ part.matches', .token kind :: word ∈ whole.matches') :
    (takeIf kind >>= second).Writes room cursor whole := by
  change (current >>= fun found =>
    (if found = some kind then do Reading.take; Pure.pure true else Pure.pure false) >>= second).Writes room cursor whole
  refine looking sees fun next sees _ => ?_
  split
  next here =>
    obtain ⟨later, rfl⟩ := List.head?_eq_some_iff.mp here
    have first : (do Reading.take; Pure.pure true : Reading Bool).Writes room next (token kind * 1) :=
      taking sees fun next sees _ => pure sees true
    obtain ⟨sees, _⟩ := take_sees sees
    refine (first.next (taken _ later rfl sees)).weaken fun word member => ?_
    obtain ⟨_, ⟨_, rfl, _, rfl, rfl⟩, word, follows, rfl⟩ := mem_seq.mp member
    exact within word follows
  next other => exact after rfl (.refl _) (left next sees other)

/-- An optional token. What is done without it places nothing. -/
theorem takingOptional {other : Reading Unit} (sees : Sees ahead cursor)
    (left : ∀ next, Sees ahead next → other.Writes room next 1) :
    (do unless ← takeIf kind do other : Reading Unit).Writes room cursor (maybe (token kind)) := by
  refine takingIf sees (fun next later _ sees => pure sees ()) (fun next sees _ => ?_) ?_
  · exact (left next sees).weaken fun word empty => .inl empty
  · intro word empty
    cases empty
    exact .inr rfl

theorem report (found : Report) (sees : Sees ahead cursor) : (report found).Writes room cursor 1 :=
  silent (report_quiet found cursor) (report_sees found sees).1 (report_sees found sees).2.1

/-- After a report something is reported, be it this or the one before it. -/
theorem reporting {second : Reading β} (found : Report) (sees : Sees ahead cursor) (awake : cursor.exhausted = false)
    (later : ∀ next, Sees ahead next → next.reported.isSome = true → second.Writes room next whole) :
    (do Reading.report found; second : Reading β).Writes room cursor whole := by
  obtain ⟨after', worsens, noted⟩ := report_sees found sees
  exact after (report_quiet found cursor) worsens (later _ after' (noted awake))

theorem expecting {second : Reading β} (sees : Sees ahead cursor)
    (later : ∀ next, Sees ahead next → second.Writes room next whole) :
    (do expect kind; second : Reading β).Writes room cursor whole := by
  change (current >>= fun found =>
    (if found = some kind then Pure.pure () else move (·.failed (.unexpected kind))) >>= fun _ => second).Writes
      room cursor whole
  refine looking sees fun next sees _ => ?_
  split
  · exact after rfl (.refl _) (later next sees)
  · exact after rfl ⟨id, id⟩ (later _ (sees.noted _ _))

theorem node {kind : NodeKind} {body : Reading Unit} (sees : Sees ahead cursor) (awake : cursor.exhausted = false)
    (inside : body.Writes (kind.inside room) { cursor with waiting := [] } part)
    (made : Wellmade ((body { cursor with waiting := [] }).next.reported.isSome = true) room
      ((body { cursor with waiting := [] }).next.exhausted = true) kind (body { cursor with waiting := [] }).trees) :
    (node kind body).Writes room cursor (Shape.node kind) := by
  refine ⟨?_, ?_, inside.sees, ⟨inside.worsens.reported, inside.worsens.exhausted⟩, fun exhausted => ?_⟩
  · rw [Reading.node, row_append, row_blanks sees.blank]
    rfl
  · apply (Formed.leaves cursor.waiting).append
    exact .node (made.weaken id (⟨·, rfl⟩)) (inside.formed.weaken id (⟨·, rfl⟩)) .nil
  · cases awake.symm.trans exhausted

theorem plain {kind : NodeKind} {body : Reading Unit} (plain : kind.isPlain = true)
    (invokes : kind = .predicate → 0 < room) (sees : Sees ahead cursor) (awake : cursor.exhausted = false)
    (inside : body.Writes room { cursor with waiting := [] } (shape false kind)) :
    (Reading.node kind body).Writes room cursor (Shape.node kind) := by
  have level : kind.inside room = room := by
    cases kind with
    | namedNode | grouping | list | fieldDefinition => cases plain
    | _ => rfl
  exact node sees awake (level.symm ▸ inside) (.plain plain invokes inside.fits)

theorem unlessExhausted {reading : Reading Unit} (awake : cursor.exhausted = false)
    (inside : reading.Writes room cursor whole) : (unlessExhausted reading).Writes room cursor whole := by
  have same : Reading.unlessExhausted reading cursor = reading cursor := if_neg (by rw [awake]; exact Bool.false_ne_true)
  exact inside.congr (congrArg Step.trees same) (congrArg Step.next same)

theorem repeatWhile {step : Reading Bool} {kinds : List Kind}
    (once : ∀ {ahead cursor}, Sees ahead cursor → step.Writes room cursor (many kinds)) (sees : Sees ahead cursor) :
    (repeatWhile step).Writes room cursor (many kinds) := by
  induction left : cursor.rest.length using Nat.strongRecOn generalizing ahead cursor with
  | ind size ih =>
    have begun := once sees
    by_cases ended : (step cursor).value = false
    · apply begun.congr
      · rw [Reading.repeatWhile, if_pos ended]
      · rw [Reading.repeatWhile, if_pos ended]
    by_cases shorter : (step cursor).next.rest.length < cursor.rest.length
    · obtain ⟨later, seen⟩ := begun.sees
      have again : (Reading.repeatWhile step).Writes room (step cursor).next (many kinds) :=
        ih _ (left ▸ shorter) seen rfl
      have both : (do let _ ← step; Reading.repeatWhile step : Reading Unit).Writes room cursor (many kinds * many kinds) :=
        begun.next again
      apply (both.weaken many_many).congr
      · rw [Reading.repeatWhile, if_neg ended, dif_pos shorter]
        rfl
      · rw [Reading.repeatWhile, if_neg ended, dif_pos shorter]
        rfl
    · have failing : (do let _ ← step; move (·.failed .endless) : Reading Unit).Writes room cursor (many kinds) :=
        begun.idle fun _ next _ sees => silent rfl (sees.noted next.looks _) ⟨id, id⟩
      apply failing.congr
      · rw [Reading.repeatWhile, if_neg ended, dif_neg shorter]
        exact (List.append_nil _).symm
      · rw [Reading.repeatWhile, if_neg ended, dif_neg shorter]
        rfl

end Writes

end Reading

end TreeQuery.Syntax
