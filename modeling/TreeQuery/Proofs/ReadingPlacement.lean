import TreeQuery.Proofs.ReadingLaw

/-! Which trees a reading makes of given tokens. This is for texts without blank space and without
errors, such as those that completion inserts; whatever was looked at or reported before makes
no difference to the trees. -/

namespace TreeQuery.Syntax
open Diagnostic (Report)

/-- These tokens are left, none of them trivia, nothing waits, and nesting never went too deep. -/
structure Ready (tokens : List Token) (cursor : Cursor) : Prop where
  placed : cursor.waiting = []
  left : cursor.rest = tokens
  solid : ∀ token ∈ tokens, token.isTrivia = false
  shallow : cursor.exhausted = false

/-- A reading of these tokens gives this answer and these trees, and leaves the rest. -/
def Reading.Places {α : Type} (reading : Reading α) (tokens : List Token) (answer : α) (trees : List Tree)
    (rest : List Token) : Prop :=
  ∀ cursor, Ready tokens cursor →
    (reading cursor).value = answer ∧ (reading cursor).trees = trees ∧ Ready rest (reading cursor).next

variable {tokens middle rest : List Token} {token : Token} {cursor : Cursor}

theorem Ready.skip (ready : Ready tokens cursor) : cursor.skip = cursor := by
  have all : ∀ token ∈ cursor.rest, token.isTrivia = false := ready.left ▸ ready.solid
  unfold Cursor.skip
  cases cursor with
  | mk offset waiting left looks reported exhausted fault =>
    cases left with
    | nil => simp
    | cons first others => simp [all first List.mem_cons_self]

private theorem Ready.look (ready : Ready tokens cursor) : Ready tokens cursor.look := by
  unfold Cursor.look
  split <;> exact ⟨ready.placed, ready.left, ready.solid, ready.shallow⟩

namespace Reading.Places
open Reading

variable {α β : Type} {answer : α} {trees later : List Tree}

theorem pure (value : α) : (Pure.pure value : Reading α).Places tokens value [] tokens :=
  fun _ ready => ⟨rfl, rfl, ready⟩

theorem bind {first : Reading α} {second : α → Reading β} {value : β} (before : first.Places tokens answer trees middle)
    (after : (second answer).Places middle value later rest) :
    (first >>= second).Places tokens value (trees ++ later) rest := by
  intro cursor ready
  obtain ⟨answered, placed, ready⟩ := before cursor ready
  obtain ⟨valued, added, ready⟩ := after _ ready
  subst answered
  exact ⟨valued, by rw [← placed, ← added]; rfl, ready⟩

theorem quiet {first : Reading α} {second : α → Reading β} {value : β} (before : first.Places tokens answer [] middle)
    (after : (second answer).Places middle value later rest) : (first >>= second).Places tokens value later rest :=
  bind before after

theorem one {first : Reading α} {second : α → Reading β} {value : β} {tree : Tree}
    (before : first.Places tokens answer [tree] middle) (after : (second answer).Places middle value later rest) :
    (first >>= second).Places tokens value (tree :: later) rest :=
  bind before after

theorem move {change : Cursor → Cursor} (kept : ∀ cursor, Ready tokens cursor → Ready tokens (change cursor)) :
    (Reading.move change).Places tokens () [] tokens := fun cursor ready => ⟨rfl, rfl, kept cursor ready⟩

private theorem ask {question : Cursor → α} (known : ∀ cursor, Ready tokens cursor → question cursor = answer) :
    (Reading.ask question).Places tokens answer [] tokens := by
  intro cursor ready
  have kept : Ready tokens cursor.skip := ready.skip.symm ▸ ready
  exact ⟨known _ kept, rfl, kept⟩

/-- What is asked about the place itself is not known, and makes no difference. -/
theorem asking {question : Cursor → α} {second : α → Reading β} {value : β}
    (after : ∀ answer, (second answer).Places tokens value later rest) :
    (Reading.ask question >>= second).Places tokens value later rest := by
  intro cursor ready
  exact after (question cursor.skip) cursor.skip (ready.skip.symm ▸ ready)

theorem current : Reading.current.Places tokens (tokens.head?.map Token.kind) [] tokens :=
  quiet (move fun _ => Ready.look) (ask fun _ ready => by rw [ready.left])

theorem adjacent : Reading.adjacent.Places tokens (tokens.head?.map Token.kind) [] tokens :=
  fun _ ready => ⟨by rw [← ready.left]; rfl, rfl, ready.look⟩

theorem ahead (n : Nat) : (Reading.ahead n).Places tokens ((solid? n tokens).map Token.kind) [] tokens :=
  quiet (move fun _ => Ready.look) (ask fun _ ready => by rw [ready.left])

theorem atEnd : Reading.atEnd.Places tokens tokens.isEmpty [] tokens := ask fun _ ready => by rw [ready.left]

theorem currentText : Reading.currentText.Places tokens ((tokens.head?.map Token.text).getD "") [] tokens :=
  ask fun _ ready => by rw [ready.left]

theorem take : Reading.take.Places (token :: rest) () [.leaf token] rest := by
  intro cursor ready
  rw [take_token (ready.skip.symm ▸ ready.left)]
  refine ⟨rfl, ?_, rfl, rfl, fun _ member => ready.solid _ (List.mem_cons_of_mem _ member), ?_⟩
  · rw [ready.skip, ready.placed]
    rfl
  · rw [ready.skip]
    exact ready.shallow

theorem takeIf_taken {kind : TokenKind} (same : token.kind = kind) :
    (takeIf kind).Places (token :: rest) true [.leaf token] rest := by
  refine quiet current ?_
  rw [List.head?_cons, Option.map_some, if_pos (congrArg some same)]
  exact one take (pure true)

theorem takeIf_left {kind : TokenKind} (other : tokens.head?.map Token.kind ≠ some kind) :
    (takeIf kind).Places tokens false [] tokens := by
  refine quiet current ?_
  rw [if_neg other]
  exact pure false

theorem node {kind : NodeKind} {body : Reading Unit} (inside : body.Places tokens () trees rest) :
    (Reading.node kind body).Places tokens () [.node kind trees] rest := by
  intro cursor ready
  obtain ⟨_, placed, left⟩ := inside { cursor with waiting := [] } ⟨rfl, ready.left, ready.solid, ready.shallow⟩
  refine ⟨rfl, ?_, left⟩
  simp only [Reading.node, ready.placed, placed]
  rfl

theorem repeatWhile_last {step : Reading Bool} (last : step.Places tokens false trees rest) :
    (repeatWhile step).Places tokens () trees rest := by
  intro cursor ready
  obtain ⟨ended, placed, left⟩ := last cursor ready
  rw [repeatWhile, if_pos ended]
  exact ⟨rfl, placed, left⟩

theorem repeatWhile_again {step : Reading Bool} (once : step.Places tokens true trees middle)
    (shorter : middle.length < tokens.length) (others : (repeatWhile step).Places middle () later rest) :
    (repeatWhile step).Places tokens () (trees ++ later) rest := by
  intro cursor ready
  obtain ⟨again, placed, left⟩ := once cursor ready
  obtain ⟨_, added, left'⟩ := others _ left
  have moved : (step cursor).next.rest.length < cursor.rest.length := by rwa [left.left, ready.left]
  rw [repeatWhile, if_neg (by simp [again]), dif_pos moved]
  exact ⟨rfl, by simp only [placed, added], left'⟩

theorem unlessExhausted {reading : Reading Unit} (inside : reading.Places tokens () trees rest) :
    (Reading.unlessExhausted reading).Places tokens () trees rest := by
  intro cursor ready
  have shallow : ¬ cursor.exhausted = true := by simp [ready.shallow]
  rw [Reading.unlessExhausted, if_neg shallow]
  exact inside cursor ready

end Reading.Places

end TreeQuery.Syntax
