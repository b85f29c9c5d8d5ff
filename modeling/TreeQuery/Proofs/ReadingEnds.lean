import TreeQuery.Proofs.ParserLeaves
import TreeQuery.Proofs.ReadingShapes

/-! Where constructs end. What waits is placed only in front of something, so that no construct ends
in blank space or a comment. A predicate may, whose parameters are placed even if there are none, where
its mark was looked for and not found. -/

namespace TreeQuery.Syntax
open Text (Span)

/-- The tokens before the parameters of a predicate: with its mark, the last of its words, they end in that. -/
def Heading (tokens : List Token) : Prop :=
  (∃ front last, tokens = front ++ [last] ∧ last.isTrivia = false) ∨ (solidKinds tokens).length ≤ 3

/-- Predicates apart no node is empty or ends in trivia. -/
inductive Neat : Tree → Prop
  | token (token : Token) : Neat (.leaf token)
  | predicate {name : List Token} {arguments closing : List Tree} (heading : Heading name) (filled : name ≠ [])
    (arguments_neat : ∀ tree ∈ arguments, Neat tree)
    (arguments_solid : ∀ last, arguments.getLast? = some last → last.kind.isTrivia = false)
    (closing_neat : ∀ tree ∈ closing, Neat tree)
    (closing_solid : ∀ last, closing.getLast? = some last → last.kind.isTrivia = false) :
    Neat (.node .predicate (name.map .leaf ++ .node .parameters arguments :: closing))
  | node {kind : NodeKind} {children : List Tree} {last : Tree} (inside : ∀ child ∈ children, Neat child)
    (ends : children.getLast? = some last) (solid : last.kind.isTrivia = false) : Neat (.node kind children)

/-- Neat trees, the last of them no trivia. -/
structure Settled (trees : List Tree) : Prop where
  neat : ∀ tree ∈ trees, Neat tree
  solid : ∀ last, trees.getLast? = some last → last.kind.isTrivia = false

variable {trees later : List Tree} {kind : NodeKind} {tokens : List Token}

private theorem Settled.nil : Settled [] := ⟨nofun, nofun⟩

private theorem Settled.append (first : Settled trees) (second : Settled later) : Settled (trees ++ later) := by
  refine ⟨fun tree member => ?_, fun last ends => ?_⟩
  · rcases List.mem_append.mp member with before | after
    · exact first.neat tree before
    · exact second.neat tree after
  · rw [List.getLast?_append] at ends
    cases closing : later.getLast? with
    | none => exact first.solid last (by simpa [closing] using ends)
    | some tree => exact second.solid last (by simpa [closing] using ends)

private theorem Settled.node (settled : Settled trees) (filled : trees ≠ []) : Neat (.node kind trees) := by
  obtain ⟨last, ends⟩ := Option.ne_none_iff_exists'.mp (mt List.getLast?_eq_none_iff.mp filled)
  exact .node settled.neat ends (settled.solid last ends)

/-- Trivia may stand in front of anything else. -/
private theorem Settled.after (tokens : List Token) {tree : Tree} (neat : Neat tree) (solid : tree.kind.isTrivia = false) :
    Settled (tokens.map .leaf ++ [tree]) := by
  refine ⟨fun other member => ?_, fun last ends => ?_⟩
  · rcases List.mem_append.mp member with before | here
    · obtain ⟨token, _, rfl⟩ := List.mem_map.mp before
      exact .token token
    · exact List.mem_singleton.mp here ▸ neat
  · obtain rfl : tree = last := by simpa using ends
    exact solid

/-- There is a token to take. -/
def Ahead (cursor : Cursor) : Prop := cursor.skip.rest ≠ []

theorem Cursor.ahead {cursor : Cursor} {kind : TokenKind} {ahead : List TokenKind}
    (kinds : solidKinds cursor.rest = kind :: ahead) : Ahead cursor := by
  obtain ⟨token, rest, left, _⟩ := Cursor.first kinds
  simp [Ahead, left]

theorem Ahead.skip {cursor : Cursor} (ahead : Ahead cursor) : Ahead cursor.skip := by
  rwa [Ahead, Cursor.skip_twice]

theorem Ahead.look {cursor : Cursor} (ahead : Ahead cursor) : Ahead cursor.look := by
  unfold Cursor.look
  split <;> exact ahead

theorem Ahead.report {cursor : Cursor} (ahead : Ahead cursor) (found : Diagnostic.Report) :
    Ahead (Reading.report found cursor).next := by
  unfold Reading.report
  split <;> exact ahead

namespace Reading

theorem unlessExhausted_awake {reading : Reading Unit} {cursor : Cursor} (awake : cursor.exhausted = false) :
    unlessExhausted reading cursor = reading cursor := by
  rw [unlessExhausted, if_neg (by simp [awake])]

def Settles {α : Type} (reading : Reading α) (cursor : Cursor) : Prop := Settled (reading cursor).trees

/-- A token is placed that is no trivia. -/
def Fills {α : Type} (reading : Reading α) (cursor : Cursor) : Prop :=
  solidKinds (Tree.leavesOf (reading cursor).trees) ≠ []

structure Enters {α : Type} (reading : Reading α) (cursor : Cursor) : Prop where
  settles : reading.Settles cursor
  fills : reading.Fills cursor

variable {α β : Type} {cursor : Cursor} {first : Reading α} {second : α → Reading β}

namespace Settles

private theorem none {reading : Reading α} (quiet : (reading cursor).trees = []) : reading.Settles cursor := by
  rw [Settles, quiet]
  exact .nil

private theorem bind (before : first.Settles cursor) (after : ∀ value next, (second value).Settles next) :
    (first >>= second).Settles cursor := Settled.append before (after _ _)

private theorem asking {question : Cursor → α} (after : ∀ answer, (second answer).Settles cursor.skip) :
    (ask question >>= second).Settles cursor := after _

/-- A look ahead that finds a token is followed by it. -/
private theorem looking {second : Option TokenKind → Reading β}
    (after : ∀ found next, (found ≠ Option.none → Ahead next) → (second found).Settles next) :
    (current >>= second).Settles cursor := by
  refine after (cursor.look.skip.rest.head?.map Token.kind) cursor.look.skip fun found => Ahead.skip fun ended => ?_
  rw [ended] at found
  exact found rfl

/-- After a look ahead the token is still there. -/
private theorem glancing {question : Cursor → α} (ahead : Ahead cursor)
    (after : ∀ answer next, Ahead next → (second answer).Settles next) :
    ((do move Cursor.look; ask question) >>= second).Settles cursor := after _ _ ahead.look.skip

private theorem atEnd {second : Bool → Reading β} (ended : ∀ next, (second true).Settles next)
    (more : ∀ next, Ahead next → (second false).Settles next) : (atEnd >>= second).Settles cursor := by
  change (second cursor.skip.rest.isEmpty).Settles cursor.skip
  cases left : cursor.skip.rest.isEmpty with
  | true => exact ended _
  | false => exact more _ (Ahead.skip fun none => by simp [none] at left)

private theorem take : Reading.take.Settles cursor := by
  cases left : cursor.skip.rest with
  | nil => exact none (by rw [take_at_end left])
  | cons token rest =>
    rw [Settles, take_token left, List.map_append]
    exact Settled.after _ (.token token) (Cursor.skip_solid left)

private theorem takeIf (kind : TokenKind) : (Reading.takeIf kind).Settles cursor := by
  refine looking fun found next _ => ?_
  split
  · exact bind take fun _ _ => none rfl
  · exact none rfl

private theorem report (found : Diagnostic.Report) : (Reading.report found).Settles cursor := by
  unfold Settles Reading.report
  split <;> exact .nil

private theorem expect (kind : TokenKind) : (Reading.expect kind).Settles cursor := by
  refine looking fun found next _ => ?_
  split <;> exact none rfl

private theorem unlessExhausted {reading : Reading Unit} (inside : reading.Settles cursor) :
    (Reading.unlessExhausted reading).Settles cursor := by
  unfold Settles Reading.unlessExhausted
  split
  · exact .nil
  · exact inside

private theorem repeatWhile {step : Reading Bool} (once : ∀ cursor, step.Settles cursor) (cursor : Cursor) :
    (Reading.repeatWhile step).Settles cursor := by
  induction left : cursor.rest.length using Nat.strongRecOn generalizing cursor with
  | ind size ih =>
    rw [Settles, Reading.repeatWhile]
    split
    · exact once cursor
    · split
      next shorter => exact (once cursor).append (ih _ (left ▸ shorter) _ rfl)
      next => exact once cursor

end Settles

namespace Fills

theorem take (ahead : Ahead cursor) : Reading.take.Fills cursor := by
  obtain ⟨token, rest, left⟩ := List.exists_cons_of_ne_nil ahead
  rw [Fills, take_token left, Tree.leavesOf_tokens, solidKinds_append]
  simp [solidKinds, Cursor.skip_solid left]

/-- Where no word is placed, neither part places one. -/
private theorem parts_empty (empty : solidKinds (Tree.leavesOf ((first >>= second) cursor).trees) = []) :
    solidKinds (Tree.leavesOf (first cursor).trees) = [] ∧
      solidKinds (Tree.leavesOf (second (first cursor).value (first cursor).next).trees) = [] := by
  refine List.append_eq_nil_iff.mp ?_
  rw [← solidKinds_append, ← Tree.leavesOf_append]
  exact empty

theorem bind (before : first.Fills cursor) : (first >>= second).Fills cursor :=
  fun empty => before (parts_empty empty).1

theorem next (after : (second (first cursor).value).Fills (first cursor).next) : (first >>= second).Fills cursor :=
  fun empty => after (parts_empty empty).2

private theorem node {kind : NodeKind} {body : Reading Unit} (inside : body.Fills { cursor with waiting := [] }) :
    (Reading.node kind body).Fills cursor := by
  intro empty
  rw [Reading.node, Tree.leavesOf_append, solidKinds_append] at empty
  have placed : solidKinds (Tree.leavesOf [.node kind (body { cursor with waiting := [] }).trees]) = [] :=
    (List.append_eq_nil_iff.mp empty).2
  simp only [Tree.leavesOf, Tree.leaves, List.append_nil] at placed
  exact inside placed

theorem repeatWhile {step : Reading Bool} (fills : step.Fills cursor) : (Reading.repeatWhile step).Fills cursor := by
  refine fun empty => fills ?_
  rw [Reading.repeatWhile] at empty
  split at empty
  · exact empty
  · split at empty
    · rw [Tree.leavesOf_append, solidKinds_append] at empty
      exact (List.append_eq_nil_iff.mp empty).1
    · exact empty

end Fills

namespace Enters

private theorem take (ahead : Ahead cursor) : Reading.take.Enters cursor := ⟨.take, .take ahead⟩

private theorem bind (before : first.Enters cursor) (after : ∀ value next, (second value).Settles next) :
    (first >>= second).Enters cursor := ⟨before.settles.bind after, before.fills.bind⟩

private theorem asking {question : Cursor → α} (after : ∀ answer, (second answer).Enters cursor.skip) :
    (ask question >>= second).Enters cursor := ⟨(after _).settles, (after _).fills⟩

private theorem known {value : α} (before : first.Enters cursor) (same : (first cursor).value = value)
    (after : ∀ next, (second value).Settles next) : (first >>= second).Enters cursor := by
  subst same
  exact ⟨before.settles.append (after _), before.fills.bind⟩

private theorem next (before : first.Settles cursor) (after : (second (first cursor).value).Enters (first cursor).next) :
    (first >>= second).Enters cursor := ⟨Settled.append before after.settles, .next after.fills⟩

private theorem glancing {question : Cursor → α} (ahead : Ahead cursor)
    (after : ∀ answer next, Ahead next → (second answer).Enters next) :
    ((do move Cursor.look; ask question) >>= second).Enters cursor :=
  have entered := after _ _ ahead.look.skip
  ⟨entered.settles, entered.fills⟩

private theorem moving {change : Cursor → Cursor} {second : Reading β} (after : second.Enters (change cursor)) :
    (do move change; second : Reading β).Enters cursor := ⟨after.settles, after.fills⟩

private theorem takeIfOr {kind : TokenKind} {other : Reading Unit} (ahead : Ahead cursor)
    (after : ∀ next, Ahead next → other.Enters next) : (do unless ← takeIf kind do other : Reading Unit).Enters cursor := by
  let next := cursor.look.skip
  have more : Ahead next := ahead.look.skip
  have entered : Reading.Enters ((if next.rest.head?.map Token.kind = some kind then do Reading.take; return true
      else return false) >>= fun taken => if taken = true then pure () else other) next := by
    split
    · exact (Enters.bind (take more) fun _ _ => .none rfl).known rfl fun _ => .none rfl
    · have begun := after next more
      exact ⟨begun.settles, begun.fills⟩
  exact ⟨entered.settles, entered.fills⟩

private theorem node {kind : NodeKind} {body : Reading Unit} (inside : body.Enters { cursor with waiting := [] }) :
    (Reading.node kind body).Enters cursor := by
  have filled : (body { cursor with waiting := [] }).trees ≠ [] := fun empty => inside.fills (by rw [empty]; rfl)
  exact ⟨Settled.after _ (inside.settles.node filled) rfl, .node inside.fills⟩

private theorem predicate {body : Reading Unit} {name : List Token} {arguments closing : List Tree}
    (placed : (body { cursor with waiting := [] }).trees = name.map .leaf ++ .node .parameters arguments :: closing)
    (heading : Heading name) (inside : Settled arguments) (ends : Settled closing) (fills : solidKinds name ≠ []) :
    (Reading.node .predicate body).Enters cursor := by
  have filled : name ≠ [] := by
    rintro rfl
    exact fills rfl
  have neat : Neat (.node .predicate (body { cursor with waiting := [] }).trees) :=
    placed ▸ .predicate heading filled inside.neat inside.solid ends.neat ends.solid
  refine ⟨Settled.after _ neat rfl, .node fun empty => fills ?_⟩
  rw [placed, Tree.leavesOf_append, Tree.leavesOf_tokens, solidKinds_append] at empty
  exact (List.append_eq_nil_iff.mp empty).1

private theorem repeatWhile {step : Reading Bool} (once : ∀ cursor, step.Settles cursor) (entered : step.Enters cursor) :
    (Reading.repeatWhile step).Enters cursor := ⟨.repeatWhile once cursor, .repeatWhile entered.fills⟩

end Enters

end Reading

namespace Parser
open Reading

variable {cursor : Cursor}

private theorem reportHere_settles (found : Diagnostic.Kind) : (reportHere found).Settles cursor :=
  .asking fun _ => .report _

private theorem skipToken_enters (ahead : Ahead cursor) : skipToken.Enters cursor := by
  have more : cursor.skip.rest.isEmpty = false := by simpa [Ahead] using ahead
  have placed : (if cursor.skip.rest.isEmpty = true then pure () else Reading.node .error take : Reading Unit).Enters
      cursor.skip := by
    rw [more]
    exact .node (.take ahead.skip)
  exact ⟨placed.settles, placed.fills⟩

theorem unexpected_enters (wanted : String) (ahead : Ahead cursor) : (unexpected wanted).Enters cursor :=
  .asking fun _ => .next (.report _) (skipToken_enters (ahead.skip.report _))

private theorem bareIdentifier_enters (ahead : Ahead cursor) : bareIdentifier.Enters cursor :=
  .next (reportHere_settles _) (skipToken_enters (ahead.skip.report _))

private theorem close_settles (closer : TokenKind) (unclosed : Diagnostic.Kind) (opener : Span) :
    (close closer unclosed opener).Settles cursor := by
  refine .bind (.takeIf closer) fun closed next => ?_
  split
  · exact .none rfl
  · exact .report _

theorem capture_enters (ahead : Ahead cursor) : capture.Enters cursor := by
  refine .node (.bind (.take ahead) fun _ _ => .bind (.none rfl) fun found next => ?_)
  split
  · exact .take
  · exact .none rfl

theorem detachedCapture_enters (ahead : Ahead cursor) : detachedCapture.Enters cursor := by
  refine .asking fun _ => .node (.bind (.take ahead.skip) fun _ _ => .bind (.none rfl) fun found next => ?_)
  split
  · exact .asking fun _ => .bind .take fun _ _ => .report _
  · exact .none rfl

private theorem quantifier_settles : quantifier.Settles cursor := by
  refine .looking fun found next more => ?_
  split
  next here => exact (Enters.node (.take (more (by rintro rfl; simp at here)))).settles
  next => exact .none rfl

private theorem nextCapture_settles (cursor : Cursor) : nextCapture.Settles cursor := by
  refine .looking fun found next more => ?_
  split
  next here => exact .bind (capture_enters (more (by simp [here]))).settles fun _ _ => .none rfl
  next => exact .none rfl

private theorem suffix_settles (cursor : Cursor) : suffix.Settles cursor :=
  .bind quantifier_settles fun _ => .repeatWhile nextCapture_settles

private theorem stringContent_settles : stringContent.Settles cursor := by
  refine .bind (.none rfl) fun found next => ?_
  split
  · exact .take
  · exact .none rfl

private theorem closingQuote_settles (opener : Span) : (closingQuote opener).Settles cursor := by
  refine .bind (.none rfl) fun found next => ?_
  split
  · exact .take
  · exact .report _

theorem string_enters (ahead : Ahead cursor) : string.Enters cursor :=
  .node (.asking fun opener => .bind (.take ahead.skip) fun _ _ =>
    .bind stringContent_settles fun _ _ => closingQuote_settles opener)

theorem negatedField_enters (ahead : Ahead cursor) : negatedField.Enters cursor := by
  refine .node (.bind (.take ahead) fun _ _ => .bind (.takeIf .identifier) fun named next => ?_)
  split
  · exact .none rfl
  · exact reportHere_settles _

private theorem stringOrWildcard_enters (ahead : Ahead cursor) : stringOrWildcard.Enters cursor :=
  .takeIfOr ahead fun _ => string_enters

private theorem anonymousNode_enters (ahead : Ahead cursor) : anonymousNode.Enters cursor :=
  .node (.bind (stringOrWildcard_enters ahead) fun _ => suffix_settles)

private theorem argument_settles (kind : TokenKind) (ahead : Ahead cursor) : (argument kind).Settles cursor := by
  unfold argument
  split
  · exact (capture_enters ahead).settles
  · exact (string_enters ahead).settles
  · exact .take
  · exact .take
  · exact (unexpected_enters _ ahead).settles

private theorem nextMember_settles {member : TokenKind → Reading Unit}
    (each : ∀ kind next, Ahead next → (member kind).Settles next) (cursor : Cursor) : (nextMember member).Settles cursor := by
  refine .looking fun found next more => ?_
  split
  next => exact .none rfl
  next kind =>
    split
    · exact .none rfl
    · exact .bind (each kind next (more nofun)) fun _ _ => .none rfl

/-- A wanted token is placed behind trivia, and if another stands there nothing is. -/
private theorem takeIf_cases (kind : TokenKind) (blank : ∀ token ∈ cursor.waiting, token.isTrivia = true) :
    (∃ front last, (∀ token ∈ front, token.isTrivia = true) ∧ last.isTrivia = false ∧ (takeIf kind cursor).value = true ∧
      (takeIf kind cursor).trees = (front ++ [last]).map .leaf ∧ (takeIf kind cursor).next.waiting = []) ∨
    (takeIf kind cursor).value = false ∧ (takeIf kind cursor).trees = [] ∧
      ∀ token ∈ (takeIf kind cursor).next.waiting, token.isTrivia = true := by
  obtain ⟨fault, look⟩ := cursor.look_eq
  have waits : ∀ token ∈ cursor.look.skip.waiting, token.isTrivia = true := by
    rw [look]
    exact Cursor.skip_blank blank
  let next := cursor.look.skip
  let chosen : Reading Bool := if next.rest.head?.map Token.kind = some kind then do take; return true else return false
  change (∃ front last, _ ∧ _ ∧ (chosen next).value = true ∧ (chosen next).trees = _ ∧ (chosen next).next.waiting = []) ∨
    (chosen next).value = false ∧ (chosen next).trees = [] ∧ ∀ token ∈ (chosen next).next.waiting, token.isTrivia = true
  by_cases wanted : next.rest.head?.map Token.kind = some kind
  · obtain ⟨last, first, _⟩ := Option.map_eq_some_iff.mp wanted
    obtain ⟨rest, left⟩ := List.head?_eq_some_iff.mp first
    have again : next.skip.rest = last :: rest := (Cursor.skip_twice _).trans left
    have taken : chosen next = ⟨true, (next.skip.waiting ++ [last]).map .leaf ++ [], [], (take next).next⟩ := by
      rw [show chosen = do take; return true from if_pos wanted]
      change (⟨true, (take next).trees ++ [], (take next).reports ++ [], (take next).next⟩ : Step Bool) = _
      rw [take_token again]
      rfl
    refine .inl ⟨next.skip.waiting, last, Cursor.skip_blank waits, Cursor.skip_solid again, ?_⟩
    rw [taken, take_token again, List.append_nil]
    exact ⟨rfl, rfl, rfl⟩
  · rw [show chosen = Pure.pure false from if_neg wanted]
    exact .inr ⟨rfl, rfl, waits⟩

/-- Either nothing is placed and only trivia waits, or what is placed ends in a word and nothing waits. -/
def Crisp (reading : Reading Unit) (cursor : Cursor) : Prop :=
  ((reading cursor).trees = [] ∧ ∀ token ∈ (reading cursor).next.waiting, token.isTrivia = true) ∨
    ∃ front last, (reading cursor).trees = (front ++ [last]).map .leaf ∧ last.isTrivia = false ∧
      (reading cursor).next.waiting = []

private theorem reportHere_blank (found : Diagnostic.Kind) (blank : ∀ token ∈ cursor.waiting, token.isTrivia = true) :
    (reportHere found cursor).trees = [] ∧ ∀ token ∈ (reportHere found cursor).next.waiting, token.isTrivia = true := by
  have still (report : Diagnostic.Report) (cursor : Cursor) : (Reading.report report cursor).next.waiting = cursor.waiting := by
    unfold Reading.report
    split <;> rfl
  refine ⟨report_quiet _ _, fun token member => Cursor.skip_blank blank token ?_⟩
  exact still _ cursor.skip ▸ member

private theorem takeIfOr_crisp {kind : TokenKind} {other : Reading Unit} (blank : ∀ token ∈ cursor.waiting, token.isTrivia = true)
    (after : ∀ next : Cursor, (∀ token ∈ next.waiting, token.isTrivia = true) → Crisp other next) :
    Crisp (do unless ← takeIf kind do other) cursor := by
  let taken := takeIf kind cursor
  let rest : Reading Unit := if taken.value = true then pure () else other
  change ((taken.trees ++ (rest taken.next).trees = []) ∧ ∀ token ∈ (rest taken.next).next.waiting, token.isTrivia = true) ∨
    ∃ front last, taken.trees ++ (rest taken.next).trees = (front ++ [last]).map .leaf ∧ _ ∧ (rest taken.next).next.waiting = []
  rcases takeIf_cases kind blank with ⟨front, last, _, solid, some, placed, waits⟩ | ⟨none, quiet, waits⟩
  · rw [show rest = pure () from if_pos some]
    exact .inr ⟨front, last, (List.append_nil _).trans placed, solid, waits⟩
  · rw [show rest = other from if_neg (by simp [taken, none]), show taken.trees = [] from quiet, List.nil_append]
    exact after taken.next waits

/-- Where no mark is found nothing is placed. -/
private theorem predicateMark_crisp (blank : ∀ token ∈ cursor.waiting, token.isTrivia = true) : Crisp predicateMark cursor :=
  takeIfOr_crisp blank fun _ blank => takeIfOr_crisp blank fun _ blank => .inl (reportHere_blank _ blank)

/-- A name with its mark ends in the mark, and without one it has one word at most. -/
private theorem predicateName_words (blank : ∀ token ∈ cursor.waiting, token.isTrivia = true) : ∃ tokens,
    (predicateName cursor).trees = tokens.map .leaf ∧
      ((solidKinds tokens).length ≤ 1 ∧ (∀ token ∈ (predicateName cursor).next.waiting, token.isTrivia = true) ∨
        (∃ front last, tokens = front ++ [last] ∧ last.isTrivia = false) ∧ (predicateName cursor).next.waiting = []) := by
  let taken := takeIf .identifier cursor
  let rest : Reading Unit := if taken.value = true then predicateMark else reportHere .expectedPredicateName
  have placed : (predicateName cursor).trees = taken.trees ++ (rest taken.next).trees := rfl
  have left : (predicateName cursor).next = (rest taken.next).next := rfl
  rw [placed, left]
  rcases takeIf_cases .identifier blank with ⟨front, name, blanks, solid, some, placed, waits⟩ | ⟨none, quiet, waits⟩
  · rw [show rest = predicateMark from if_pos some, show taken.trees = _ from placed]
    have still : ∀ token ∈ taken.next.waiting, token.isTrivia = true := by simp [taken, waits]
    rcases predicateMark_crisp still with ⟨quiet, waits⟩ | ⟨more, mark, marked, solid, waits⟩
    · refine ⟨front ++ [name], by rw [quiet, List.append_nil], .inl ⟨?_, waits⟩⟩
      rw [solidKinds_append, solidKinds_blank blanks, List.nil_append]
      simp [solidKinds, solid]
    · refine ⟨front ++ [name] ++ (more ++ [mark]), ?_, .inr ⟨⟨front ++ [name] ++ more, mark, ?_, solid⟩, waits⟩⟩
      · rw [marked, ← List.map_append]
      · simp only [List.append_assoc]
  · rw [show rest = reportHere .expectedPredicateName from if_neg (by simp [taken, none]), show taken.trees = [] from quiet]
    obtain ⟨quiet, waits⟩ := reportHere_blank .expectedPredicateName waits
    exact ⟨[], quiet, .inl ⟨Nat.zero_le _, waits⟩⟩

private theorem take_words (blank : ∀ token ∈ cursor.waiting, token.isTrivia = true) :
    ∃ tokens, (take cursor).trees = tokens.map .leaf ∧
    (solidKinds tokens).length ≤ 1 ∧ ∀ token ∈ (take cursor).next.waiting, token.isTrivia = true := by
  cases left : cursor.skip.rest with
  | nil =>
    rw [take_at_end left]
    exact ⟨[], rfl, Nat.zero_le _, Cursor.skip_blank blank⟩
  | cons token rest =>
    rw [take_token left]
    refine ⟨_, rfl, ?_, nofun⟩
    rw [solidKinds_append, solidKinds_blank (Cursor.skip_blank blank), List.nil_append]
    simp [solidKinds, Cursor.skip_solid left]

private theorem expect_blank (kind : TokenKind) (blank : ∀ token ∈ cursor.waiting, token.isTrivia = true) :
    (expect kind cursor).trees = [] ∧ ∀ token ∈ (expect kind cursor).next.waiting, token.isTrivia = true := by
  obtain ⟨fault, look⟩ := cursor.look_eq
  have waits : ∀ token ∈ cursor.look.skip.waiting, token.isTrivia = true := by
    rw [look]
    exact Cursor.skip_blank blank
  unfold expect
  change (Reading.bind _ _ cursor).trees = [] ∧ ∀ token ∈ (Reading.bind _ _ cursor).next.waiting, token.isTrivia = true
  unfold Reading.bind
  dsimp only
  split <;> exact ⟨rfl, waits⟩

/-- The tokens of a predicate, with what waits behind them, stand before its parameters. -/
private theorem predicate_enters (ahead : Ahead cursor) : predicate.Enters cursor := by
  let begun : Cursor := { cursor with waiting := [] }
  let opened := take begun.skip
  let expected := expect .sharp opened.next
  let signed := take expected.next
  let named := predicateName signed.next
  let argued := repeatWhile (nextMember argument) { named.next with waiting := [] }
  let closed := close .parenClose .unclosedNode begun.skip.span argued.next
  have start : ∀ token ∈ begun.skip.waiting, token.isTrivia = true := Cursor.skip_blank nofun
  obtain ⟨opener, first, short, waits⟩ := take_words start
  obtain ⟨quiet, waits⟩ := expect_blank .sharp waits
  obtain ⟨sign, second, brief, waits⟩ := take_words waits
  obtain ⟨name, third, words⟩ := predicateName_words waits
  have placed : opened.trees ++ (expected.trees ++ (signed.trees ++ (named.trees ++
      ((named.next.waiting.map .leaf ++ [.node .parameters argued.trees]) ++ closed.trees)))) =
        (opener ++ sign ++ name ++ named.next.waiting).map .leaf ++ .node .parameters argued.trees :: closed.trees := by
    rw [show opened.trees = _ from first, show expected.trees = _ from quiet, show signed.trees = _ from second,
      show named.trees = _ from third]
    simp
  have heading : Heading (opener ++ sign ++ name ++ named.next.waiting) := by
    rcases words with ⟨few, blank⟩ | ⟨⟨front, mark, rfl, solid⟩, none⟩
    · right
      rw [solidKinds_append, solidKinds_blank blank, solidKinds_append, solidKinds_append]
      simp only [List.append_nil, List.length_append]
      omega
    · refine .inl ⟨opener ++ sign ++ front, mark, ?_, solid⟩
      rw [show named.next.waiting = [] from none]
      simp
  have filled : solidKinds opener ≠ [] := by
    have fills : take.Fills begun.skip := Fills.take (Ahead.skip ahead)
    rwa [Fills, first, Tree.leavesOf_tokens] at fills
  exact .predicate placed heading (Settles.repeatWhile (nextMember_settles fun kind _ => argument_settles kind) _)
    (close_settles _ _ _) (by simp [solidKinds_append, filled])

private theorem missingKind_settles : missingKind.Settles cursor := by
  refine .looking fun found next more => ?_
  split
  · exact .take
  · exact (string_enters (more nofun)).settles
  · exact .none rfl

private theorem subtype_settles : subtype.Settles cursor := by
  refine .bind (.takeIf .slash) fun divided next => ?_
  split
  · refine .bind (.takeIf .identifier) fun named next => ?_
    split
    · exact .none rfl
    · exact reportHere_settles _
  · exact .none rfl

private theorem kindDetail_settles (name : String) : (kindDetail name).Settles cursor := by
  unfold kindDetail
  split
  · exact missingKind_settles
  · exact subtype_settles

section Nested

variable {inner : Reading Unit} (settled : ∀ {cursor}, Ahead cursor → inner.Settles cursor)
include settled

private theorem item_settles (kind : TokenKind) (ahead : Ahead cursor) : (item inner kind).Settles cursor := by
  unfold item
  split
  · exact (negatedField_enters ahead).settles
  · exact .take
  · exact (detachedCapture_enters ahead).settles
  · split
    · exact settled ahead
    · exact (unexpected_enters _ ahead).settles

private theorem items_settles : (items inner).Settles cursor :=
  .repeatWhile (nextMember_settles fun kind _ => item_settles settled kind) cursor

private theorem body_settles (closer : TokenKind) (unclosed : Diagnostic.Kind) (opener : Span) (cursor : Cursor) :
    (do items inner; close closer unclosed opener; suffix : Reading Unit).Settles cursor :=
  .bind (items_settles settled) fun _ _ => .bind (close_settles closer unclosed opener) fun _ => suffix_settles

private theorem namedNode_enters (ahead : Ahead cursor) : (namedNode inner).Enters cursor :=
  .node (.asking fun opener => .bind (.take ahead.skip) fun _ _ => .asking fun name => .bind .take fun _ _ =>
    .bind (kindDetail_settles name) fun _ => body_settles settled .parenClose .unclosedNode opener)

private theorem grouping_enters (ahead : Ahead cursor) : (grouping inner).Enters cursor :=
  .node (.asking fun opener => .bind (.take ahead.skip) fun _ => body_settles settled .parenClose .unclosedNode opener)

private theorem list_enters (ahead : Ahead cursor) : (list inner).Enters cursor :=
  .node (.asking fun opener => .bind (.take ahead.skip) fun _ => body_settles settled .bracketClose .unclosedList opener)

private theorem fieldDefinition_enters (ahead : Ahead cursor) : (fieldDefinition inner).Enters cursor := by
  refine .node (.bind (.take ahead) fun _ _ => .bind (.expect .colon) fun _ _ => .bind .take fun _ _ =>
    .looking fun found next more => ?_)
  split
  next valued => exact settled (more (by rintro rfl; simp at valued))
  next => exact .none rfl

private theorem namedNodeOrGrouping_enters (ahead : Ahead cursor) : (namedNodeOrGrouping inner).Enters cursor := by
  refine .glancing ahead fun found next ahead => ?_
  split
  · exact grouping_enters settled ahead
  · exact namedNode_enters settled ahead

private theorem parenthesized_enters (ahead : Ahead cursor) : (parenthesized inner).Enters cursor := by
  refine .glancing ahead fun found next ahead => ?_
  split
  · exact predicate_enters ahead
  · exact namedNodeOrGrouping_enters settled ahead
  · exact namedNodeOrGrouping_enters settled ahead
  · exact grouping_enters settled ahead

private theorem construct_enters (ahead : Ahead cursor) : (construct inner).Enters cursor := by
  refine .glancing ahead fun found next ahead => ?_
  split
  · exact parenthesized_enters settled ahead
  · exact list_enters settled ahead
  · exact anonymousNode_enters ahead
  · exact anonymousNode_enters ahead
  · refine .glancing ahead fun found next ahead => ?_
    split
    · exact fieldDefinition_enters settled ahead
    · exact bareIdentifier_enters ahead
  · exact unexpected_enters _ ahead

private theorem nested_enters (ahead : Ahead cursor) : (nested inner).Enters cursor :=
  .moving (.bind (construct_enters settled ahead) fun _ _ => .none rfl)

end Nested

private theorem swallow_settles (cursor : Cursor) : swallow.Settles cursor :=
  .atEnd (fun _ => .none rfl) fun _ _ => .bind .take fun _ _ => .none rfl

private theorem swallow_fills (ahead : Ahead cursor) : swallow.Fills cursor := by
  have more : cursor.skip.rest.isEmpty = false := by simpa [Ahead] using ahead
  change Reading.Fills (if cursor.skip.rest.isEmpty = true then pure false else do take; pure true) cursor.skip
  rw [more]
  exact (Fills.take ahead.skip).bind

private theorem giveUp_enters (ahead : Ahead cursor) : giveUp.Enters cursor := by
  refine .asking fun _ => .asking fun _ => .next (.none rfl) (.node ?_)
  exact .repeatWhile swallow_settles ⟨swallow_settles _, swallow_fills ahead.skip.skip⟩

private theorem pattern_settles (room : Nat) (ahead : Ahead cursor) : (pattern room).Settles cursor := by
  induction room generalizing cursor with
  | zero => exact .unlessExhausted (giveUp_enters ahead).settles
  | succ room ih => exact .unlessExhausted (nested_enters (fun ahead => ih ahead) ahead).settles

theorem pattern_fills (room : Nat) (ahead : Ahead cursor) (awake : cursor.exhausted = false) :
    (pattern room).Fills cursor := by
  cases room with
  | zero =>
    rw [Fills, pattern, unlessExhausted_awake awake]
    exact (giveUp_enters ahead).fills
  | succ room =>
    rw [Fills, pattern, unlessExhausted_awake awake]
    exact (nested_enters (fun ahead => pattern_settles room ahead) ahead).fills

variable {limit : Nat}

private theorem topLevel_settles (kind : Option TokenKind) (ahead : Ahead cursor) : (topLevel limit kind).Settles cursor := by
  unfold topLevel
  split
  · exact (detachedCapture_enters ahead).settles
  · split
    · exact pattern_settles limit ahead
    · exact (unexpected_enters _ ahead).settles

theorem topLevel_fills (kind : Option TokenKind) (ahead : Ahead cursor) (awake : cursor.exhausted = false) :
    (topLevel limit kind).Fills cursor := by
  unfold topLevel
  split
  · exact (detachedCapture_enters ahead).fills
  · split
    · exact pattern_fills limit ahead awake
    · exact (unexpected_enters _ ahead).fills

private theorem nextTopLevel_settles (cursor : Cursor) : (nextTopLevel limit).Settles cursor :=
  .atEnd (fun _ => .none rfl) fun _ ahead => .glancing ahead fun kind _ ahead =>
    .bind (topLevel_settles kind ahead) fun _ _ => .none rfl

end Parser

/-- What is read of a text before the trivia at its end. -/
def readAll (limit : Nat) (source : String) : Step Unit :=
  Reading.repeatWhile (Parser.nextTopLevel limit) (.start (Token.ofText source))

theorem parse_tree (limit : Nat) (source : String) : (parse limit source).tree =
    .node .program ((readAll limit source).trees ++ (readAll limit source).next.skip.waiting.map .leaf) := rfl

theorem parse_reports (limit : Nat) (source : String) : (parse limit source).reports = (readAll limit source).reports :=
  List.append_nil _

/-- A whole query ends in the trivia after its last token. -/
theorem parse_settled (limit : Nat) (source : String) : ∃ (trees : List Tree) (blanks : List Token),
    (parse limit source).tree = .node .program (trees ++ blanks.map .leaf) ∧ Settled trees :=
  ⟨_, _, parse_tree limit source, Reading.Settles.repeatWhile Parser.nextTopLevel_settles _⟩

end TreeQuery.Syntax
