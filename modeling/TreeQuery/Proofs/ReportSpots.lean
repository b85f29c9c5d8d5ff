import TreeQuery.Proofs.ReadingEnds
import TreeQuery.Proofs.TokenCover

/-! Where the parser reports. A report is about the token that opens a construct, about a token that
does not belong, or about a gap in front of a token, and marks whole tokens if there are any to mark. Every
reading that reports takes a token of its own first or next, so that no two reports are at one spot: the gap
in front of a byte, or the byte. -/

namespace TreeQuery

namespace Diagnostic

/-- Reported in front of what stands in place of what is missing. -/
def Kind.isGap : Kind → Bool
  | .expectedFieldName | .expectedSubtype | .expectedPredicateName | .expectedPredicateType => true
  | _ => false

/-- Gaps come before the byte that they are in front of. -/
def Report.spot (report : Report) : Nat := 2 * report.span.start + if report.kind.isGap then 0 else 1

end Diagnostic

namespace Syntax
open Text (Span)
open Diagnostic (Report)

/-- Tokens are read off the front, and the cursor moves on by their length. -/
def Forward (cursor : Cursor) (_ : List Tree) (_ : List Report) (next : Cursor) : Prop :=
  ∃ read, cursor.rest = read ++ next.rest ∧ next.offset = cursor.offset + Text.total Token.length read

theorem Cursor.offset_le_skip (cursor : Cursor) : cursor.offset ≤ cursor.skip.offset := Nat.le_add_right _ _

theorem moves_forward : Law Forward where
  stay _ := ⟨[], rfl, rfl⟩
  chain := by
    rintro first middle last _ _ _ _ ⟨read, before, onward⟩ ⟨more, after, further⟩
    exact ⟨read ++ more, by rw [before, after, List.append_assoc], by rw [further, onward, Text.total_append, Nat.add_assoc]⟩
  note _ _ _ _ := ⟨[], rfl, rfl⟩
  skip cursor := ⟨cursor.rest.takeWhile Token.isTrivia, List.takeWhile_append_dropWhile.symm, rfl⟩
  place _ := ⟨[], rfl, rfl⟩
  token _ token _ _ left _ := ⟨[token], left, rfl⟩
  around _ _ _ _ _ _ inside := inside
  found _ _ _ _ := ⟨[], rfl, rfl⟩
  last _ _ _ _ := ⟨[], rfl, rfl⟩

/-- The cursor is at its offset in a text of these tokens, none of them empty. -/
def Stands (tokens : List Token) (cursor : Cursor) : Prop :=
  (∀ token ∈ tokens, 0 < token.length) ∧
    ∃ read, tokens = read ++ cursor.rest ∧ cursor.offset = Text.total Token.length read

namespace Stands

variable {tokens : List Token} {cursor next : Cursor}

theorem onward {trees : List Tree} {reports : List Report} (stands : Stands tokens cursor)
    (forward : Forward cursor trees reports next) : Stands tokens next ∧ cursor.offset ≤ next.offset := by
  obtain ⟨filled, read, whole, offset⟩ := stands
  obtain ⟨more, left, further⟩ := forward
  refine ⟨⟨filled, read ++ more, by rw [whole, left, List.append_assoc], ?_⟩, by omega⟩
  rw [further, offset, Text.total_append]

variable (stands : Stands tokens cursor)
include stands

theorem skip : Stands tokens cursor.skip := (stands.onward (moves_forward.skip cursor)).1

theorem wide {token : Token} {rest : List Token} (left : cursor.rest = token :: rest) : 0 < token.length := by
  obtain ⟨filled, read, rfl, _⟩ := stands
  exact filled token (List.mem_append_right _ (left ▸ List.mem_cons_self))

private theorem cut : Cut tokens cursor.offset :=
  have ⟨_, read, whole, offset⟩ := stands
  ⟨read, _, whole, offset⟩

private theorem stop : Cut tokens cursor.stop := by
  obtain ⟨_, read, whole, offset⟩ := stands
  refine ⟨tokens, [], (List.append_nil _).symm, ?_⟩
  rw [Cursor.stop, offset, whole, Text.total_append]

/-- The token ahead is one that the text has. -/
private theorem covers (ahead : cursor.rest ≠ []) : Covers tokens cursor.span := by
  obtain ⟨token, rest, left⟩ := List.exists_cons_of_ne_nil ahead
  have wide := stands.wide left
  have span : cursor.span = ⟨cursor.offset, cursor.offset + token.length⟩ := by rw [Cursor.span, left]; rfl
  rw [span]
  refine ⟨stands.cut, ?_, Nat.lt_add_of_pos_right wide⟩
  obtain ⟨_, read, whole, offset⟩ := stands
  refine ⟨read ++ [token], rest, by rw [whole, left, List.append_assoc]; rfl, ?_⟩
  rw [Text.total_append, ← offset]
  rfl

private theorem left (ahead : cursor.rest ≠ []) : cursor.offset < cursor.stop := by
  obtain ⟨token, rest, left⟩ := List.exists_cons_of_ne_nil ahead
  have wide := stands.wide left
  rw [Cursor.stop, left]
  change cursor.offset < cursor.offset + (token.length + _)
  omega

private theorem ended (left : cursor.rest = []) :
    cursor.span = ⟨Text.total Token.length tokens, Text.total Token.length tokens⟩ := by
  obtain ⟨_, read, whole, offset⟩ := stands
  rw [left, List.append_nil] at whole
  rw [Cursor.span, left, whole, ← offset]
  rfl

end Stands

/-- A report at tokens of the text, or in the gap behind them all. -/
def Ranged (tokens : List Token) (report : Report) : Prop :=
  report.related = [] ∧ (Covers tokens report.span ∨
    report.kind.isGap = true ∧ report.span = ⟨Text.total Token.length tokens, Text.total Token.length tokens⟩)

variable {tokens : List Token}

/-- A token that is there to be taken moves the cursor on. -/
private theorem Reading.take_forward {cursor : Cursor} (ahead : Ahead cursor) (stands : Stands tokens cursor) :
    cursor.skip.offset < (Reading.take cursor).next.offset := by
  obtain ⟨token, rest, left⟩ := List.exists_cons_of_ne_nil ahead
  have wide : 0 < token.length := stands.skip.wide left
  rw [Reading.take_token left]
  exact Nat.lt_add_of_pos_right wide

/-- Nothing is reported, whatever is ahead. -/
structure Silent {α : Type} (reading : Reading α) : Prop where
  quiet : ∀ cursor, (reading cursor).reports = []
  forward : Obeys Forward reading

namespace Silent
open Reading

variable {α β : Type} {first : Reading α} {second : α → Reading β} {reading : Reading Unit} {step : Reading Bool}

private theorem pure (value : α) : Silent (Pure.pure value : Reading α) := ⟨fun _ => rfl, moves_forward.pure value⟩

private theorem bind (before : Silent first) (after : ∀ value, Silent (second value)) : Silent (first >>= second) := by
  refine ⟨fun cursor => ?_, moves_forward.bind before.forward fun value => (after value).forward⟩
  exact List.append_eq_nil_iff.mpr ⟨before.quiet cursor, (after _).quiet _⟩

private theorem unit {second : Reading β} (before : Silent reading) (after : Silent second) : Silent (do reading; second) :=
  before.bind fun _ => after

theorem ask (question : Cursor → α) : Silent (ask question) := ⟨fun _ => rfl, moves_forward.ask question⟩

private theorem current : Silent current := ⟨fun _ => rfl, moves_forward.current⟩

theorem adjacent : Silent adjacent := ⟨fun _ => rfl, moves_forward.adjacent⟩

theorem take : Silent take := by
  refine ⟨fun cursor => ?_, moves_forward.take⟩
  cases left : cursor.skip.rest with
  | nil => rw [take_at_end left]
  | cons token rest => rw [take_token left]

private theorem takeIf (kind : TokenKind) : Silent (takeIf kind) := by
  refine current.bind fun found => ?_
  split
  · exact take.unit (pure true)
  · exact pure false

private theorem expect (kind : TokenKind) : Silent (expect kind) := by
  refine ⟨fun cursor => ?_, moves_forward.expect kind⟩
  change Step.reports ((if _ then _ else _ : Reading Unit) _) = []
  split <;> rfl

private theorem node (kind : NodeKind) (inside : Silent reading) : Silent (node kind reading) :=
  ⟨fun _ => inside.quiet _, moves_forward.node kind inside.forward⟩

theorem repeatWhile (once : Silent step) : Silent (repeatWhile step) := by
  refine ⟨fun cursor => ?_, moves_forward.repeatWhile once.forward⟩
  induction left : cursor.rest.length using Nat.strongRecOn generalizing cursor with
  | ind size ih =>
    rw [Reading.repeatWhile]
    split
    · exact once.quiet cursor
    · split
      next shorter => exact List.append_eq_nil_iff.mpr ⟨once.quiet cursor, ih _ (left ▸ shorter) _ rfl⟩
      next => exact once.quiet cursor

end Silent

/-- The reports from one cursor to the next mark tokens of the text, at spots of their own, above `low` and not
beyond the next cursor. One may be about what was opened before. -/
structure Pinned (tokens : List Token) (opened : Option Nat) (low : Nat) (cursor : Cursor) (reports : List Report) (next : Cursor) : Prop where
  stands : Stands tokens next
  onward : cursor.offset ≤ next.offset
  syntactic : ∀ report ∈ reports, report.kind.source = "syntax"
  ranged : ∀ report ∈ reports, Ranged tokens report
  within : ∀ report ∈ reports, opened = some report.spot ∨ low < report.spot ∧ report.spot ≤ 2 * next.offset
  apart : reports.Pairwise fun report other => report.spot ≠ other.spot

def Reading.Pins {α : Type} (tokens : List Token) (opened : Option Nat) (low : Nat) (reading : Reading α) (cursor : Cursor) : Prop :=
  Stands tokens cursor → low ≤ 2 * cursor.offset → (∀ spot, opened = some spot → spot ≤ low) →
    Pinned tokens opened low cursor (reading cursor).reports (reading cursor).next

variable {opened : Option Nat} {low : Nat} {cursor middle next : Cursor} {reports more : List Report}

private theorem Pinned.append (here : Pinned tokens none low cursor reports middle)
    (there : Pinned tokens opened (2 * middle.offset) middle more next) (below : low ≤ 2 * cursor.offset)
    (closed : ∀ spot, opened = some spot → spot ≤ low) : Pinned tokens opened low cursor (reports ++ more) next := by
  have before := here.onward
  have after := there.onward
  have inside (report : Report) (member : report ∈ reports) : low < report.spot ∧ report.spot ≤ 2 * middle.offset :=
    (here.within report member).resolve_left nofun
  refine ⟨there.stands, Nat.le_trans before after, ?_, ?_, ?_, List.pairwise_append.mpr ⟨here.apart, there.apart, ?_⟩⟩
  · intro report member
    exact (List.mem_append.mp member).elim (here.syntactic report) (there.syntactic report)
  · intro report member
    exact (List.mem_append.mp member).elim (here.ranged report) (there.ranged report)
  · intro report member
    rcases List.mem_append.mp member with first | later
    · have spots := inside report first
      exact .inr ⟨spots.1, by omega⟩
    · rcases there.within report later with about | spots
      · exact .inl about
      · exact .inr ⟨by omega, spots.2⟩
  · intro report first other later same
    have spots := inside report first
    rcases there.within other later with about | others
    · have early := closed _ about
      omega
    · omega

/-- What moves nothing back changes nothing. -/
private theorem Pinned.past (there : Pinned tokens opened low middle reports next) (onward : cursor.offset ≤ middle.offset) :
    Pinned tokens opened low cursor reports next :=
  { there with onward := Nat.le_trans onward there.onward }

private theorem Pinned.one {report : Report} (stands : Stands tokens next) (onward : cursor.offset ≤ next.offset)
    (syntactic : report.kind.source = "syntax") (ranged : Ranged tokens report)
    (within : opened = some report.spot ∨ low < report.spot ∧ report.spot ≤ 2 * next.offset) :
    Pinned tokens opened low cursor [report] next := by
  refine ⟨stands, onward, ?_, ?_, ?_, List.pairwise_singleton _ _⟩
  · intro other member
    exact List.mem_singleton.mp member ▸ syntactic
  · intro other member
    exact List.mem_singleton.mp member ▸ ranged
  · intro other member
    exact List.mem_singleton.mp member ▸ within

private theorem Pinned.none (stands : Stands tokens next) (onward : cursor.offset ≤ next.offset) :
    Pinned tokens opened low cursor [] next :=
  ⟨stands, onward, List.forall_mem_nil _, List.forall_mem_nil _, List.forall_mem_nil _, .nil⟩

namespace Reading.Pins

variable {α β : Type} {first : Reading α} {second : α → Reading β} {reading : Reading Unit}

private theorem bind (before : first.Pins tokens Option.none low cursor)
    (after : ∀ value next, (second value).Pins tokens opened (2 * next.offset) next) :
    (first >>= second).Pins tokens opened low cursor := by
  intro stands below closed
  have here := before stands below nofun
  have onward := here.onward
  have there := after (first cursor).value (first cursor).next here.stands (Nat.le_refl _) fun spot about =>
    Nat.le_trans (closed spot about) (by omega)
  exact here.append there below closed

/-- What is silent leaves the lower end where it was. -/
private theorem past (silent : Silent first) (after : (second (first cursor).value).Pins tokens opened low (first cursor).next) :
    (first >>= second).Pins tokens opened low cursor := by
  intro stands below closed
  obtain ⟨further, onward⟩ := stands.onward (silent.forward cursor)
  have there := after further (by omega) closed
  change Pinned tokens opened low cursor ((first cursor).reports ++ _) _
  rw [silent.quiet cursor]
  exact there.past onward

private theorem silent (silent : Silent first) : first.Pins tokens opened low cursor := by
  intro stands _ _
  obtain ⟨further, onward⟩ := stands.onward (silent.forward cursor)
  rw [silent.quiet cursor]
  exact .none further onward

/-- Like `past`, wherever that ends. -/
private theorem after (silent : Silent first)
    (after : ∀ value next, cursor.offset ≤ next.offset → (second value).Pins tokens opened low next) :
    (first >>= second).Pins tokens opened low cursor := by
  intro stands
  exact past silent (after _ _ (stands.onward (silent.forward cursor)).2) stands

private theorem followed {second : Reading β} (before : reading.Pins tokens opened low cursor) (silent : Silent second) :
    (do reading; second).Pins tokens opened low cursor := by
  intro stands below closed
  have here := before stands below closed
  obtain ⟨further, onward⟩ := here.stands.onward (silent.forward _)
  change Pinned tokens opened low cursor ((reading cursor).reports ++ (second (reading cursor).next).reports) _
  rw [silent.quiet, List.append_nil]
  refine ⟨further, Nat.le_trans here.onward onward, here.syntactic, here.ranged, fun report member => ?_, here.apart⟩
  refine (here.within report member).imp_right fun spots => ⟨spots.1, ?_⟩
  exact Nat.le_trans spots.2 (Nat.mul_le_mul_left 2 onward)

private theorem asking {question : Cursor → α}
    (after : Stands tokens cursor.skip → (second (question cursor.skip)).Pins tokens opened low cursor.skip) :
    (ask question >>= second).Pins tokens opened low cursor := fun stands => past (.ask question) (after stands.skip) stands

/-- A name that is adjacent is ahead. -/
private theorem adjoining {second : Option TokenKind → Reading β}
    (after : ∀ found next, cursor.offset ≤ next.offset → (found = some .identifier → Ahead next) →
      (second found).Pins tokens opened low next) :
    (adjacent >>= second).Pins tokens opened low cursor := by
  intro stands
  refine past .adjacent (after _ _ (stands.onward (moves_forward.adjacent cursor)).2 fun named => Ahead.look ?_) stands
  cases left : cursor.rest with
  | nil => simp [Reading.adjacent, left] at named
  | cons token rest =>
    have name : token.kind = .identifier := by simpa [Reading.adjacent, left] using named
    simp [Ahead, Cursor.skip, left, Token.isTrivia, TokenKind.isTrivia, name]

private theorem looking {second : Option TokenKind → Reading β}
    (after : ∀ found next, (found ≠ Option.none → Ahead next) → (second found).Pins tokens opened low next) :
    (current >>= second).Pins tokens opened low cursor := by
  refine past .current (after (cursor.look.skip.rest.head?.map Token.kind) cursor.look.skip fun found => Ahead.skip ?_)
  intro ended
  rw [ended] at found
  exact found rfl

private theorem glancing {question : Cursor → α} (ahead : Ahead cursor)
    (after : ∀ answer next, Ahead next → (second answer).Pins tokens opened low next) :
    ((do move Cursor.look; ask question) >>= second).Pins tokens opened low cursor :=
  past ⟨fun _ => rfl, moves_forward.unit moves_forward.look (moves_forward.ask question)⟩ (after _ _ ahead.look.skip)

private theorem atEnd {second : Bool → Reading β} (ended : ∀ next, (second true).Pins tokens opened low next)
    (going : ∀ next, Ahead next → (second false).Pins tokens opened low next) : (atEnd >>= second).Pins tokens opened low cursor := by
  refine asking fun _ => ?_
  cases left : cursor.skip.rest.isEmpty with
  | true => exact ended _
  | false => exact going _ (Ahead.skip fun none => by simp [none] at left)

private theorem taking {second : Unit → Reading β} (ahead : Ahead cursor)
    (after : ∀ next, low < 2 * next.offset → (second ()).Pins tokens opened low next) :
    (take >>= second).Pins tokens opened low cursor := by
  intro stands below
  have moved := take_forward ahead stands
  have skipped := cursor.offset_le_skip
  exact past .take (after _ (by omega)) stands below

private theorem takingIf {kind : TokenKind} {second : Bool → Reading β}
    (taken : ∀ next, low < 2 * next.offset → (second true).Pins tokens opened low next)
    (missed : ∀ next, cursor.offset ≤ next.offset → (Ahead cursor → Ahead next) → (second false).Pins tokens opened low next) :
    (takeIf kind >>= second).Pins tokens opened low cursor := by
  intro stands below
  let here := cursor.look.skip
  obtain ⟨further, onward⟩ := stands.onward (moves_forward.current cursor)
  by_cases found : here.rest.head?.map Token.kind = some kind
  · have taking : takeIf kind cursor = (do take; return true : Reading Bool) here :=
      congrFun (if_pos found : (if here.rest.head?.map Token.kind = some kind then
        (do take; return true : Reading Bool) else return false) = _) here
    have ahead : Ahead here := by
      refine Ahead.skip fun ended => ?_
      have none : here.rest = [] := ended
      rw [none] at found
      cases found
    refine past (.takeIf kind) ?_ stands below
    rw [taking]
    have moved := take_forward ahead further
    have skipped := here.offset_le_skip
    have before : cursor.offset ≤ here.offset := onward
    exact taken _ (show low < 2 * (take here).next.offset by omega)
  · have missing : takeIf kind cursor = (return false : Reading Bool) here :=
      congrFun (if_neg found : (if here.rest.head?.map Token.kind = some kind then
        (do take; return true : Reading Bool) else return false) = _) here
    refine past (.takeIf kind) ?_ stands below
    rw [missing]
    exact missed _ onward fun ahead => ahead.look.skip

/-- From the token that opens something on, which may be reported as long as that is open. -/
private theorem opening {second : Unit → Reading β} (ahead : Ahead cursor)
    (inside : ∀ next, 2 * cursor.offset + 1 < 2 * next.offset →
      (second ()).Pins tokens (some (2 * cursor.offset + 1)) (2 * cursor.offset + 1) next) :
    (take >>= second).Pins tokens none low cursor := by
  intro stands below _
  have moved := take_forward ahead stands
  have skipped := cursor.offset_le_skip
  have rest := inside (take cursor).next (by omega) (stands.onward (moves_forward.take cursor)).1 (by omega) fun spot about =>
    Nat.le_of_eq (Option.some.inj about).symm
  have onward := rest.onward
  change Pinned tokens none low cursor ((take cursor).reports ++ _) _
  rw [Silent.take.quiet cursor]
  refine ⟨rest.stands, Nat.le_trans (by omega) onward, rest.syntactic, rest.ranged, fun report member => .inr ?_, rest.apart⟩
  change _ ∧ report.spot ≤ 2 * (second () (take cursor).next).next.offset
  rcases rest.within report member with about | spots
  · have same := Option.some.inj about
    omega
  · omega

private theorem report {found : Report} (syntactic : found.kind.source = "syntax") (ranged : Ranged tokens found)
    (about : opened = some found.spot) :
    (report found).Pins tokens opened low cursor := by
  intro stands _ _
  unfold Reading.report
  split
  · exact .none stands (Nat.le_refl _)
  · exact .one stands (Nat.le_refl _) syntactic ranged (.inl about)

/-- A report about what is then read without another. -/
private theorem marking {mark rest : Reading Unit} (found : Report) (syntactic : found.kind.source = "syntax")
    (ranged : Stands tokens cursor → Ranged tokens found) (spotted : found.spot = 2 * cursor.offset + 1)
    (onward : Forward cursor [] [] (mark cursor).next)
    (marks : (mark cursor).reports = [] ∨ (mark cursor).reports = [found]) (silent : Silent rest)
    (moves : Stands tokens cursor → cursor.offset < (rest (mark cursor).next).next.offset) :
    (do mark; rest).Pins tokens none low cursor := by
  intro stands below _
  have moved := moves stands
  obtain ⟨further, _⟩ := (stands.onward onward).1.onward (silent.forward _)
  change Pinned tokens none low cursor ((mark cursor).reports ++ _) (rest (mark cursor).next).next
  rw [silent.quiet, List.append_nil]
  rcases marks with none | one
  · rw [none]
    exact .none further (Nat.le_of_lt moved)
  · rw [one]
    exact .one further (Nat.le_of_lt moved) syntactic (ranged stands) (.inr (by omega))

private theorem assoc {γ : Type} {third : β → Reading γ}
    (split : (first >>= fun value => second value >>= third).Pins tokens opened low cursor) :
    ((first >>= second) >>= third).Pins tokens opened low cursor := by
  intro stands below closed
  have here := split stands below closed
  change Pinned tokens opened low cursor (((first cursor).reports ++ (second _ _).reports) ++ (third _ _).reports) _
  rw [List.append_assoc]
  exact here

private theorem node {kind : NodeKind} {body : Reading Unit}
    (inside : body.Pins tokens opened low { cursor with waiting := [] }) :
    (Reading.node kind body).Pins tokens opened low cursor := fun stands below closed =>
  have here := inside stands below closed
  ⟨here.stands, here.onward, here.syntactic, here.ranged, here.within, here.apart⟩

private theorem unlessExhausted (inside : reading.Pins tokens opened low cursor) :
    (Reading.unlessExhausted reading).Pins tokens opened low cursor := by
  intro stands below closed
  unfold Reading.unlessExhausted
  split
  · exact .none stands (Nat.le_refl _)
  · exact inside stands below closed

private theorem repeatWhile {step : Reading Bool} (once : ∀ low cursor, step.Pins tokens none low cursor) (low : Nat)
    (cursor : Cursor) :
    (Reading.repeatWhile step).Pins tokens none low cursor := by
  induction left : cursor.rest.length using Nat.strongRecOn generalizing cursor low with
  | ind size ih =>
    intro stands below closed
    have here := once low cursor stands below closed
    rw [Reading.repeatWhile]
    split
    · exact here
    · split
      next shorter =>
        have later := ih _ (left ▸ shorter) _ _ rfl here.stands (Nat.le_refl _) fun _ opened =>
          absurd opened.symm (Option.some_ne_none _)
        exact here.append later below closed
      next => exact ⟨here.stands, here.onward, here.syntactic, here.ranged, here.within, here.apart⟩

end Reading.Pins

namespace Parser
open Reading

private theorem capture_silent : Silent capture := by
  refine .node _ (.unit .take (.bind .adjacent fun found => ?_))
  split
  · exact .take
  · exact .pure ()

private theorem quantifier_silent : Silent quantifier := by
  refine .bind .current fun found => ?_
  split
  · exact .node _ .take
  · exact .pure ()

private theorem nextCapture_silent : Silent nextCapture := by
  refine .bind .current fun found => ?_
  split
  · exact .unit capture_silent (.pure true)
  · exact .pure false

private theorem suffix_silent : Silent suffix := .unit quantifier_silent (.repeatWhile nextCapture_silent)

theorem stringContent_silent : Silent stringContent := by
  refine .bind .adjacent fun found => ?_
  split
  · exact .take
  · exact .pure ()

private theorem skipToken_silent : Silent skipToken := by
  refine .bind (.ask _) fun ended => ?_
  split
  · exact .pure ()
  · exact .node _ .take

theorem swallow_silent : Silent swallow := by
  refine .bind (.ask _) fun ended => ?_
  split
  · exact .pure false
  · exact .unit .take (.pure true)

private theorem skipToken_moves (ahead : Ahead cursor) (stands : Stands tokens cursor) :
    cursor.offset < (skipToken cursor).next.offset := by
  have going : cursor.skip.rest.isEmpty = false := by simpa [Ahead] using ahead
  change _ < (Step.next ((if cursor.skip.rest.isEmpty = true then pure () else node .error take : Reading Unit) _)).offset
  rw [going]
  have here : Ahead { cursor.skip with waiting := [] } := ahead.skip
  have moved := take_forward here stands.skip
  exact Nat.lt_of_le_of_lt cursor.offset_le_skip (Nat.lt_of_le_of_lt (Cursor.offset_le_skip _) moved)

theorem swallow_moves (ahead : Ahead cursor) (stands : Stands tokens cursor) :
    cursor.offset < (Reading.repeatWhile swallow cursor).next.offset := by
  have going : cursor.skip.rest.isEmpty = false := by simpa [Ahead] using ahead
  have once : swallow cursor = (do take; return true : Reading Bool) cursor.skip :=
    congrFun (if_neg (Bool.eq_false_iff.mp going) : (if cursor.skip.rest.isEmpty = true then return false else do
      take; return true : Reading Bool) = _) cursor.skip
  have moved : cursor.offset < (swallow cursor).next.offset := by
    rw [once]
    have taken := take_forward ahead.skip stands.skip
    exact Nat.lt_of_le_of_lt cursor.offset_le_skip (Nat.lt_of_le_of_lt (Cursor.offset_le_skip _) taken)
  have further := (stands.onward (swallow_silent.forward cursor)).1
  rw [Reading.repeatWhile]
  split
  · exact moved
  · split
    · exact Nat.lt_of_lt_of_le moved (further.onward ((Silent.repeatWhile swallow_silent).forward _)).2
    · exact moved

/-- What is missing here is reported in front of what stands here instead. -/
private theorem reportHere_pins {kind : Diagnostic.Kind} (gap : kind.isGap = true) (later : low < 2 * cursor.offset) :
    (reportHere kind).Pins tokens opened low cursor := by
  refine .asking fun stands _ _ _ => ?_
  have skipped := cursor.offset_le_skip
  have spotted : (Report.of kind cursor.skip.span).spot = 2 * cursor.skip.offset := by
    rw [Report.spot]
    change _ + (if kind.isGap = true then 0 else 1) = _
    rw [if_pos gap]
    rfl
  have syntactic : kind.source = "syntax" := by
    cases kind <;> first | rfl | cases gap
  have ranged : Ranged tokens (Report.of kind cursor.skip.span) := by
    refine ⟨rfl, ?_⟩
    by_cases left : cursor.skip.rest = []
    · exact .inr ⟨gap, stands.ended left⟩
    · exact .inl (stands.covers left)
  unfold Reading.report
  split
  · exact .none stands (Nat.le_refl _)
  · exact .one stands (Nat.le_refl _) syntactic ranged (.inr ⟨by omega, Nat.le_of_eq spotted⟩)

private theorem report_cases (found : Report) (cursor : Cursor) :
    (report found cursor).reports = [] ∨ (report found cursor).reports = [found] := by
  unfold Reading.report
  split
  · exact .inl rfl
  · exact .inr rfl

theorem report_forward (found : Report) (cursor : Cursor) : Forward cursor [] [] (report found cursor).next := by
  unfold Reading.report
  split <;> exact ⟨[], rfl, rfl⟩

private theorem reported_moves (found : Report) (ahead : Ahead cursor) (stands : Stands tokens cursor) :
    cursor.offset < (skipToken (report found cursor).next).next.offset := by
  obtain ⟨further, onward⟩ := stands.onward (report_forward found cursor)
  exact Nat.lt_of_le_of_lt onward (skipToken_moves (ahead.report found) further)

private theorem marked_pins (found : Report) (syntactic : found.kind.source = "syntax")
    (ranged : Stands tokens cursor → Ranged tokens found) (spotted : found.spot = 2 * cursor.offset + 1)
    (ahead : Ahead cursor) : (do report found; skipToken).Pins tokens none low cursor :=
  .marking found syntactic ranged spotted (report_forward found cursor) (report_cases found cursor) skipToken_silent
    (reported_moves found ahead)

private theorem unexpected_pins (wanted : String) (ahead : Ahead cursor) : (unexpected wanted).Pins tokens none low cursor :=
  .asking fun stands => marked_pins _ rfl (fun _ => ⟨rfl, .inl (stands.covers ahead)⟩) rfl ahead.skip

private theorem bareIdentifier_pins (ahead : Ahead cursor) : bareIdentifier.Pins tokens none low cursor :=
  .assoc (.asking fun stands => marked_pins _ rfl (fun _ => ⟨rfl, .inl (stands.covers ahead)⟩) rfl ahead.skip)

/-- All that is left is in what the last report is about. -/
private theorem giveUp_pins (ahead : Ahead cursor) : giveUp.Pins tokens none low cursor := by
  refine .asking fun here => .asking fun stands => .marking _ rfl (fun _ => ⟨rfl, .inl ⟨here.cut, stands.stop, ?_⟩⟩) ?_
    ⟨[], rfl, rfl⟩ (.inr rfl) (.node _ (.repeatWhile swallow_silent)) fun stands => ?_
  · rw [Cursor.skip_skip]
    exact here.left ahead
  · rw [Cursor.skip_skip]
    rfl
  · have here : Ahead { cursor.skip.skip with exhausted := true, waiting := [] } := ahead.skip.skip
    exact swallow_moves here stands

private theorem close_pins {closer : TokenKind} {unclosed : Diagnostic.Kind} {opener : Span}
    (syntactic : unclosed.source = "syntax")
    (plain : unclosed.isGap = false) (covered : Covers tokens opener) (about : opened = some (2 * opener.start + 1)) :
    (close closer unclosed opener).Pins tokens opened low cursor := by
  refine .after (.takeIf closer) fun closed next _ => ?_
  split
  · exact .silent (.pure ())
  · refine .report syntactic ⟨rfl, .inl covered⟩ (about.trans ?_)
    rw [Report.spot]
    change _ = some (_ + if unclosed.isGap = true then 0 else 1)
    rw [plain]
    rfl

private theorem detachedCapture_pins (ahead : Ahead cursor) : detachedCapture.Pins tokens none low cursor := by
  refine .asking fun sign => .node (.opening ahead.skip fun next past => .adjoining fun found next beyond named => ?_)
  split
  next name =>
    refine .asking fun stands => .after .take fun _ _ _ => .report rfl ⟨rfl, .inl ⟨sign.cut, ?_, ?_⟩⟩ rfl
    · exact (stands.covers (named name)).stop
    · have wide : next.skip.offset < next.skip.span.stop := (stands.covers (named name)).wide
      have skipped := next.offset_le_skip
      change cursor.skip.offset < next.skip.span.stop
      change 2 * cursor.skip.offset + 1 < _ at past
      omega
  next => exact .silent (.pure ())

private theorem closingQuote_pins {opener : Span} (covered : Covers tokens opener) :
    (closingQuote opener).Pins tokens (some (2 * opener.start + 1)) low cursor := by
  refine .after .adjacent fun found next _ => ?_
  split
  · exact .silent .take
  · exact .report rfl ⟨rfl, .inl covered⟩ rfl

private theorem string_pins (ahead : Ahead cursor) : string.Pins tokens none low cursor :=
  .node (.asking fun stands => .opening ahead.skip fun _ _ => .after stringContent_silent fun _ _ _ =>
    closingQuote_pins (stands.covers ahead))

private theorem negatedField_pins (ahead : Ahead cursor) : negatedField.Pins tokens none low cursor := by
  refine .node (.taking ahead fun next past => .takingIf (fun next _ => ?_) fun further onward _ => ?_)
  · exact .silent (.pure ())
  · exact reportHere_pins rfl (by omega)

private theorem stringOrWildcard_pins (ahead : Ahead cursor) : stringOrWildcard.Pins tokens none low cursor :=
  .takingIf (fun _ _ => .silent (.pure ())) fun _ _ still => string_pins (still ahead)

private theorem anonymousNode_pins (ahead : Ahead cursor) : anonymousNode.Pins tokens none low cursor :=
  .node (.followed (stringOrWildcard_pins ahead) suffix_silent)

private theorem argument_pins (kind : TokenKind) (ahead : Ahead cursor) : (argument kind).Pins tokens none low cursor := by
  unfold argument
  split
  · exact .silent capture_silent
  · exact string_pins ahead
  · exact .silent .take
  · exact .silent .take
  · exact unexpected_pins _ ahead

private theorem members_pins {member : TokenKind → Reading Unit}
    (each : ∀ kind {low cursor}, Ahead cursor → (member kind).Pins tokens none low cursor) :
    (Reading.repeatWhile (nextMember member)).Pins tokens none low cursor := by
  refine .repeatWhile (fun low cursor => .looking fun found next ahead => ?_) low cursor
  cases found with
  | none => exact .silent (.pure false)
  | some kind =>
    change (if kind.isCloser = true then pure false else do member kind; pure true : Reading Bool).Pins tokens none low next
    split
    · exact .silent (.pure false)
    · exact (each kind (ahead nofun)).followed (.pure true)

private theorem arguments_pins : arguments.Pins tokens none low cursor :=
  .node (members_pins fun kind _ _ ahead => argument_pins kind ahead)

private theorem predicateMark_pins (later : low < 2 * cursor.offset) : predicateMark.Pins tokens none low cursor := by
  refine .takingIf (fun _ _ => .silent (.pure ())) fun next onward _ => ?_
  refine .takingIf (fun _ _ => .silent (.pure ())) fun further beyond _ => ?_
  exact reportHere_pins rfl (by omega)

private theorem predicateName_pins (later : low < 2 * cursor.offset) : predicateName.Pins tokens none low cursor := by
  refine .takingIf (fun next later => ?_) fun next onward _ => ?_
  · exact predicateMark_pins later
  · exact reportHere_pins rfl (by omega)

private theorem predicate_pins (ahead : Ahead cursor) : predicate.Pins tokens none low cursor := by
  refine .node (.asking fun stands => .opening ahead.skip fun next opened => ?_)
  refine .after (.expect .sharp) fun _ sharp onward => .after .take fun _ named beyond => ?_
  refine .bind (predicateName_pins (by omega)) fun _ _ => .bind arguments_pins fun _ _ => ?_
  exact close_pins rfl rfl (stands.covers ahead) rfl

private theorem missingKind_pins : missingKind.Pins tokens none low cursor := by
  refine .looking fun found next ahead => ?_
  split
  · exact .silent .take
  · exact string_pins (ahead nofun)
  · exact .silent (.pure ())

private theorem subtype_pins : subtype.Pins tokens none low cursor := by
  refine .takingIf (fun next later => ?_) fun _ _ _ => .silent (.pure ())
  refine .takingIf (fun _ _ => .silent (.pure ())) fun further onward _ => ?_
  exact reportHere_pins rfl (by omega)

private theorem kindDetail_pins (name : String) : (kindDetail name).Pins tokens none low cursor := by
  unfold kindDetail
  split
  · exact missingKind_pins
  · exact subtype_pins

section Nested

variable {inner : Reading Unit} (pins : ∀ {low cursor}, Ahead cursor → inner.Pins tokens none low cursor)
include pins

private theorem item_pins (kind : TokenKind) (ahead : Ahead cursor) : (item inner kind).Pins tokens none low cursor := by
  unfold item
  split
  · exact negatedField_pins ahead
  · exact .silent .take
  · exact detachedCapture_pins ahead
  · split
    · exact pins ahead
    · exact unexpected_pins _ ahead

/-- The rest of a construct, whose opener may be reported at its end. -/
private theorem body_pins {closer : TokenKind} {unclosed : Diagnostic.Kind} {opener : Span}
    (syntactic : unclosed.source = "syntax")
    (plain : unclosed.isGap = false) (covered : Covers tokens opener) (about : opened = some (2 * opener.start + 1))
    (cursor : Cursor) :
    (do items inner; close closer unclosed opener; suffix : Reading Unit).Pins tokens opened low cursor :=
  .bind (members_pins fun kind _ _ ahead => item_pins pins kind ahead) fun _ _ =>
    (close_pins syntactic plain covered about).followed suffix_silent

private theorem namedNode_pins (ahead : Ahead cursor) : (namedNode inner).Pins tokens none low cursor := by
  refine .node (.asking fun stands => .opening ahead.skip fun _ _ => .after (.ask _) fun name _ _ => .after .take fun _ _ _ =>
    .bind (kindDetail_pins name) fun _ next => body_pins pins rfl rfl (stands.covers ahead) ?_ next)
  rfl

private theorem grouping_pins (ahead : Ahead cursor) : (grouping inner).Pins tokens none low cursor := by
  refine .node (.asking fun stands => .opening ahead.skip fun next _ => body_pins pins rfl rfl (stands.covers ahead) ?_ next)
  rfl

private theorem list_pins (ahead : Ahead cursor) : (list inner).Pins tokens none low cursor := by
  refine .node (.asking fun stands => .opening ahead.skip fun next _ => body_pins pins rfl rfl (stands.covers ahead) ?_ next)
  rfl

private theorem fieldDefinition_pins : (fieldDefinition inner).Pins tokens none low cursor := by
  refine .node (.after .take fun _ _ _ => .after (.expect .colon) fun _ _ _ => .after .take fun _ _ _ =>
    .looking fun found next ahead => ?_)
  split
  next valued => exact pins (ahead fun none => by simp [none] at valued)
  next => exact .silent (.pure ())

private theorem namedNodeOrGrouping_pins (ahead : Ahead cursor) : (namedNodeOrGrouping inner).Pins tokens none low cursor := by
  refine .glancing ahead fun found next ahead => ?_
  split
  · exact grouping_pins pins ahead
  · exact namedNode_pins pins ahead

private theorem parenthesized_pins (ahead : Ahead cursor) : (parenthesized inner).Pins tokens none low cursor := by
  refine .glancing ahead fun found next ahead => ?_
  split
  · exact predicate_pins ahead
  · exact namedNodeOrGrouping_pins pins ahead
  · exact namedNodeOrGrouping_pins pins ahead
  · exact grouping_pins pins ahead

private theorem construct_pins (ahead : Ahead cursor) : (construct inner).Pins tokens none low cursor := by
  refine .glancing ahead fun found next ahead => ?_
  split
  · exact parenthesized_pins pins ahead
  · exact list_pins pins ahead
  · exact anonymousNode_pins ahead
  · exact anonymousNode_pins ahead
  · refine .glancing ahead fun found next ahead => ?_
    split
    · exact fieldDefinition_pins pins
    · exact bareIdentifier_pins ahead
  · exact unexpected_pins _ ahead

private theorem nested_pins (ahead : Ahead cursor) : (nested inner).Pins tokens none low cursor := by
  have silent : Silent (move Cursor.rested) := ⟨fun _ => rfl, moves_forward.rested⟩
  have still : Ahead cursor.rested := ahead
  exact .past silent ((construct_pins pins still).followed silent)

end Nested

private theorem pattern_pins (room : Nat) (ahead : Ahead cursor) : (pattern room).Pins tokens none low cursor := by
  induction room generalizing low cursor with
  | zero => exact .unlessExhausted (giveUp_pins ahead)
  | succ room ih => exact .unlessExhausted (nested_pins (fun ahead => ih ahead) ahead)

private theorem topLevel_pins (limit : Nat) (kind : Option TokenKind) (ahead : Ahead cursor) :
    (topLevel limit kind).Pins tokens none low cursor := by
  unfold topLevel
  split
  · exact detachedCapture_pins ahead
  · split
    · exact pattern_pins limit ahead
    · exact unexpected_pins _ ahead

private theorem nextTopLevel_pins (limit low : Nat) (cursor : Cursor) : (nextTopLevel limit).Pins tokens none low cursor := by
  refine .atEnd (fun _ => .silent (.pure false)) fun next ahead => ?_
  exact .glancing ahead fun kind _ ahead => (topLevel_pins limit kind ahead).followed (.pure true)

end Parser

/-- The parser's reports are its own, at tokens of the text or behind it, and no two are at one spot. -/
theorem parse_pinned (limit : Nat) (source : String) : ∃ next,
    Pinned (Token.ofText source) none 0 (.start (Token.ofText source)) (parse limit source).reports next := by
  have silent : Silent (do Reading.move Cursor.skip; Reading.placeWaiting : Reading Unit) :=
    ⟨fun _ => rfl, moves_forward.unit moves_forward.skip moves_forward.placeWaiting⟩
  have pins : (Parser.program limit).Pins (Token.ofText source) none 0 (.start (Token.ofText source)) :=
    .node ((Reading.Pins.repeatWhile (Parser.nextTopLevel_pins limit) 0 _).followed silent)
  have stands : Stands (Token.ofText source) (.start (Token.ofText source)) :=
    ⟨fun token member => Token.length_pos (Token.ofText_filled member), [], rfl, rfl⟩
  exact ⟨_, pins stands (Nat.le_refl _) nofun⟩

end Syntax

end TreeQuery
