import TreeQuery.Proofs.ReadingLaw

/-! What a reading answers and where it ends, given what stands ahead. The kinds of the tokens
ahead, trivia left out, decide which way a reading goes; how many looks were spent since the
last token bounds how far it can go without moving on. -/

namespace TreeQuery.Syntax
open Diagnostic (Report)

/-- The tokens that are no trivia. -/
def solids (tokens : List Token) : List Token := tokens.filter fun token => !token.isTrivia

def solidKinds (tokens : List Token) : List TokenKind := (tokens.filter fun token => !token.isTrivia).map Token.kind

theorem solids_append (tokens more : List Token) : solids (tokens ++ more) = solids tokens ++ solids more :=
  List.filter_append ..

theorem solids_blank {tokens : List Token} (blank : ∀ token ∈ tokens, token.isTrivia = true) : solids tokens = [] := by
  apply List.filter_eq_nil_iff.mpr
  intro token member
  rw [blank token member]
  exact Bool.false_ne_true

theorem solids_kinds (tokens : List Token) : (solids tokens).map Token.kind = solidKinds tokens := rfl

theorem solidKinds_append (tokens more : List Token) :
    solidKinds (tokens ++ more) = solidKinds tokens ++ solidKinds more := by
  rw [← solids_kinds, solids_append, List.map_append]
  rfl

theorem solidKinds_blank {tokens : List Token} (blank : ∀ token ∈ tokens, token.isTrivia = true) :
    solidKinds tokens = [] := by
  rw [← solids_kinds, solids_blank blank]
  rfl

theorem solidKinds_dropWhile (tokens : List Token) :
    solidKinds (tokens.dropWhile Token.isTrivia) = solidKinds tokens := by
  induction tokens with
  | nil => rfl
  | cons token rest ih => cases blank : token.isTrivia <;> simp_all [solidKinds]

theorem kind_solid? (n : Nat) (tokens : List Token) :
    (solid? n tokens).map Token.kind = (solidKinds tokens)[n]? := by
  fun_induction solid? n tokens with
  | case1 => rfl
  | case2 token rest blank ih => simpa [solidKinds, blank] using ih
  | case3 token rest solid => simp [solidKinds, solid]
  | case4 n token rest ih => cases blank : token.isTrivia <;> simp_all [solidKinds]

/-- A reading from here answers and ends as stated. -/
def Reading.Ensures {α : Type} (reading : Reading α) (cursor : Cursor) (post : α → Cursor → Prop) : Prop :=
  post (reading cursor).value (reading cursor).next

namespace Reading.Ensures

variable {α β : Type} {cursor : Cursor} {post : β → Cursor → Prop}

theorem bind {first : Reading α} {second : α → Reading β} {between : α → Cursor → Prop}
    (before : first.Ensures cursor between)
    (after : ∀ value next, between value next → (second value).Ensures next post) :
    (first >>= second).Ensures cursor post :=
  after _ _ before

theorem weaken {reading : Reading β} {strong : β → Cursor → Prop} (ensured : reading.Ensures cursor strong)
    (implies : ∀ value next, strong value next → post value next) : reading.Ensures cursor post :=
  implies _ _ ensured

theorem node {kind : NodeKind} {body : Reading Unit} {post : Unit → Cursor → Prop}
    (inside : body.Ensures { cursor with waiting := [] } post) : (node kind body).Ensures cursor post :=
  inside

/-- A loop whose steps all move on ends by itself, where a step answers that it is over. -/
theorem repeatWhile {step : Reading Bool} (invariant : Cursor → Prop) {post : Unit → Cursor → Prop}
    (once : ∀ cursor, invariant cursor → step.Ensures cursor fun again next =>
      if again = true then invariant next ∧ next.rest.length < cursor.rest.length else post () next)
    (holds : invariant cursor) : (repeatWhile step).Ensures cursor post := by
  induction left : cursor.rest.length using Nat.strongRecOn generalizing cursor with
  | ind size ih =>
    have stepped := once cursor holds
    unfold Ensures at stepped ⊢
    rw [Reading.repeatWhile]
    cases again : (step cursor).value with
    | false => simpa [again] using stepped
    | true =>
      obtain ⟨kept, shorter⟩ : invariant (step cursor).next ∧
          (step cursor).next.rest.length < cursor.rest.length := by simpa [again] using stepped
      simpa [shorter, Ensures] using ih _ (left ▸ shorter) kept rfl

end Reading.Ensures

def Advances (cursor : Cursor) (_ : List Tree) (_ : List Report) (next : Cursor) : Prop :=
  next.rest <:+ cursor.rest

theorem advances : Law Advances where
  stay _ := List.suffix_rfl
  chain first later := List.IsSuffix.trans later first
  note _ _ _ _ := List.suffix_rfl
  skip _ := List.dropWhile_suffix _
  place _ := List.suffix_rfl
  token _ token _ _ left _ := ⟨[token], left.symm⟩
  around _ _ _ _ _ _ inside := inside
  found _ _ _ _ := List.suffix_rfl
  last _ _ _ _ := List.suffix_rfl

def IsDeep (report : Report) : Prop := report.kind = .nestingTooDeep

/-- Nothing is reported once nesting went too deep. -/
structure Hushes (cursor : Cursor) (reports : List Report) (next : Cursor) : Prop where
  quiet : cursor.exhausted = true → reports = [] ∧ next.exhausted = true
  last : ∀ earlier report later, reports = earlier ++ report :: later → IsDeep report → later = [] ∧ next.exhausted = true

private theorem Hushes.none {cursor next : Cursor} (still : cursor.exhausted = true → next.exhausted = true) :
    Hushes cursor [] next := ⟨fun deep => ⟨rfl, still deep⟩, fun _ _ _ none => by simp at none⟩

theorem hushes : Law fun cursor _ reports next => Hushes cursor reports next where
  stay _ := .none id
  chain := by
    intro first middle final trees later reports more before after
    refine ⟨fun deep => ?_, fun earlier report rest split deep => ?_⟩
    · obtain ⟨none, still⟩ := before.quiet deep
      obtain ⟨others, last⟩ := after.quiet still
      exact ⟨by rw [none, others]; rfl, last⟩
    · rcases List.append_eq_append_iff.mp split with ⟨between, _, inside⟩ | ⟨between, inside, onward⟩
      · exact after.last between report rest inside deep
      · cases between with
        | nil => exact after.last [] report rest onward.symm deep
        | cons first between =>
          obtain ⟨rfl, rfl⟩ := List.cons.inj onward
          obtain ⟨rfl, still⟩ := before.last earlier report between inside deep
          exact after.quiet still
  note _ _ _ _ := .none id
  skip _ := .none id
  place _ := .none id
  token _ _ _ _ _ _ := .none id
  around _ _ _ _ _ _ inside := inside
  found _ report awake shallow := by
    refine ⟨fun deep => (nomatch awake.symm.trans deep), fun earlier other later split deep => ?_⟩
    cases earlier with
    | nil =>
      obtain ⟨rfl, _⟩ := List.cons.inj split
      exact absurd deep shallow
    | cons first earlier => simp at split
  last _ report awake _ := by
    refine ⟨fun deep => (nomatch awake.symm.trans deep), fun earlier other later split _ => ?_⟩
    cases earlier with
    | nil => exact ⟨(List.cons.inj split).2.symm, rfl⟩
    | cons first earlier => simp at split

/-- Where the text ends does not change on the way. -/
theorem stops : Law fun cursor _ _ next => next.stop = cursor.stop where
  stay _ := rfl
  chain first second := second.trans first
  note _ _ _ _ := rfl
  skip cursor := by
    have split := congrArg (Text.total Token.length) (List.takeWhile_append_dropWhile (p := Token.isTrivia) (l := cursor.rest))
    rw [Text.total_append] at split
    simp only [Cursor.stop, Cursor.skip]
    omega
  place _ := rfl
  token cursor token rest _ left _ := by
    rw [Cursor.stop, Cursor.stop, left, Text.total_cons]
    exact Nat.add_assoc ..
  around _ _ _ _ _ _ inside := inside
  found _ _ _ _ := rfl
  last _ _ _ _ := rfl

/-- What was reported last is known. -/
theorem remembers : Law fun cursor _ reports next => reports = [] → next.reported = cursor.reported where
  stay _ _ := rfl
  chain first second none :=
    (second (List.append_eq_nil_iff.mp none).2).trans (first (List.append_eq_nil_iff.mp none).1)
  note _ _ _ _ _ := rfl
  skip _ _ := rfl
  place _ _ := rfl
  token _ _ _ _ _ _ _ := rfl
  around _ _ _ _ _ _ inside := inside
  found _ _ _ _ := nofun
  last _ _ _ _ _ := rfl

/-- No fault so far, few looks since the last token, and solid tokens of these kinds ahead. Once
nesting went too deep, nothing is ahead. -/
structure Calm (looks : Nat) (ahead : List TokenKind) (cursor : Cursor) : Prop where
  sound : cursor.fault = none
  looked : cursor.looks ≤ looks
  kinds : solidKinds cursor.rest = ahead
  swallowed : cursor.exhausted = true → ahead = []

/-- Calm, with none or some of these kinds behind by now. -/
def Onward (looks : Nat) (ahead : List TokenKind) (cursor : Cursor) : Prop :=
  ∃ later, later <:+ ahead ∧ Calm looks later cursor

variable {looks more : Nat} {kind : TokenKind} {ahead later : List TokenKind} {cursor : Cursor}

private theorem Calm.widen (calm : Calm looks ahead cursor) (enough : looks ≤ more) : Calm more ahead cursor :=
  ⟨calm.sound, Nat.le_trans calm.looked enough, calm.kinds, calm.swallowed⟩

theorem Calm.onward (calm : Calm looks ahead cursor) (enough : looks ≤ more) : Onward more ahead cursor :=
  ⟨ahead, List.suffix_rfl, calm.widen enough⟩

theorem Calm.unplaced (calm : Calm looks ahead cursor) : Calm looks ahead { cursor with waiting := [] } :=
  ⟨calm.sound, calm.looked, calm.kinds, calm.swallowed⟩

private theorem Calm.skip (calm : Calm looks ahead cursor) : Calm looks ahead cursor.skip :=
  ⟨calm.sound, calm.looked, (solidKinds_dropWhile _).trans calm.kinds, calm.swallowed⟩

theorem Onward.widen (onward : Onward looks ahead cursor) (enough : looks ≤ more) : Onward more ahead cursor := by
  obtain ⟨later, suffix, calm⟩ := onward
  exact ⟨later, suffix, calm.widen enough⟩

theorem Onward.within (onward : Onward looks later cursor) (suffix : later <:+ ahead) :
    Onward looks ahead cursor := by
  obtain ⟨last, inside, calm⟩ := onward
  exact ⟨last, inside.trans suffix, calm⟩

theorem Onward.unplaced (onward : Onward looks ahead cursor) : Onward looks ahead { cursor with waiting := [] } := by
  obtain ⟨later, suffix, calm⟩ := onward
  exact ⟨later, suffix, calm.unplaced⟩

theorem Cursor.first (kinds : solidKinds cursor.rest = kind :: ahead) :
    ∃ token rest, cursor.skip.rest = token :: rest ∧ token.kind = kind ∧ solidKinds rest = ahead := by
  rw [← solidKinds_dropWhile] at kinds
  cases left : cursor.skip.rest with
  | nil => cases (congrArg solidKinds left).symm.trans kinds
  | cons token rest =>
    have solid := Cursor.skip_solid left
    have same := (congrArg solidKinds left).symm.trans kinds
    simp only [solidKinds, List.filter_cons, solid, Bool.not_false, if_true, List.map_cons,
      List.cons.injEq] at same
    exact ⟨token, rest, rfl, same.1, same.2⟩

private theorem Calm.first (calm : Calm looks (kind :: ahead) cursor) :
    ∃ token rest, cursor.skip.rest = token :: rest ∧ token.kind = kind ∧ solidKinds rest = ahead :=
  Cursor.first calm.kinds

theorem Cursor.skip_twice (cursor : Cursor) : cursor.skip.skip.rest = cursor.skip.rest := by
  cases left : cursor.skip.rest with
  | nil => exact congrArg (List.dropWhile Token.isTrivia) left
  | cons token rest =>
    have solid := Cursor.skip_solid left
    exact (congrArg (List.dropWhile Token.isTrivia) left).trans (by simp [solid])

theorem Cursor.skip_skip (cursor : Cursor) : cursor.skip.skip = cursor.skip := by
  have none : cursor.skip.rest.takeWhile Token.isTrivia = [] := by
    cases left : cursor.skip.rest with
    | nil => rfl
    | cons token rest => simp [Cursor.skip_solid left]
  have same : cursor.skip.skip = { cursor.skip with
    offset := cursor.skip.offset + Text.total Token.length (cursor.skip.rest.takeWhile Token.isTrivia)
    waiting := cursor.skip.waiting ++ cursor.skip.rest.takeWhile Token.isTrivia
    rest := cursor.skip.skip.rest } := rfl
  rw [same, none, Cursor.skip_twice, List.append_nil]
  rfl

theorem Cursor.ended (kinds : solidKinds cursor.rest = []) : cursor.skip.rest = [] := by
  rw [← solidKinds_dropWhile] at kinds
  cases left : cursor.skip.rest with
  | nil => rfl
  | cons token rest =>
    have same := (congrArg solidKinds left).symm.trans kinds
    simp [solidKinds, Cursor.skip_solid left] at same

theorem Calm.ended (calm : Calm looks [] cursor) : cursor.skip.rest = [] := Cursor.ended calm.kinds

theorem Cursor.head?_kind (kinds : solidKinds cursor.rest = ahead) :
    cursor.skip.rest.head?.map Token.kind = ahead.head? := by
  cases ahead with
  | nil => rw [Cursor.ended kinds]; rfl
  | cons kind ahead =>
    obtain ⟨token, rest, left, same, _⟩ := Cursor.first kinds
    rw [left, ← same]
    rfl

private theorem Onward.shorter {next : Cursor} (onward : Onward more later next) (calm : Calm looks (kind :: later) cursor)
    (forward : next.rest <:+ cursor.rest) : next.rest.length < cursor.rest.length := by
  obtain ⟨last, inside, after⟩ := onward
  apply Nat.lt_of_le_of_ne forward.length_le
  intro same
  have equal := forward.eq_of_length same
  have fewer := inside.length_le
  rw [← after.kinds, equal, calm.kinds, List.length_cons] at fewer
  omega

namespace Reading

private theorem look_calm (calm : Calm looks ahead cursor) (few : looks < Cursor.lookLimit) :
    Calm (looks + 1) ahead cursor.look := by
  have within : cursor.looks < Cursor.lookLimit := Nat.lt_of_le_of_lt calm.looked few
  have same : cursor.look = { cursor with looks := cursor.looks + 1 } := by simp [Cursor.look, within]
  rw [same]
  exact ⟨calm.sound, Nat.succ_le_succ calm.looked, calm.kinds, calm.swallowed⟩

theorem ask_calm {α : Type} (question : Cursor → α) (calm : Calm looks ahead cursor) :
    (ask question).Ensures cursor fun _ next => Calm looks ahead next :=
  calm.skip

theorem current_calm (calm : Calm looks ahead cursor) (few : looks < Cursor.lookLimit) :
    current.Ensures cursor fun found next => found = ahead.head? ∧ Calm (looks + 1) ahead next :=
  ⟨Cursor.head?_kind (look_calm calm few).kinds, (look_calm calm few).skip⟩

theorem ahead_calm (n : Nat) (calm : Calm looks ahead cursor) (few : looks < Cursor.lookLimit) :
    (Reading.ahead n).Ensures cursor fun found next => found = ahead[n]? ∧ Calm (looks + 1) ahead next := by
  have looked := (look_calm calm few).skip
  exact ⟨looked.kinds ▸ kind_solid? n cursor.look.skip.rest, looked⟩

/-- A token that follows immediately and is not trivia is the next solid one. -/
theorem adjacent_calm (calm : Calm looks ahead cursor) (few : looks < Cursor.lookLimit) :
    adjacent.Ensures cursor fun found next => Calm (looks + 1) ahead next ∧
      ∀ kind, found = some kind → kind.isTrivia = false → ∃ later, ahead = kind :: later := by
  refine ⟨look_calm calm few, fun kind found solid => ?_⟩
  obtain ⟨token, first, rfl⟩ := Option.map_eq_some_iff.mp found
  obtain ⟨rest, left⟩ := List.head?_eq_some_iff.mp first
  refine ⟨solidKinds rest, calm.kinds.symm.trans ?_⟩
  simp [left, solidKinds, Token.isTrivia, solid]

theorem atEnd_calm (calm : Calm looks ahead cursor) :
    atEnd.Ensures cursor fun ended next => (ended = true ↔ ahead = []) ∧ Calm looks ahead next := by
  refine ⟨?_, calm.skip⟩
  change cursor.skip.rest.isEmpty = true ↔ ahead = []
  rw [List.isEmpty_iff]
  cases ahead with
  | nil => simp [calm.ended]
  | cons kind ahead =>
    obtain ⟨token, rest, left, _⟩ := calm.first
    simp [left]

theorem take_first {token : Token} {rest : List Token} (left : cursor.skip.rest = token :: rest) :
    take.Ensures cursor fun _ next =>
      next.fault = cursor.fault ∧ next.looks = 0 ∧ next.rest = rest ∧ next.exhausted = cursor.exhausted := by
  rw [Ensures, take_token left]
  exact ⟨rfl, rfl, rfl, rfl⟩

theorem take_calm (calm : Calm looks (kind :: ahead) cursor) :
    take.Ensures cursor fun _ next => Calm 0 ahead next := by
  obtain ⟨token, rest, left, _, kinds⟩ := calm.first
  refine (take_first left).weaken fun _ next ⟨fault, looked, same, exhausted⟩ => ?_
  refine ⟨fault.trans calm.sound, Nat.le_of_eq looked, same ▸ kinds, fun deep => ?_⟩
  simpa using calm.swallowed (exhausted.symm.trans deep)

theorem takeIf_calm (calm : Calm looks ahead cursor) (few : looks < Cursor.lookLimit) :
    (takeIf kind).Ensures cursor fun taken next =>
      if taken = true then ∃ later, ahead = kind :: later ∧ Calm 0 later next
      else ahead.head? ≠ some kind ∧ Calm (looks + 1) ahead next := by
  refine (current_calm calm few).bind fun found next ⟨same, calm⟩ => ?_
  split
  next here =>
    obtain ⟨later, rfl⟩ := List.head?_eq_some_iff.mp (same.symm.trans here)
    exact (take_calm calm).bind fun _ next calm => ⟨later, rfl, calm⟩
  next elsewhere => exact ⟨same ▸ elsewhere, calm⟩

theorem expect_calm (calm : Calm looks (kind :: ahead) cursor) (few : looks < Cursor.lookLimit) :
    (expect kind).Ensures cursor fun _ next => Calm (looks + 1) (kind :: ahead) next := by
  refine (current_calm calm few).bind fun found next ⟨same, calm⟩ => ?_
  have here : found = some kind := same
  rw [if_pos here]
  exact calm

theorem report_calm (found : Report) (calm : Calm looks ahead cursor) :
    (report found).Ensures cursor fun _ next => Calm looks ahead next := by
  unfold Ensures report
  split
  · exact calm
  · exact ⟨calm.sound, calm.looked, calm.kinds, calm.swallowed⟩

/-- A loop over the tokens ahead. Where its step goes on it has taken a token, and where it does
not the stated condition on what is ahead holds. -/
theorem repeatWhile_calm {step : Reading Bool} (last : Nat) (stops : List TokenKind → Prop)
    (forward : Obeys Advances step)
    (once : ∀ {ahead cursor}, Calm looks ahead cursor → step.Ensures cursor fun again next =>
      if again = true then ∃ kind later, ahead = kind :: later ∧ Onward looks later next
      else stops ahead ∧ Calm last ahead next)
    (calm : Calm looks ahead cursor) :
    (repeatWhile step).Ensures cursor fun _ next =>
      ∃ later, later <:+ ahead ∧ stops later ∧ Calm last later next := by
  apply Ensures.repeatWhile (fun cursor => Onward looks ahead cursor)
  · rintro cursor ⟨here, inside, calm⟩
    have outcome := once calm
    unfold Ensures at outcome ⊢
    cases again : (step cursor).value with
    | false =>
      obtain ⟨stopped, calm⟩ : stops here ∧ Calm last here (step cursor).next := by simpa [again] using outcome
      simpa using ⟨here, inside, stopped, calm⟩
    | true =>
      obtain ⟨kind, later, rfl, onward⟩ : ∃ kind later, here = kind :: later ∧
          Onward looks later (step cursor).next := by simpa [again] using outcome
      simpa using ⟨onward.within ((List.suffix_cons kind later).trans inside), onward.shorter calm (forward cursor)⟩
  · exact calm.onward (Nat.le_refl _)

end Reading

end TreeQuery.Syntax
