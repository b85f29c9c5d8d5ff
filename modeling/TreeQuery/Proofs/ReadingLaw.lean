import TreeQuery.Syntax.Parser

/-! What holds of every reading because it holds of the steps that readings are made of. A law
relates the cursor before a reading to what it places, what it reports and the cursor after
it. One that survives every single step holds of the whole grammar, whatever stands ahead. -/

namespace TreeQuery.Syntax
open Text (Span)
open Diagnostic (Report)

/-- The steps that a law has to survive. Looks and faults are noted in one step, the first fault
for good; a token is placed after the trivia before it, and a node after the trivia in front of it. -/
structure Law (relation : Cursor → List Tree → List Report → Cursor → Prop) : Prop where
  stay : ∀ cursor, relation cursor [] [] cursor
  chain : ∀ {first middle last trees later reports more}, relation first trees reports middle →
    relation middle later more last → relation first (trees ++ later) (reports ++ more) last
  note : ∀ cursor looks fault, (cursor.fault ≠ none → fault = cursor.fault) →
    relation cursor [] [] { cursor with looks, fault }
  skip : ∀ cursor, relation cursor [] [] cursor.skip
  place : ∀ cursor, relation cursor (cursor.waiting.map .leaf) [] { cursor with waiting := [] }
  token : ∀ cursor token rest, cursor.waiting = [] → cursor.rest = token :: rest → token.isTrivia = false →
    relation cursor [.leaf token] [] { cursor with offset := cursor.offset + token.length, rest }
  around : ∀ cursor kind trees reports next, cursor.waiting = [] → relation cursor trees reports next →
    relation cursor [.node kind trees] reports next
  found : ∀ cursor report, cursor.exhausted = false → report.kind ≠ .nestingTooDeep →
    relation cursor [] [report] { cursor with reported := some report.span.start }
  last : ∀ cursor report, cursor.exhausted = false → report.kind = .nestingTooDeep →
    relation cursor [] [report] { cursor with exhausted := true }

def Obeys {α : Type} (relation : Cursor → List Tree → List Report → Cursor → Prop) (reading : Reading α) : Prop :=
  ∀ cursor, relation cursor (reading cursor).trees (reading cursor).reports (reading cursor).next

theorem Cursor.skip_solid {cursor : Cursor} {token : Token} {rest : List Token}
    (left : cursor.skip.rest = token :: rest) : token.isTrivia = false := by
  have solid := List.head?_dropWhile_not Token.isTrivia cursor.rest
  have first : (cursor.rest.dropWhile Token.isTrivia).head? = some token := congrArg List.head? left
  simpa only [first, Bool.not_eq_true'] using solid

theorem Cursor.failed_keeps (cursor : Cursor) (fault : Fault) :
    cursor.fault ≠ none → (cursor.failed fault).fault = cursor.fault := by
  intro noted
  obtain ⟨first, same⟩ := Option.ne_none_iff_exists'.mp noted
  simp [Cursor.failed, same]

theorem Reading.take_at_end {cursor : Cursor} (ended : cursor.skip.rest = []) :
    take cursor = ⟨(), [], [], cursor.skip.failed .nothingLeft⟩ := by
  simp [take, ended]

theorem Reading.take_token {cursor : Cursor} {token : Token} {rest : List Token}
    (left : cursor.skip.rest = token :: rest) :
    take cursor = ⟨(), (cursor.skip.waiting ++ [token]).map .leaf, [],
      { cursor.skip.rested with offset := cursor.skip.offset + token.length, waiting := [], rest }⟩ := by
  simp [take, left]

namespace Law
open Reading TreeQuery.Syntax.Parser

variable {relation : Cursor → List Tree → List Report → Cursor → Prop} (law : Law relation) {α β : Type}
include law

theorem pure (value : α) : Obeys relation (Pure.pure value : Reading α) := fun cursor => law.stay cursor

theorem bind {first : Reading α} {second : α → Reading β} (before : Obeys relation first)
    (after : ∀ value, Obeys relation (second value)) : Obeys relation (first >>= second) :=
  fun cursor => law.chain (before cursor) (after (first cursor).value (first cursor).next)

theorem unit {first : Reading Unit} {second : Reading β} (before : Obeys relation first)
    (after : Obeys relation second) : Obeys relation (do first; second) :=
  law.bind before fun _ => after

theorem look : Obeys relation (move Cursor.look) := by
  intro cursor
  change relation cursor [] [] cursor.look
  unfold Cursor.look
  split
  · exact law.note cursor _ _ fun _ => rfl
  · exact law.note cursor _ _ (Cursor.failed_keeps cursor _)

theorem rested : Obeys relation (move Cursor.rested) := fun cursor => law.note cursor 0 cursor.fault fun _ => rfl

private theorem failed (fault : Fault) : Obeys relation (move (·.failed fault)) := fun cursor =>
  law.note cursor cursor.looks _ (Cursor.failed_keeps cursor fault)

theorem ask (question : Cursor → α) : Obeys relation (Reading.ask question) := fun cursor => law.skip cursor

theorem current : Obeys relation current := law.unit law.look (law.ask _)

theorem adjacent : Obeys relation adjacent := law.look

private theorem ahead (n : Nat) : Obeys relation (ahead n) := law.unit law.look (law.ask _)

theorem placeWaiting : Obeys relation placeWaiting := fun cursor => law.place cursor

theorem take : Obeys relation take := by
  intro cursor
  have skipped := law.skip cursor
  cases left : cursor.skip.rest with
  | nil =>
    rw [take_at_end left]
    exact law.chain skipped (law.failed .nothingLeft cursor.skip)
  | cons token rest =>
    have placed := law.token { cursor.skip with waiting := [] } token rest rfl left (Cursor.skip_solid left)
    have counted := law.chain placed (law.note _ 0 cursor.skip.fault fun _ => rfl)
    rw [take_token left, List.map_append]
    exact law.chain skipped (law.chain (law.place cursor.skip) counted)

private theorem takeIf (kind : TokenKind) : Obeys relation (takeIf kind) := by
  refine law.bind law.current fun found => ?_
  split
  · exact law.unit law.take (law.pure true)
  · exact law.pure false

theorem expect (kind : TokenKind) : Obeys relation (expect kind) := by
  refine law.bind law.current fun found => ?_
  split
  · exact law.pure ()
  · exact law.failed _

theorem node (kind : NodeKind) {body : Reading Unit} (inside : Obeys relation body) :
    Obeys relation (node kind body) := fun cursor =>
  law.chain (law.place cursor) (law.around { cursor with waiting := [] } kind _ _ _ rfl (inside _))

theorem report (found : Report) (shallow : found.kind ≠ .nestingTooDeep) : Obeys relation (report found) := by
  intro cursor
  unfold Reading.report
  split
  · exact law.stay cursor
  next heard => exact law.found cursor found (by simp_all) shallow

private theorem unlessExhausted {reading : Reading Unit} (inside : ∀ cursor, cursor.exhausted = false →
      relation cursor (reading cursor).trees (reading cursor).reports (reading cursor).next) :
    Obeys relation (unlessExhausted reading) := by
  intro cursor
  unfold Reading.unlessExhausted
  split
  · exact law.stay cursor
  next awake => exact inside cursor (Bool.eq_false_iff.mpr awake)

theorem repeatWhile {step : Reading Bool} (once : Obeys relation step) : Obeys relation (repeatWhile step) := by
  intro cursor
  induction left : cursor.rest.length using Nat.strongRecOn generalizing cursor with
  | ind size ih =>
    rw [Reading.repeatWhile]
    split
    · exact once cursor
    · split
      next shorter => exact law.chain (once cursor) (ih _ (left ▸ shorter) _ rfl)
      next =>
        have failed := law.chain (once cursor) (law.failed .endless (step cursor).next)
        simpa only [move, List.append_nil] using failed

private theorem reportHere {kind : Diagnostic.Kind} (shallow : kind ≠ .nestingTooDeep) : Obeys relation (reportHere kind) :=
  law.bind (law.ask _) fun _ => law.report _ shallow

private theorem skipToken : Obeys relation skipToken := by
  refine law.bind (law.ask _) fun ended => ?_
  split
  · exact law.pure ()
  · exact law.node _ law.take

private theorem unexpected (wanted : String) : Obeys relation (unexpected wanted) :=
  law.bind (law.ask _) fun _ => law.unit (law.report _ nofun) law.skipToken

private theorem bareIdentifier : Obeys relation bareIdentifier := law.unit (law.reportHere nofun) law.skipToken

private theorem close (closer : TokenKind) (unclosed : Diagnostic.Kind) (opener : Span) (shallow : unclosed ≠ .nestingTooDeep) :
    Obeys relation (close closer unclosed opener) := by
  refine law.bind (law.takeIf closer) fun closed => ?_
  split
  · exact law.pure ()
  · exact law.report _ shallow

private theorem capture : Obeys relation capture := by
  refine law.node _ (law.unit law.take (law.bind law.adjacent fun found => ?_))
  split
  · exact law.take
  · exact law.pure ()

private theorem detachedCapture : Obeys relation detachedCapture := by
  refine law.bind (law.ask _) fun start => law.node _ (law.unit law.take (law.bind law.adjacent fun found => ?_))
  split
  · exact law.bind (law.ask _) fun name => law.unit law.take (law.report _ nofun)
  · exact law.pure ()

private theorem quantifier : Obeys relation quantifier := by
  refine law.bind law.current fun found => ?_
  split
  · exact law.node _ law.take
  · exact law.pure ()

theorem nextCapture : Obeys relation nextCapture := by
  refine law.bind law.current fun found => ?_
  split
  · exact law.unit law.capture (law.pure true)
  · exact law.pure false

private theorem suffix : Obeys relation suffix := law.unit law.quantifier (law.repeatWhile law.nextCapture)

private theorem stringContent : Obeys relation stringContent := by
  refine law.bind law.adjacent fun found => ?_
  split
  · exact law.take
  · exact law.pure ()

private theorem closingQuote (opener : Span) : Obeys relation (closingQuote opener) := by
  refine law.bind law.adjacent fun found => ?_
  split
  · exact law.take
  · exact law.report _ nofun

theorem string : Obeys relation string :=
  law.node _ (law.bind (law.ask _) fun opener =>
    law.unit law.take (law.unit law.stringContent (law.closingQuote opener)))

theorem negatedField : Obeys relation negatedField := by
  refine law.node _ (law.unit law.take (law.bind (law.takeIf _) fun named => ?_))
  split
  · exact law.pure ()
  · exact law.reportHere nofun

private theorem stringOrWildcard : Obeys relation stringOrWildcard := by
  refine law.bind (law.takeIf _) fun wildcard => ?_
  split
  · exact law.pure ()
  · exact law.string

theorem anonymousNode : Obeys relation anonymousNode :=
  law.node _ (law.unit law.stringOrWildcard law.suffix)

theorem argument (kind : TokenKind) : Obeys relation (argument kind) := by
  unfold Parser.argument
  split
  · exact law.capture
  · exact law.string
  · exact law.take
  · exact law.take
  · exact law.unexpected _

theorem nextMember {member : TokenKind → Reading Unit} (each : ∀ kind, Obeys relation (member kind)) :
    Obeys relation (nextMember member) := by
  refine law.bind law.current fun found => ?_
  cases found with
  | none => exact law.pure false
  | some kind =>
    change Obeys relation (if kind.isCloser then Pure.pure false else do member kind; Pure.pure true)
    split
    · exact law.pure false
    · exact law.unit (each kind) (law.pure true)

theorem arguments : Obeys relation arguments := law.node _ (law.repeatWhile (law.nextMember law.argument))

private theorem predicateMark : Obeys relation predicateMark := by
  refine law.bind (law.takeIf _) fun question => ?_
  split
  · exact law.pure ()
  · refine law.bind (law.takeIf _) fun bang => ?_
    split
    · exact law.pure ()
    · exact law.reportHere nofun

private theorem predicateName : Obeys relation predicateName := by
  refine law.bind (law.takeIf _) fun named => ?_
  split
  · exact law.predicateMark
  · exact law.reportHere nofun

theorem predicate : Obeys relation predicate :=
  law.node _ (law.bind (law.ask _) fun _ => law.unit law.take (law.unit (law.expect _) (law.unit law.take
    (law.unit law.predicateName (law.unit law.arguments (law.close _ _ _ nofun))))))

private theorem missingKind : Obeys relation missingKind := by
  refine law.bind law.current fun found => ?_
  split
  · exact law.take
  · exact law.string
  · exact law.pure ()

private theorem subtype : Obeys relation subtype := by
  refine law.bind (law.takeIf _) fun slash => ?_
  split
  · refine law.bind (law.takeIf _) fun named => ?_
    split
    · exact law.pure ()
    · exact law.reportHere nofun
  · exact law.pure ()

private theorem kindDetail (name : String) : Obeys relation (kindDetail name) := by
  unfold Parser.kindDetail
  split
  · exact law.missingKind
  · exact law.subtype

section Nested

variable {inner : Reading Unit} (obeys : Obeys relation inner)
include obeys

theorem item (kind : TokenKind) : Obeys relation (item inner kind) := by
  unfold Parser.item
  split
  · exact law.negatedField
  · exact law.take
  · exact law.detachedCapture
  · split
    · exact obeys
    · exact law.unexpected _

private theorem items : Obeys relation (items inner) := law.repeatWhile (law.nextMember (law.item obeys))

theorem namedNode : Obeys relation (namedNode inner) :=
  law.node _ (law.bind (law.ask _) fun opener => law.unit law.take (law.bind (law.ask _) fun name =>
    law.unit law.take (law.unit (law.kindDetail name) (law.unit (law.items obeys)
      (law.unit (law.close _ _ opener nofun) law.suffix)))))

theorem grouping : Obeys relation (grouping inner) :=
  law.node _ (law.bind (law.ask _) fun opener => law.unit law.take (law.unit (law.items obeys)
    (law.unit (law.close _ _ opener nofun) law.suffix)))

theorem list : Obeys relation (list inner) :=
  law.node _ (law.bind (law.ask _) fun opener => law.unit law.take (law.unit (law.items obeys)
    (law.unit (law.close _ _ opener nofun) law.suffix)))

theorem fieldDefinition : Obeys relation (fieldDefinition inner) := by
  refine law.node _ (law.unit law.take (law.unit (law.expect _) (law.unit law.take
    (law.bind law.current fun found => ?_))))
  split
  · exact obeys
  · exact law.pure ()

private theorem namedNodeOrGrouping : Obeys relation (namedNodeOrGrouping inner) := by
  refine law.bind (law.ahead 2) fun third => ?_
  split
  · exact law.grouping obeys
  · exact law.namedNode obeys

private theorem parenthesized : Obeys relation (parenthesized inner) := by
  refine law.bind (law.ahead 1) fun second => ?_
  split
  · exact law.predicate
  · exact law.namedNodeOrGrouping obeys
  · exact law.namedNodeOrGrouping obeys
  · exact law.grouping obeys

private theorem construct : Obeys relation (construct inner) := by
  refine law.bind law.current fun found => ?_
  split
  · exact law.parenthesized obeys
  · exact law.list obeys
  · exact law.anonymousNode
  · exact law.anonymousNode
  · refine law.bind (law.ahead 1) fun second => ?_
    split
    · exact law.fieldDefinition obeys
    · exact law.bareIdentifier
  · exact law.unexpected _

private theorem nested : Obeys relation (nested inner) :=
  law.unit law.rested (law.unit (law.construct obeys) law.rested)

end Nested

theorem swallow : Obeys relation swallow := by
  refine law.bind (law.ask _) fun ended => ?_
  split
  · exact law.pure false
  · exact law.unit law.take (law.pure true)

/-- What is given up was not given up before. -/
private theorem giveUp (cursor : Cursor) (awake : cursor.exhausted = false) :
    relation cursor (giveUp cursor).trees (giveUp cursor).reports (giveUp cursor).next := by
  have swallowed : Obeys relation (Reading.node .error (Reading.repeatWhile Parser.swallow)) :=
    law.node _ (law.repeatWhile law.swallow)
  exact law.chain (law.skip cursor) (law.chain (law.skip cursor.skip)
    (law.chain (law.last cursor.skip.skip _ awake rfl) (swallowed { cursor.skip.skip with exhausted := true })))

theorem pattern (room : Nat) : Obeys relation (pattern room) := by
  induction room with
  | zero => exact law.unlessExhausted law.giveUp
  | succ room ih => exact law.unlessExhausted fun cursor _ => law.nested ih cursor

private theorem topLevel (limit : Nat) (kind : Option TokenKind) : Obeys relation (topLevel limit kind) := by
  unfold Parser.topLevel
  split
  · exact law.detachedCapture
  · split
    · exact law.pattern limit
    · exact law.unexpected _

theorem nextTopLevel (limit : Nat) : Obeys relation (nextTopLevel limit) := by
  refine law.bind (law.ask _) fun ended => ?_
  split
  · exact law.pure false
  · exact law.bind law.current fun kind => law.unit (law.topLevel limit kind) (law.pure true)

/-- A law that every step survives holds of a whole document, whatever its tokens. -/
theorem program (limit : Nat) : Obeys relation (program limit) :=
  law.node _ (law.unit (law.repeatWhile (law.nextTopLevel limit))
    (law.unit (fun cursor => law.skip cursor) law.placeWaiting))

end Law

def FaultStays (cursor : Cursor) (_ : List Tree) (_ : List Report) (next : Cursor) : Prop :=
  cursor.fault ≠ none → next.fault = cursor.fault

theorem faultStays : Law FaultStays where
  stay _ _ := rfl
  chain first later noted := (later (first noted ▸ noted)).trans (first noted)
  note _ _ _ kept := kept
  skip _ _ := rfl
  place _ _ := rfl
  token _ _ _ _ _ _ _ := rfl
  around _ _ _ _ _ _ inside := inside
  found _ _ _ _ _ := rfl
  last _ _ _ _ _ := rfl

end TreeQuery.Syntax
