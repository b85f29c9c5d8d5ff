import TreeQuery.Proofs.DeclaredShapes
import TreeQuery.Proofs.ReadingEnds

/-! What nodes begin with. Every construct is entered after a look at its first word, by which time the
trivia before that word waits to be placed in front of the construct. Only the query itself and the arguments
of a predicate, which are entered without a look, can begin with trivia. -/

namespace TreeQuery.Syntax
open Text (Span)

/-- Whether a node begins with a word, be it that of a node in it. -/
def Fronted (kind : NodeKind) (children : List Tree) : Prop :=
  kind ≠ .program → kind ≠ .parameters → ∀ first, (Tree.leavesOf children).head? = some first → first.isTrivia = false

/-- All nodes in a tree begin with words. -/
inductive FrontedAll : Tree → Prop
  | token (token : Token) : FrontedAll (.leaf token)
  | node {kind : NodeKind} {children : List Tree} (front : Fronted kind children)
    (inside : ∀ child ∈ children, FrontedAll child) : FrontedAll (.node kind children)

namespace Reading

/-- All nodes that are placed begin with words. -/
def Fronts {α : Type} (reading : Reading α) (cursor : Cursor) : Prop := reading.Each FrontedAll cursor

namespace Fronts

variable {α β : Type} {cursor : Cursor} {first : Reading α} {second : α → Reading β}

private theorem none {reading : Reading α} (quiet : (reading cursor).trees = []) : reading.Fronts cursor := Each.none quiet

private theorem take : Reading.take.Fronts cursor := Each.take FrontedAll.token

private theorem bind (before : first.Fronts cursor) (after : ∀ value next, (second value).Fronts next) :
    (first >>= second).Fronts cursor := Each.bind before (after _ _)

private theorem asking {question : Cursor → α} (after : ∀ answer next, Abuts next → (second answer).Fronts next) :
    (ask question >>= second).Fronts cursor := after _ _ (.skip cursor)

private theorem looking {question : Cursor → α} (after : ∀ answer next, Abuts next → (second answer).Fronts next) :
    ((do move Cursor.look; ask question) >>= second).Fronts cursor := after _ _ (.skip cursor.look)

private theorem report (found : Diagnostic.Report) : (Reading.report found).Fronts cursor := none (report_quiet found cursor)

private theorem takeIf (kind : TokenKind) : (Reading.takeIf kind).Fronts cursor := by
  refine looking fun found next _ => ?_
  split
  · exact bind take fun _ _ => none rfl
  · exact none rfl

private theorem takeIfOr {kind : TokenKind} {other : Reading Unit} (after : ∀ next, Abuts next → other.Fronts next) :
    (do unless ← Reading.takeIf kind do other : Reading Unit).Fronts cursor := by
  change (current >>= fun found => (if found = some kind then do Reading.take; Pure.pure true else Pure.pure false) >>=
    fun taken => if taken = true then Pure.pure () else other).Fronts cursor
  refine looking fun found next abuts => ?_
  split
  · exact Each.bind (bind take fun _ _ => none rfl) (none rfl)
  · exact Each.bind (none rfl) (after next abuts)

private theorem expect (kind : TokenKind) : (Reading.expect kind).Fronts cursor := by
  refine looking fun found next _ => ?_
  split <;> exact none rfl

private theorem repeatWhile {step : Reading Bool} (once : ∀ cursor, step.Fronts cursor) :
    (Reading.repeatWhile step).Fronts cursor :=
  Each.repeatWhile once cursor

private theorem unlessExhausted {reading : Reading Unit} (inside : reading.Fronts cursor) :
    (Reading.unlessExhausted reading).Fronts cursor := by
  unfold Fronts Each Reading.unlessExhausted
  split
  · exact nofun
  · exact inside

/-- What is placed first in a node is what was right ahead where it was entered. -/
private theorem node {kind : NodeKind} {body : Reading Unit} (kept : Obeys Keeps (Reading.node kind body))
    (abuts : kind ≠ .program → kind ≠ .parameters → Abuts cursor) (inside : body.Fronts { cursor with waiting := [] }) :
    (Reading.node kind body).Fronts cursor := by
  have front : Fronted kind (body { cursor with waiting := [] }).trees := by
    intro inner other first leads
    have ahead : cursor.rest = _ := kept { cursor with waiting := [] }
    obtain ⟨more, placed⟩ := List.head?_eq_some_iff.mp leads
    have free := abuts inner other
    simp only [Reading.node, List.map_nil, List.nil_append, Tree.leavesOf, Tree.leaves, List.append_nil, placed] at ahead
    rw [Abuts, ahead] at free
    by_contra blank
    simp [List.takeWhile_cons, blank] at free
  intro tree member
  rcases List.mem_append.mp member with waiting | made
  · obtain ⟨token, _, rfl⟩ := List.mem_map.mp waiting
    exact .token token
  · rw [List.mem_singleton.mp made]
    exact .node front inside

end Fronts

end Reading

namespace Parser
open Reading

variable {cursor : Cursor}

private theorem reportHere_fronts (found : Diagnostic.Kind) : (reportHere found).Fronts cursor :=
  .asking fun _ _ _ => .report _

private theorem skipToken_fronts : skipToken.Fronts cursor := by
  refine .asking fun ended next abuts => ?_
  split
  · exact .none rfl
  · exact .node (keeps.node _ keeps.take) (fun _ _ => abuts) .take

private theorem unexpected_fronts (wanted : String) : (unexpected wanted).Fronts cursor :=
  .asking fun _ _ _ => .bind (.report _) fun _ _ => skipToken_fronts

private theorem bareIdentifier_fronts : bareIdentifier.Fronts cursor :=
  .bind (reportHere_fronts _) fun _ _ => skipToken_fronts

private theorem close_fronts (closer : TokenKind) (unclosed : Diagnostic.Kind) (opener : Span) :
    (close closer unclosed opener).Fronts cursor := .takeIfOr fun _ _ => .report _

private theorem captureNode_fronts {named : Reading Unit} (kept : Obeys Keeps named) (names : ∀ next, named.Fronts next)
    (abuts : Abuts cursor) : (Reading.node .capture (captureBody named)).Fronts cursor := by
  refine .node (keeps.node _ (keeps.unit keeps.take (keeps.bind keeps.adjacent fun found => ?_))) (fun _ _ => abuts)
    (.bind .take fun _ _ => .bind (.none rfl) fun found next => ?_)
  · split
    · exact kept
    · exact keeps.pure ()
  · split
    · exact names next
    · exact .none rfl

private theorem capture_fronts (abuts : Abuts cursor) : capture.Fronts cursor :=
  captureNode_fronts keeps.take (fun _ => .take) abuts

private theorem detachedCapture_fronts : detachedCapture.Fronts cursor :=
  .asking fun _ _ abuts => captureNode_fronts
    (keeps.bind (keeps.ask _) fun _ => keeps.unit keeps.take (keeps.report _ nofun))
    (fun _ => .asking fun _ _ _ => .bind .take fun _ _ => .report _) abuts

private theorem quantifier_fronts : quantifier.Fronts cursor := by
  refine .looking fun found next abuts => ?_
  split
  · exact .node (keeps.node _ keeps.take) (fun _ _ => abuts) .take
  · exact .none rfl

private theorem nextCapture_fronts : nextCapture.Fronts cursor := by
  refine .looking fun found next abuts => ?_
  split
  · exact .bind (capture_fronts abuts) fun _ _ => .none rfl
  · exact .none rfl

private theorem suffix_fronts : suffix.Fronts cursor :=
  .bind quantifier_fronts fun _ _ => .repeatWhile fun _ => nextCapture_fronts

private theorem stringContent_fronts : stringContent.Fronts cursor := by
  refine .bind (.none rfl) fun found next => ?_
  split
  · exact .take
  · exact .none rfl

private theorem closingQuote_fronts (opener : Span) : (closingQuote opener).Fronts cursor := by
  refine .bind (.none rfl) fun found next => ?_
  split
  · exact .take
  · exact .report _

private theorem string_fronts (abuts : Abuts cursor) : string.Fronts cursor :=
  .node keeps.string (fun _ _ => abuts) (.asking fun opener _ _ => .bind .take fun _ _ =>
    .bind stringContent_fronts fun _ _ => closingQuote_fronts opener)

private theorem negatedField_fronts (abuts : Abuts cursor) : negatedField.Fronts cursor :=
  .node keeps.negatedField (fun _ _ => abuts) (.bind .take fun _ _ => .takeIfOr fun _ _ => reportHere_fronts _)

private theorem anonymousNode_fronts (abuts : Abuts cursor) : anonymousNode.Fronts cursor :=
  .node keeps.anonymousNode (fun _ _ => abuts) (.bind (.takeIfOr fun _ => string_fronts) fun _ _ => suffix_fronts)

private theorem argument_fronts (kind : TokenKind) (abuts : Abuts cursor) : (argument kind).Fronts cursor := by
  unfold argument
  split
  · exact capture_fronts abuts
  · exact string_fronts abuts
  · exact .take
  · exact .take
  · exact unexpected_fronts _

private theorem nextMember_fronts {member : TokenKind → Reading Unit}
    (each : ∀ kind next, Abuts next → (member kind).Fronts next) : (nextMember member).Fronts cursor := by
  refine .looking fun found next abuts => ?_
  split
  next => exact .none rfl
  next kind =>
    split
    · exact .none rfl
    · exact .bind (each kind next abuts) fun _ _ => .none rfl

/-- The one node that is entered without a look. -/
private theorem arguments_fronts : arguments.Fronts cursor :=
  .node keeps.arguments (fun _ other => absurd rfl other)
    (.repeatWhile fun _ => nextMember_fronts fun kind _ => argument_fronts kind)

private theorem predicateName_fronts : predicateName.Fronts cursor := by
  refine .bind (.takeIf .identifier) fun named next => ?_
  split
  · exact .takeIfOr fun _ _ => .takeIfOr fun _ _ => reportHere_fronts _
  · exact reportHere_fronts _

private theorem predicate_fronts (abuts : Abuts cursor) : predicate.Fronts cursor :=
  .node keeps.predicate (fun _ _ => abuts) (.asking fun opener _ _ => .bind .take fun _ _ => .bind (.expect _) fun _ _ =>
    .bind .take fun _ _ => .bind predicateName_fronts fun _ _ => .bind arguments_fronts fun _ _ => close_fronts _ _ opener)

private theorem missingKind_fronts : missingKind.Fronts cursor := by
  refine .looking fun found next abuts => ?_
  split
  · exact .take
  · exact string_fronts abuts
  · exact .none rfl

private theorem subtype_fronts : subtype.Fronts cursor := by
  refine .bind (.takeIf .slash) fun divided next => ?_
  split
  · exact .takeIfOr fun _ _ => reportHere_fronts _
  · exact .none rfl

private theorem kindDetail_fronts (name : String) : (kindDetail name).Fronts cursor := by
  unfold kindDetail
  split
  · exact missingKind_fronts
  · exact subtype_fronts

section Nested

variable {inner : Reading Unit} (kept : Obeys Keeps inner) (fronts : ∀ next, inner.Fronts next)
include fronts

private theorem item_fronts (kind : TokenKind) (abuts : Abuts cursor) : (item inner kind).Fronts cursor := by
  unfold item
  split
  · exact negatedField_fronts abuts
  · exact .take
  · exact detachedCapture_fronts
  · split
    · exact fronts cursor
    · exact unexpected_fronts _

private theorem body_fronts (closer : TokenKind) (unclosed : Diagnostic.Kind) (opener : Span) (cursor : Cursor) :
    (do items inner; close closer unclosed opener; suffix : Reading Unit).Fronts cursor :=
  .bind (.repeatWhile fun _ => nextMember_fronts fun kind _ => item_fronts fronts kind) fun _ _ =>
    .bind (close_fronts closer unclosed opener) fun _ _ => suffix_fronts

include kept

private theorem namedNode_fronts (abuts : Abuts cursor) : (namedNode inner).Fronts cursor :=
  .node (keeps.namedNode kept) (fun _ _ => abuts) (.asking fun opener _ _ => .bind .take fun _ _ =>
    .asking fun name _ _ => .bind .take fun _ _ => .bind (kindDetail_fronts name) fun _ =>
      body_fronts fronts .parenClose .unclosedNode opener)

private theorem grouping_fronts (abuts : Abuts cursor) : (grouping inner).Fronts cursor :=
  .node (keeps.grouping kept) (fun _ _ => abuts) (.asking fun opener _ _ => .bind .take fun _ =>
    body_fronts fronts .parenClose .unclosedNode opener)

private theorem list_fronts (abuts : Abuts cursor) : (list inner).Fronts cursor :=
  .node (keeps.list kept) (fun _ _ => abuts) (.asking fun opener _ _ => .bind .take fun _ =>
    body_fronts fronts .bracketClose .unclosedList opener)

private theorem fieldDefinition_fronts (abuts : Abuts cursor) : (fieldDefinition inner).Fronts cursor := by
  refine .node (keeps.fieldDefinition kept) (fun _ _ => abuts) (.bind .take fun _ _ => .bind (.expect _) fun _ _ =>
    .bind .take fun _ _ => .looking fun found next _ => ?_)
  split
  · exact fronts next
  · exact .none rfl

private theorem namedNodeOrGrouping_fronts : (namedNodeOrGrouping inner).Fronts cursor := by
  refine .looking fun found next abuts => ?_
  split
  · exact grouping_fronts kept fronts abuts
  · exact namedNode_fronts kept fronts abuts

private theorem parenthesized_fronts : (parenthesized inner).Fronts cursor := by
  refine .looking fun found next abuts => ?_
  split
  · exact predicate_fronts abuts
  · exact namedNodeOrGrouping_fronts kept fronts
  · exact namedNodeOrGrouping_fronts kept fronts
  · exact grouping_fronts kept fronts abuts

private theorem construct_fronts : (construct inner).Fronts cursor := by
  refine .looking fun found next abuts => ?_
  split
  · exact parenthesized_fronts kept fronts
  · exact list_fronts kept fronts abuts
  · exact anonymousNode_fronts abuts
  · exact anonymousNode_fronts abuts
  · refine .looking fun found next abuts => ?_
    split
    · exact fieldDefinition_fronts kept fronts abuts
    · exact bareIdentifier_fronts
  · exact unexpected_fronts _

end Nested

private theorem swallow_fronts : swallow.Fronts cursor := by
  refine .asking fun ended next _ => ?_
  split
  · exact .none rfl
  · exact .bind .take fun _ _ => .none rfl

private theorem giveUp_fronts : giveUp.Fronts cursor :=
  .asking fun _ _ _ => .asking fun _ _ abuts => Each.bind (.none rfl)
    (Fronts.node (keeps.node _ (keeps.repeatWhile keeps.swallow)) (fun _ _ => abuts) (.repeatWhile fun _ => swallow_fronts))

private theorem pattern_fronts (room : Nat) : (pattern room).Fronts cursor := by
  induction room generalizing cursor with
  | zero => exact .unlessExhausted giveUp_fronts
  | succ room ih =>
    exact .unlessExhausted (.bind (.none rfl) fun _ _ => .bind (construct_fronts (keeps.pattern room) fun _ => ih) fun _ _ => .none rfl)

private theorem nextTopLevel_fronts (limit : Nat) : (nextTopLevel limit).Fronts cursor := by
  refine .asking fun ended next _ => ?_
  split
  · exact .none rfl
  · refine .looking fun kind next _ => .bind ?_ fun _ _ => .none rfl
    unfold topLevel
    split
    · exact detachedCapture_fronts
    · split
      · exact pattern_fronts limit
      · exact unexpected_fronts _

end Parser

/-- All nodes of a parsed text begin with words, the query itself and the arguments of predicates apart. -/
private theorem parse_fronted (limit : Nat) (source : String) : FrontedAll (parse limit source).tree := by
  rw [parse_tree]
  refine .node (fun other => absurd rfl other) fun child member => ?_
  rcases List.mem_append.mp member with read | blank
  · exact Reading.Fronts.repeatWhile (fun _ => Parser.nextTopLevel_fronts limit) child read
  · obtain ⟨token, _, rfl⟩ := List.mem_map.mp blank
    exact .token token

private theorem FrontedAll.of_lineage {root place : Placed} {above : List Placed} (fronted : FrontedAll root.tree)
    (lineage : Lineage root (place :: above)) : FrontedAll place.tree := by
  induction above generalizing place with
  | nil =>
    cases lineage
    exact fronted
  | cons holder above ih =>
    obtain ⟨start, tree⟩ := holder
    cases ih lineage.tail with
    | token => cases lineage.inside
    | node _ inside => exact inside _ (Placed.mem_line lineage.inside)

/-- A node that begins with trivia is the query itself or holds the arguments of a predicate. -/
theorem parse_front {limit : Nat} {source : String} {place : Placed} {above : List Placed} {kind : NodeKind} {first : Token}
    (lineage : Lineage ⟨0, (parse limit source).tree⟩ (place :: above)) (made : place.kind = .node kind)
    (leads : place.tree.leaves.head? = some first) (blank : first.isTrivia = true) : kind = .program ∨ kind = .parameters := by
  obtain ⟨children, tree⟩ := Placed.of_kind made
  have fronted := (parse_fronted limit source).of_lineage lineage
  rw [tree] at fronted leads
  cases fronted with
  | node front =>
    by_contra other
    rw [not_or] at other
    have solid := front other.1 other.2 first leads
    rw [solid] at blank
    cases blank

end TreeQuery.Syntax
