import TreeQuery.Proofs.ReadingCourse

/-! Readings in which a capture is one step, and so is a string. Signs and quotes are read by nothing else: where a
token does not belong, it is neither. So a law may ask more of the steps that make captures, strings and errors, and
still holds of the whole grammar. -/

namespace TreeQuery.Syntax
open Text (Span)
open Diagnostic (Report)

/-- The very next token if it is of a kind. -/
def firstOf (kind : TokenKind) (rest : List Token) : List Token := (rest.take 1).filter (·.kind = kind)

/-- What belongs to a string behind its opening quote: content if it is right there, and then a quote if it is. -/
def insideString (rest : List Token) : List Token :=
  let content := firstOf .stringContent rest
  content ++ firstOf .doubleQuote (rest.drop content.length)

private theorem firstOf_append (kind : TokenKind) (rest : List Token) :
    firstOf kind rest ++ rest.drop (firstOf kind rest).length = rest := by
  cases rest with
  | nil => rfl
  | cons token later => by_cases same : token.kind = kind <;> simp [firstOf, same]

theorem firstOf_either (kind : TokenKind) (rest : List Token) :
    (∃ token later, rest = token :: later ∧ token.kind = kind ∧ firstOf kind rest = [token]) ∨
      rest.head?.map Token.kind ≠ some kind ∧ firstOf kind rest = [] := by
  cases rest with
  | nil => exact .inr ⟨nofun, rfl⟩
  | cons token later =>
    by_cases same : token.kind = kind
    · exact .inl ⟨token, later, rfl, same, by simp [firstOf, same]⟩
    · exact .inr ⟨by simpa using same, by simp [firstOf, same]⟩

theorem insideString_append (rest : List Token) : insideString rest ++ rest.drop (insideString rest).length = rest := by
  have content := firstOf_append .stringContent rest
  have closer := firstOf_append .doubleQuote (rest.drop (firstOf .stringContent rest).length)
  rwa [insideString, List.append_assoc, List.length_append, ← List.drop_drop, closer]

/-- The cursor that has gone past some tokens ahead. -/
def Cursor.beyond (cursor : Cursor) (tokens : List Token) : Cursor :=
  { cursor with offset := cursor.offset + Text.total Token.length tokens, rest := cursor.rest.drop tokens.length }

private theorem Cursor.beyond_append (cursor : Cursor) (tokens more : List Token) :
    cursor.beyond (tokens ++ more) = (cursor.beyond tokens).beyond more := by
  simp [Cursor.beyond, Nat.add_assoc, List.drop_drop]

/-- The steps that a law about captures and strings has to survive. A capture takes its name in the same step, and a
string its content and its closing quote. An error is made of a token that is no sign and no quote, or of all that is
left once nesting went too deep. -/
structure WholeLaw (relation : Cursor → List Tree → List Report → Cursor → Prop) : Prop where
  stay : ∀ cursor, relation cursor [] [] cursor
  chain : ∀ {first middle last trees later reports more}, relation first trees reports middle →
    relation middle later more last → relation first (trees ++ later) (reports ++ more) last
  note : ∀ cursor looks fault, relation cursor [] [] { cursor with looks, fault }
  skip : ∀ cursor, relation cursor [] [] cursor.skip
  place : ∀ cursor, relation cursor (cursor.waiting.map .leaf) [] { cursor with waiting := [] }
  token : ∀ cursor token rest, cursor.waiting = [] → cursor.rest = token :: rest →
    relation cursor [.leaf token] [] { cursor with offset := cursor.offset + token.length, rest }
  around : ∀ cursor kind trees reports next, kind ≠ .capture → kind ≠ .string → kind ≠ .error → cursor.waiting = [] →
    relation cursor trees reports next → relation cursor [.node kind trees] reports next
  stray : ∀ cursor token rest, cursor.waiting = [] → cursor.rest = token :: rest → token.kind ≠ .atSign →
    token.kind ≠ .doubleQuote →
    relation cursor [.node .error [.leaf token]] [] { cursor with offset := cursor.offset + token.length, rest }
  named : ∀ cursor sign name rest, cursor.waiting = [] → cursor.rest = sign :: name :: rest → sign.kind = .atSign →
    name.kind = .identifier → relation cursor [.node .capture [.leaf sign, .leaf name]] []
      { cursor with offset := cursor.offset + sign.length + name.length, rest }
  nameless : ∀ cursor sign rest, cursor.waiting = [] → cursor.rest = sign :: rest → sign.kind = .atSign →
    rest.head?.map Token.kind ≠ some .identifier → relation cursor [.node .capture [.leaf sign]] []
      { cursor with offset := cursor.offset + sign.length, rest }
  quoted : ∀ cursor quote rest, cursor.waiting = [] → cursor.rest = quote :: rest → quote.kind = .doubleQuote →
    relation cursor [.node .string ((quote :: insideString rest).map .leaf)] [] (cursor.beyond (quote :: insideString rest))
  found : ∀ cursor report, relation cursor [] [report] { cursor with reported := some report.span.start }
  last : ∀ cursor report, cursor.waiting = [] → report.kind = .nestingTooDeep → report.span.start = cursor.offset →
    relation cursor [.node .error (Reading.repeatWhile Parser.swallow { cursor with exhausted := true }).trees] [report]
      (Reading.repeatWhile Parser.swallow { cursor with exhausted := true }).next

/-- A law holds of a reading that starts here. -/
def Reading.Heeds {α : Type} (relation : Cursor → List Tree → List Report → Cursor → Prop) (reading : Reading α)
    (cursor : Cursor) : Prop :=
  relation cursor (reading cursor).trees (reading cursor).reports (reading cursor).next

/-- The next token, trivia apart, is not of a kind. -/
def Lacks (kind : TokenKind) (cursor : Cursor) : Prop := (solidKinds cursor.rest).head? ≠ some kind

namespace Lacks

variable {kind : TokenKind} {cursor : Cursor} (lacks : Lacks kind cursor)
include lacks

private theorem skip : Lacks kind cursor.skip := by
  rw [Lacks, show solidKinds cursor.skip.rest = solidKinds cursor.rest from solidKinds_dropWhile _]
  exact lacks

private theorem look : Lacks kind cursor.look := by
  obtain ⟨fault, same⟩ := cursor.look_eq
  rw [same]
  exact lacks

private theorem report (found : Report) : Lacks kind (Reading.report found cursor).next := by
  unfold Reading.report
  split <;> exact lacks

private theorem first {token : Token} {rest : List Token} (left : cursor.rest = token :: rest) (solid : token.isTrivia = false) :
    token.kind ≠ kind := by
  simpa [Lacks, left, solidKinds, solid] using lacks

end Lacks

private theorem Cursor.skip_of_solid {cursor : Cursor} {token : Token} {rest : List Token} (left : cursor.rest = token :: rest)
    (solid : token.isTrivia = false) : cursor.skip = cursor := by
  obtain ⟨offset, waiting, _, looks, reported, exhausted, fault⟩ := cursor
  cases left
  simp [Cursor.skip, solid]

/-- A solid token right ahead is placed alone. -/
private theorem Reading.take_solid {cursor : Cursor} {token : Token} {rest : List Token} (left : cursor.rest = token :: rest)
    (solid : token.isTrivia = false) (unplaced : cursor.waiting = []) :
    take cursor = ⟨(), [.leaf token], [],
      { cursor.rested with offset := cursor.offset + token.length, waiting := [], rest }⟩ := by
  rw [take_token (by rw [Cursor.skip_of_solid left solid, left]), Cursor.skip_of_solid left solid, unplaced]
  rfl

namespace WholeLaw
open Reading TreeQuery.Syntax.Parser

variable {relation : Cursor → List Tree → List Report → Cursor → Prop} (law : WholeLaw relation) {α β : Type}
  {cursor : Cursor}
include law

private theorem bind {first : Reading α} {second : α → Reading β} (before : first.Heeds relation cursor)
    (after : (second (first cursor).value).Heeds relation (first cursor).next) :
    (first >>= second).Heeds relation cursor := law.chain before after

private theorem pure (value : α) : Obeys relation (Pure.pure value : Reading α) := fun cursor => law.stay cursor

private theorem unit {first : Reading Unit} {second : Reading β} (before : Obeys relation first)
    (after : Obeys relation second) : Obeys relation (do first; second) := fun cursor =>
  law.bind (before cursor) (after _)

private theorem look : Obeys relation (move Cursor.look) := by
  intro cursor
  change relation cursor [] [] cursor.look
  obtain ⟨fault, same⟩ := cursor.look_eq
  rw [same]
  exact law.note cursor _ _

private theorem rested : Obeys relation (move Cursor.rested) := fun cursor => law.note cursor 0 cursor.fault

private theorem failed (fault : Fault) : Obeys relation (move (·.failed fault)) := fun cursor =>
  law.note cursor cursor.looks _

private theorem asking {question : Cursor → α} {second : α → Reading β}
    (after : (second (question cursor.skip)).Heeds relation cursor.skip) :
    (ask question >>= second).Heeds relation cursor := law.bind (law.skip cursor) after

private theorem asked {question : Cursor → α} {second : α → Reading β} (after : ∀ answer, Obeys relation (second answer)) :
    Obeys relation (ask question >>= second) := fun _ => law.asking (after _ _)

/-- What is said of the kind ahead holds after the look as well. -/
private theorem looking {second : Option TokenKind → Reading β}
    (after : ∀ next, (solidKinds next.rest).head? = (solidKinds cursor.rest).head? →
      next.rest.head?.map Token.kind = (solidKinds cursor.rest).head? →
      (second (solidKinds cursor.rest).head?).Heeds relation next) :
    (current >>= second).Heeds relation cursor := by
  obtain ⟨fault, same⟩ := cursor.look_eq
  have rest : cursor.look.rest = cursor.rest := by rw [same]
  have found : cursor.look.skip.rest.head?.map Token.kind = (solidKinds cursor.rest).head? :=
    Cursor.head?_kind (congrArg solidKinds rest)
  have value : (current cursor).value = (solidKinds cursor.rest).head? := found
  refine law.bind (law.chain (law.look cursor) (law.skip cursor.look)) ?_
  rw [value]
  refine after _ ?_ found
  rw [← rest]
  exact congrArg List.head? (solidKinds_dropWhile cursor.look.rest)

private theorem glancing {n : Nat} {second : Option TokenKind → Reading β}
    (after : ∀ found next, (∀ kind, Lacks kind cursor → Lacks kind next) → (second found).Heeds relation next) :
    (ahead n >>= second).Heeds relation cursor :=
  law.bind (law.chain (law.look cursor) (law.skip cursor.look)) (after _ _ fun _ lacks => lacks.look.skip)

private theorem adjacent : Obeys relation adjacent := law.look

private theorem take : Obeys relation take := by
  intro cursor
  have skipped := law.skip cursor
  cases left : cursor.skip.rest with
  | nil =>
    rw [take_at_end left]
    exact law.chain skipped (law.failed .nothingLeft cursor.skip)
  | cons token rest =>
    have placed := law.token { cursor.skip with waiting := [] } token rest rfl left
    have counted := law.chain placed (law.note _ 0 cursor.skip.fault)
    rw [take_token left, List.map_append]
    exact law.chain skipped (law.chain (law.place cursor.skip) counted)

private theorem takeIf (kind : TokenKind) : Obeys relation (takeIf kind) := fun cursor => by
  refine law.looking fun next _ _ => ?_
  split
  · exact law.unit law.take (law.pure true) next
  · exact law.stay next

private theorem takingIf {kind : TokenKind} {second : Bool → Reading β} (after : ∀ taken, Obeys relation (second taken)) :
    Obeys relation (Reading.takeIf kind >>= second) := fun cursor => law.bind (law.takeIf kind cursor) (after _ _)

private theorem expect (kind : TokenKind) : Obeys relation (expect kind) := fun cursor => by
  refine law.looking fun next _ _ => ?_
  split
  · exact law.stay next
  · exact law.failed _ next

private theorem nodeHere {kind : NodeKind} {body : Reading Unit} (plain : kind ≠ .capture ∧ kind ≠ .string ∧ kind ≠ .error)
    (inside : body.Heeds relation { cursor with waiting := [] }) : (Reading.node kind body).Heeds relation cursor :=
  law.chain (law.place cursor) (law.around { cursor with waiting := [] } kind _ _ _ plain.1 plain.2.1 plain.2.2 rfl inside)

private theorem node {kind : NodeKind} {body : Reading Unit} (plain : kind ≠ .capture ∧ kind ≠ .string ∧ kind ≠ .error)
    (inside : Obeys relation body) : Obeys relation (node kind body) := fun _ => law.nodeHere plain (inside _)

private theorem report (found : Report) : Obeys relation (report found) := by
  intro cursor
  unfold Reading.report
  split
  · exact law.stay cursor
  · exact law.found cursor found

private theorem repeatWhile {step : Reading Bool} (once : Obeys relation step) : Obeys relation (repeatWhile step) := by
  intro cursor
  induction left : cursor.rest.length using Nat.strongRecOn generalizing cursor with
  | ind size ih =>
    rw [Reading.repeatWhile]
    split
    · exact once cursor
    · split
      next shorter => exact law.chain (once cursor) (ih _ (left ▸ shorter) _ rfl)
      next =>
        have failed := law.chain (once cursor) (law.failed .endless (step cursor).next)
        simpa only [move, List.append_nil] using failed

private theorem reportHere (kind : Diagnostic.Kind) : Obeys relation (reportHere kind) := fun _ =>
  law.asking (law.report _ _)

section Errors

variable (unsigned : Lacks .atSign cursor) (unquoted : Lacks .doubleQuote cursor)
include unsigned unquoted

private theorem skipToken : skipToken.Heeds relation cursor := by
  refine law.asking ?_
  cases left : cursor.skip.rest with
  | nil => exact law.stay _
  | cons token rest =>
    have solid := Cursor.skip_solid left
    have taken : Reading.take { cursor.skip with waiting := [] } = _ := take_solid left solid rfl
    change relation cursor.skip (cursor.skip.waiting.map .leaf ++ [.node .error (Reading.take _).trees])
      (Reading.take _).reports (Reading.take _).next
    rw [taken]
    have strayed := law.stray { cursor.skip with waiting := [] } token rest rfl left (unsigned.skip.first left solid)
      (unquoted.skip.first left solid)
    exact law.chain (law.place cursor.skip) (law.chain strayed (law.note _ 0 cursor.skip.fault))

private theorem unexpected (wanted : String) : (unexpected wanted).Heeds relation cursor :=
  law.asking (law.bind (law.report _ _) (law.skipToken (unsigned.skip.report _) (unquoted.skip.report _)))

private theorem bareIdentifier : bareIdentifier.Heeds relation cursor :=
  law.bind (law.reportHere _ _) (law.skipToken (unsigned.skip.report _) (unquoted.skip.report _))

end Errors

private theorem close (closer : TokenKind) (unclosed : Diagnostic.Kind) (opener : Span) :
    Obeys relation (close closer unclosed opener) := by
  refine law.takingIf fun closed => ?_
  split
  · exact law.pure ()
  · exact law.report _

private theorem quantifier : Obeys relation quantifier := fun cursor => by
  refine law.looking fun next _ _ => ?_
  split
  · exact law.node (by decide) law.take next
  · exact law.stay next

section Strings

omit law in
private theorem take_beyond {token : Token} {rest : List Token} (left : cursor.rest = token :: rest)
    (solid : token.kind.isTrivia = false) (unplaced : cursor.waiting = []) :
    Reading.take cursor = ⟨(), [.leaf token], [], { cursor.beyond [token] with looks := 0 }⟩ := by
  rw [take_solid left solid unplaced]
  simp [Cursor.beyond, Cursor.rested, left, unplaced]

omit law in
private theorem stringContent_beyond (unplaced : cursor.waiting = []) : ∃ looks fault,
    stringContent cursor = ⟨(), (firstOf .stringContent cursor.rest).map .leaf, [],
      { cursor.beyond (firstOf .stringContent cursor.rest) with looks, fault }⟩ := by
  obtain ⟨fault, looked⟩ := cursor.look_eq
  have read : stringContent cursor =
      (if cursor.rest.head?.map Token.kind = some .stringContent then Reading.take else Pure.pure ()) cursor.look := rfl
  rw [looked] at read
  rcases firstOf_either .stringContent cursor.rest with ⟨token, rest, left, same, own⟩ | ⟨other, none⟩
  · rw [own]
    have here : cursor.rest.head?.map Token.kind = some .stringContent := by rw [left, ← same]; rfl
    exact ⟨0, fault, read.trans ((congrFun (if_pos here) _).trans (take_beyond left (same ▸ rfl) unplaced))⟩
  · rw [none]
    exact ⟨cursor.looks + 1, fault, read.trans (congrFun (if_neg other) _)⟩

private theorem closingQuote (opener : Span) (unplaced : cursor.waiting = []) :
    (closingQuote opener cursor).trees = (firstOf .doubleQuote cursor.rest).map .leaf ∧
      relation (cursor.beyond (firstOf .doubleQuote cursor.rest)) [] (Parser.closingQuote opener cursor).reports
        (Parser.closingQuote opener cursor).next := by
  obtain ⟨fault, looked⟩ := cursor.look_eq
  have read : Parser.closingQuote opener cursor = (if cursor.rest.head?.map Token.kind = some .doubleQuote then Reading.take
      else Reading.report (.of .unclosedString opener)) cursor.look := rfl
  rw [looked] at read
  rcases firstOf_either .doubleQuote cursor.rest with ⟨token, rest, left, same, own⟩ | ⟨other, none⟩
  · have here : cursor.rest.head?.map Token.kind = some .doubleQuote := by rw [left, ← same]; rfl
    have taken := read.trans ((congrFun (if_pos here) _).trans (take_beyond left (same ▸ rfl) unplaced))
    rw [own, taken]
    exact ⟨rfl, law.note (cursor.beyond [token]) 0 fault⟩
  · have reported := law.report (.of .unclosedString opener) { cursor with looks := cursor.looks + 1, fault }
    rw [report_quiet] at reported
    rw [none, read.trans (congrFun (if_neg other) _), report_quiet]
    exact ⟨rfl, law.chain (law.note cursor (cursor.looks + 1) fault) reported⟩

omit law in
/-- A string up to where its closing quote may be. -/
private theorem string_opened {quote : Token} {rest : List Token} (left : cursor.rest = quote :: rest)
    (mark : quote.kind = .doubleQuote) : ∃ looks fault opener, ∃ reached : Cursor,
      reached = { ({ cursor with waiting := [] } : Cursor).beyond (quote :: firstOf .stringContent rest) with looks, fault } ∧
      string cursor = ⟨(), cursor.waiting.map .leaf ++
        [.node .string ((quote :: firstOf .stringContent rest).map .leaf ++ (Parser.closingQuote opener reached).trees)],
        (Parser.closingQuote opener reached).reports, (Parser.closingQuote opener reached).next⟩ := by
  let start : Cursor := { cursor with waiting := [] }
  let opened : Cursor := { start.beyond [quote] with looks := 0 }
  have still : start.skip = start := Cursor.skip_of_solid left (congrArg TokenKind.isTrivia mark)
  have opening : currentSpan start = ⟨start.span, [], [], start⟩ := by
    simp only [currentSpan, Reading.ask, still]
  have taken : Reading.take start = ⟨(), [.leaf quote], [], opened⟩ := take_beyond left (congrArg TokenKind.isTrivia mark) rfl
  have after : opened.rest = rest := by simp [opened, start, Cursor.beyond, left]
  obtain ⟨looks, fault, filled⟩ := @stringContent_beyond opened rfl
  rw [after] at filled
  refine ⟨looks, fault, start.span, { opened.beyond (firstOf .stringContent rest) with looks, fault }, ?_, ?_⟩
  · exact congrArg (fun cursor : Cursor => { cursor with looks, fault }) (start.beyond_append [quote] _).symm
  · change Reading.node .string _ cursor = _
    simp only [Reading.node, Bind.bind, Reading.bind, show currentSpan { cursor with waiting := [] } = _ from opening, taken,
      filled]
    rfl

private theorem string (quoted : cursor.rest.head?.map Token.kind = some .doubleQuote) : string.Heeds relation cursor := by
  obtain ⟨quote, first, mark⟩ := Option.map_eq_some_iff.mp quoted
  obtain ⟨rest, left⟩ := List.head?_eq_some_iff.mp first
  obtain ⟨looks, fault, opener, reached, moved, whole⟩ := string_opened left mark
  let start : Cursor := { cursor with waiting := [] }
  let content := firstOf .stringContent rest
  have ahead : reached.rest = rest.drop content.length := by simp [moved, content, Cursor.beyond, left]
  obtain ⟨closed, ended⟩ := law.closingQuote opener (show reached.waiting = [] by rw [moved]; rfl)
  rw [ahead] at closed ended
  have past : reached.beyond (firstOf .doubleQuote (rest.drop content.length)) =
      { start.beyond (quote :: insideString rest) with looks, fault } := by
    rw [moved]
    exact congrArg (fun cursor : Cursor => { cursor with looks, fault }) (start.beyond_append (quote :: content) _).symm
  have noted := law.note (start.beyond (quote :: insideString rest)) looks fault
  rw [past] at ended
  rw [Heeds, whole, closed, ← List.map_append]
  exact law.chain (law.place cursor) (law.chain (law.quoted start quote rest rfl left mark) (law.chain noted ended))

end Strings

private theorem negatedField : Obeys relation negatedField := by
  refine law.node (by decide) (law.unit law.take (law.takingIf fun named => ?_))
  split
  · exact law.pure ()
  · exact law.reportHere _

private theorem stringOrWildcard (begins : (solidKinds cursor.rest).head? = some .doubleQuote ∨
    (solidKinds cursor.rest).head? = some .underscore) : stringOrWildcard.Heeds relation cursor := by
  rw [Parser.stringOrWildcard, Reading.takeIf, bind_assoc]
  refine law.looking fun next _ first => ?_
  split
  · exact law.bind (law.unit law.take (law.pure true) next) (law.stay _)
  next other => exact law.string (first.trans (begins.resolve_right other))

private theorem predicateMark : Obeys relation predicateMark := by
  refine law.takingIf fun question => ?_
  split
  · exact law.pure ()
  · refine law.takingIf fun bang => ?_
    split
    · exact law.pure ()
    · exact law.reportHere _

private theorem predicateName : Obeys relation predicateName := by
  refine law.takingIf fun named => ?_
  split
  · exact law.predicateMark
  · exact law.reportHere _

private theorem missingKind : Obeys relation missingKind := fun cursor => by
  refine law.looking fun next _ first => ?_
  split
  · exact law.take next
  next quoted => exact law.string (first.trans quoted)
  · exact law.stay next

private theorem subtype : Obeys relation subtype := by
  refine law.takingIf fun slash => ?_
  split
  · refine law.takingIf fun named => ?_
    split
    · exact law.pure ()
    · exact law.reportHere _
  · exact law.pure ()

private theorem kindDetail (name : String) : Obeys relation (kindDetail name) := by
  unfold Parser.kindDetail
  split
  · exact law.missingKind
  · exact law.subtype

section Captures

/-- A sign and what is done with a name right after it. -/
private theorem captureNode {naming : Reading Unit} (signed : cursor.rest.head?.map Token.kind = some .atSign)
    (named : ∀ next name rest, next.waiting = [] → next.rest = name :: rest → name.kind = .identifier →
      (naming next).trees = [.leaf name] ∧ relation { next with offset := next.offset + name.length, rest }
        [] (naming next).reports (naming next).next) :
    (Reading.node .capture (do
      Reading.take
      if (← Reading.adjacent) = some .identifier then naming)).Heeds relation cursor := by
  obtain ⟨sign, first, sigil⟩ := Option.map_eq_some_iff.mp signed
  obtain ⟨rest, left⟩ := List.head?_eq_some_iff.mp first
  have solid : sign.isTrivia = false := congrArg TokenKind.isTrivia sigil
  have taken : Reading.take { cursor with waiting := [] } = _ := take_solid left solid rfl
  let after : Cursor := { cursor with offset := cursor.offset + sign.length, waiting := [], rest, looks := 0 }
  obtain ⟨fault, looked⟩ := after.look_eq
  let inside := (if rest.head?.map Token.kind = some .identifier then naming else Pure.pure ()) after.look
  have whole : Reading.node .capture (do
      Reading.take
      if (← Reading.adjacent) = some .identifier then naming) cursor =
      ⟨(), cursor.waiting.map .leaf ++ [.node .capture (.leaf sign :: inside.trees)], inside.reports, inside.next⟩ := by
    simp only [Reading.node, Bind.bind, Reading.bind, taken]
    rfl
  rw [Heeds, whole]
  have placed := law.place cursor
  by_cases follows : rest.head?.map Token.kind = some .identifier
  · obtain ⟨name, second, identifier⟩ := Option.map_eq_some_iff.mp follows
    obtain ⟨more, rfl⟩ := List.head?_eq_some_iff.mp second
    have read : inside = naming after.look := congrFun (if_pos follows) _
    obtain ⟨tree, moved⟩ := named after.look name more (by rw [looked]) (by rw [looked]) identifier
    rw [read, tree]
    rw [looked] at moved ⊢
    have both := law.named { cursor with waiting := [] } sign name more rfl left sigil identifier
    exact law.chain placed (law.chain both (law.chain (law.note _ 1 fault) moved))
  · have read : inside = ⟨(), [], [], after.look⟩ := congrFun (if_neg follows) _
    rw [read, looked]
    have alone := law.nameless { cursor with waiting := [] } sign rest rfl left sigil follows
    exact law.chain placed (law.chain alone (law.note _ 1 fault))

private theorem capture (signed : cursor.rest.head?.map Token.kind = some .atSign) : capture.Heeds relation cursor := by
  refine law.captureNode signed fun next name rest unplaced left identifier => ?_
  have solid : name.isTrivia = false := congrArg TokenKind.isTrivia identifier
  rw [take_solid left solid unplaced]
  refine ⟨rfl, ?_⟩
  have noted := law.note { next with offset := next.offset + name.length, rest } 0 next.fault
  rw [unplaced] at noted ⊢
  exact noted

private theorem detachedCapture (signed : cursor.rest.head?.map Token.kind = some .atSign) :
    detachedCapture.Heeds relation cursor := by
  have still : cursor.skip = cursor := by
    obtain ⟨sign, first, sigil⟩ := Option.map_eq_some_iff.mp signed
    obtain ⟨rest, left⟩ := List.head?_eq_some_iff.mp first
    exact Cursor.skip_of_solid left (congrArg TokenKind.isTrivia sigil)
  refine law.asking (law.captureNode (still.symm ▸ signed) fun next name rest unplaced left identifier => ?_)
  have solid : name.isTrivia = false := congrArg TokenKind.isTrivia identifier
  have here : next.skip = next := Cursor.skip_of_solid left solid
  have taken := take_solid left solid unplaced
  simp only [Bind.bind, Reading.bind, currentSpan, Reading.ask, here, taken, List.nil_append, List.singleton_append]
  refine ⟨congrArg (_ :: ·) (report_quiet _ _), ?_⟩
  have noted := law.note { next with offset := next.offset + name.length, rest } 0 next.fault
  have reported := law.report (.of .captureWithoutTarget ⟨cursor.skip.span.start, next.span.stop⟩)
    { next with offset := next.offset + name.length, waiting := [], rest, looks := 0 }
  rw [report_quiet] at reported
  rw [unplaced] at noted ⊢
  exact law.chain noted reported

private theorem nextCapture : Obeys relation nextCapture := fun cursor => by
  refine law.looking fun next _ first => ?_
  split
  next signed => exact law.bind (law.capture (first.trans signed)) (law.stay _)
  next => exact law.stay next

private theorem suffix : Obeys relation suffix := law.unit law.quantifier (law.repeatWhile law.nextCapture)

end Captures

private theorem anonymousNode (begins : (solidKinds cursor.rest).head? = some .doubleQuote ∨
    (solidKinds cursor.rest).head? = some .underscore) : anonymousNode.Heeds relation cursor :=
  law.nodeHere (by decide) (law.bind (law.stringOrWildcard begins) (law.suffix _))

section Members

/-- A member is read where its kind is ahead. -/
private theorem nextMember {member : TokenKind → Reading Unit}
    (each : ∀ kind cursor, (solidKinds cursor.rest).head? = some kind → cursor.rest.head?.map Token.kind = some kind →
      (member kind).Heeds relation cursor) : Obeys relation (nextMember member) := fun cursor => by
  refine law.looking fun next solid first => ?_
  cases found : (solidKinds cursor.rest).head? with
  | none => exact law.stay next
  | some kind =>
    rw [found] at solid first
    change Heeds relation (if kind.isCloser then Pure.pure false else do member kind; Pure.pure true) next
    split
    · exact law.stay next
    · exact law.bind (each kind next solid first) (law.stay _)

private theorem argument {kind : TokenKind} (solid : (solidKinds cursor.rest).head? = some kind)
    (first : cursor.rest.head?.map Token.kind = some kind) : (argument kind).Heeds relation cursor := by
  unfold Parser.argument
  split
  · exact law.capture first
  · exact law.string first
  · exact law.take cursor
  · exact law.take cursor
  next unsigned unquoted _ _ =>
    exact law.unexpected (fun signed => unsigned (Option.some.inj (solid.symm.trans signed)))
      (fun quoted => unquoted (Option.some.inj (solid.symm.trans quoted))) _

private theorem arguments : Obeys relation arguments :=
  law.node (by decide) (law.repeatWhile (law.nextMember fun _ _ => law.argument))

private theorem predicate : Obeys relation predicate :=
  law.node (by decide) (law.asked fun opener => law.unit law.take (law.unit (law.expect _) (law.unit law.take
    (law.unit law.predicateName (law.unit law.arguments (law.close _ _ opener))))))

variable {inner : Reading Unit} (obeys : ∀ cursor, Lacks .atSign cursor → inner.Heeds relation cursor)
include obeys

private theorem item {kind : TokenKind} (solid : (solidKinds cursor.rest).head? = some kind)
    (first : cursor.rest.head?.map Token.kind = some kind) : (item inner kind).Heeds relation cursor := by
  unfold Parser.item
  split
  · exact law.negatedField cursor
  · exact law.take cursor
  · exact law.detachedCapture first
  next unsigned =>
    have unsigned : Lacks .atSign cursor := fun signed => unsigned (Option.some.inj (solid.symm.trans signed))
    split
    · exact obeys cursor unsigned
    next other =>
      refine law.unexpected unsigned (fun quoted => other ?_) _
      rw [Option.some.inj (solid.symm.trans quoted)]
      rfl

private theorem items : Obeys relation (items inner) := law.repeatWhile (law.nextMember fun _ _ => law.item obeys)

private theorem namedNode : Obeys relation (namedNode inner) :=
  law.node (by decide) (law.asked fun opener => law.unit law.take (law.asked fun name => law.unit law.take
    (law.unit (law.kindDetail name) (law.unit (law.items obeys) (law.unit (law.close _ _ opener) law.suffix)))))

private theorem grouping : Obeys relation (grouping inner) :=
  law.node (by decide) (law.asked fun opener => law.unit law.take (law.unit (law.items obeys)
    (law.unit (law.close _ _ opener) law.suffix)))

private theorem list : Obeys relation (list inner) :=
  law.node (by decide) (law.asked fun opener => law.unit law.take (law.unit (law.items obeys)
    (law.unit (law.close _ _ opener) law.suffix)))

private theorem fieldDefinition : Obeys relation (fieldDefinition inner) := by
  refine law.node (by decide) (law.unit law.take (law.unit (law.expect _) (law.unit law.take fun cursor => ?_)))
  refine law.looking fun next solid _ => ?_
  split
  next begins =>
    refine obeys next fun signed => ?_
    rw [solid.symm.trans signed] at begins
    cases begins
  next => exact law.stay next

private theorem namedNodeOrGrouping : Obeys relation (namedNodeOrGrouping inner) := fun cursor => by
  refine law.glancing fun third next _ => ?_
  split
  · exact law.grouping obeys next
  · exact law.namedNode obeys next

private theorem parenthesized : Obeys relation (parenthesized inner) := fun cursor => by
  refine law.glancing fun second next _ => ?_
  split
  · exact law.predicate next
  · exact law.namedNodeOrGrouping obeys next
  · exact law.namedNodeOrGrouping obeys next
  · exact law.grouping obeys next

private theorem construct (unsigned : Lacks .atSign cursor) : (construct inner).Heeds relation cursor := by
  refine law.looking fun next solid _ => ?_
  have lacks {kind : TokenKind} (other : (solidKinds cursor.rest).head? ≠ some kind) : Lacks kind next :=
    fun same => other (solid.symm.trans same)
  split
  · exact law.parenthesized obeys next
  · exact law.list obeys next
  next quoted => exact law.anonymousNode (.inl (solid.trans quoted))
  next wildcard => exact law.anonymousNode (.inr (solid.trans wildcard))
  next named =>
    refine law.glancing fun second after kept => ?_
    split
    · exact law.fieldDefinition obeys after
    · exact law.bareIdentifier (kept _ (lacks unsigned)) (kept _ (lacks (by rw [named]; decide)))
  next _ _ unquoted _ _ => exact law.unexpected (lacks unsigned) (lacks unquoted) _

private theorem nested (unsigned : Lacks .atSign cursor) : (nested inner).Heeds relation cursor :=
  law.bind (law.rested cursor) (law.bind (law.construct obeys unsigned) (law.rested _))

end Members

private theorem unlessExhausted {reading : Reading Unit} (inside : reading.Heeds relation cursor) :
    (unlessExhausted reading).Heeds relation cursor := by
  unfold Heeds Reading.unlessExhausted
  split
  · exact law.stay cursor
  · exact inside

private theorem giveUp (cursor : Cursor) : giveUp.Heeds relation cursor := by
  refine law.asking (law.asking ?_)
  let start : Cursor := { cursor.skip.skip with waiting := [] }
  let swallowed := Reading.repeatWhile swallow { start with exhausted := true }
  have gone := law.last start (.of .nestingTooDeep ⟨cursor.skip.offset, cursor.skip.skip.stop⟩) rfl rfl
    (congrArg Cursor.offset (Cursor.skip_skip cursor)).symm
  have quiet : swallowed.reports = [] := (Silent.repeatWhile swallow_silent).quiet _
  have whole := law.chain (law.place cursor.skip.skip) gone
  change relation cursor.skip.skip (cursor.skip.skip.waiting.map .leaf ++ [.node .error swallowed.trees])
    (_ :: swallowed.reports) swallowed.next
  rw [quiet]
  exact whole

private theorem pattern (room : Nat) (unsigned : Lacks .atSign cursor) : (pattern room).Heeds relation cursor := by
  induction room generalizing cursor with
  | zero => exact law.unlessExhausted (law.giveUp cursor)
  | succ room ih => exact law.unlessExhausted (law.nested (fun _ => ih) unsigned)

private theorem topLevel {limit : Nat} {kind : Option TokenKind} (solid : (solidKinds cursor.rest).head? = kind)
    (first : cursor.rest.head?.map Token.kind = kind) : (topLevel limit kind).Heeds relation cursor := by
  unfold Parser.topLevel
  split
  · exact law.detachedCapture first
  next unsigned =>
    have unsigned : Lacks .atSign cursor := fun signed => unsigned (solid.symm.trans signed)
    split
    · exact law.pattern limit unsigned
    next other =>
      refine law.unexpected unsigned (fun quoted => other ?_) _
      rw [← solid, quoted]
      rfl

private theorem nextTopLevel (limit : Nat) : Obeys relation (nextTopLevel limit) := fun cursor => by
  refine law.asking ?_
  split
  · exact law.stay _
  · refine law.looking fun next solid first => ?_
    exact law.bind (law.topLevel solid first) (law.stay _)

/-- A law about captures and strings holds of a whole document, whatever its tokens. -/
theorem program (limit : Nat) : Obeys relation (program limit) :=
  law.node (by decide) (law.unit (law.repeatWhile (law.nextTopLevel limit))
    (law.unit law.skip fun cursor => law.place cursor))

end WholeLaw

end TreeQuery.Syntax
