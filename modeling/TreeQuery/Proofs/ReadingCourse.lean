import TreeQuery.Proofs.ParserShapes
import TreeQuery.Proofs.ReportSpots

/-! What becomes of the tokens that a reading goes past. A course is what a reading does, told by whole parts of a
text: a word, a token out of place, a construct with its opener and its closer or without one. What holds along
every course holds of every text, however broken it is. -/

namespace TreeQuery.Syntax
open Text (Span)
open Diagnostic (Report)

/-- The two pairs of brackets. -/
inductive Brackets where
  | round
  | square
deriving Repr, DecidableEq

namespace Brackets

def opener : Brackets → TokenKind
  | round => .parenOpen
  | square => .bracketOpen

def closer : Brackets → TokenKind
  | round => .parenClose
  | square => .bracketClose

/-- What is reported where the closer is missing. -/
def unclosed : Brackets → Diagnostic.Kind
  | round => .unclosedNode
  | square => .unclosedList

end Brackets

/-- The delimiters of a construct that has some. -/
def NodeKind.brackets? : NodeKind → Option Brackets
  | .namedNode | .grouping | .predicate => some .round
  | .list => some .square
  | _ => none

def TokenKind.isOpener : TokenKind → Bool
  | .parenOpen | .bracketOpen => true
  | _ => false

/-- Neither trivia nor a delimiter. -/
def TokenKind.isWord (kind : TokenKind) : Bool := !kind.isTrivia && !kind.isOpener && !kind.isCloser

/-- Neither delimited nor an error. -/
def NodeKind.isOrdinary (kind : NodeKind) : Bool := kind ≠ .error && kind.brackets?.isNone

def Cursor.past (cursor : Cursor) (token : Token) (rest : List Token) : Cursor :=
  { cursor with offset := cursor.offset + token.length, rest }

/-- From one cursor to the next. Only outside all constructs may a closer be out of place: inside, it ends what is open. -/
inductive Course : (outer : Bool) → Cursor → List Tree → List Report → Cursor → Prop
  | note {outer : Bool} (cursor : Cursor) (looks : Nat) (fault : Option Fault)
      (kept : cursor.fault ≠ none → fault = cursor.fault) :
    Course outer cursor [] [] { cursor with looks, fault }
  | skip {outer : Bool} (cursor : Cursor) : Course outer cursor [] [] cursor.skip
  | place {outer : Bool} (cursor : Cursor) : Course outer cursor (cursor.waiting.map .leaf) [] { cursor with waiting := [] }
  | chain {outer : Bool} {start middle last : Cursor} {trees later : List Tree} {reports more : List Report}
    (first : Course outer start trees reports middle) (second : Course outer middle later more last) :
    Course outer start (trees ++ later) (reports ++ more) last
  | word {outer : Bool} {cursor : Cursor} {token : Token} {rest : List Token} (unplaced : cursor.waiting = [])
    (left : cursor.rest = token :: rest) (plain : token.kind.isWord = true) :
    Course outer cursor [.leaf token] [] (cursor.past token rest)
  /-- A word after which something is missing. -/
  | gap {outer : Bool} {cursor : Cursor} {token : Token} {rest : List Token} {kind : Diagnostic.Kind}
      (unplaced : cursor.waiting = [])
    (left : cursor.rest = token :: rest) (plain : token.kind.isWord = true) (missing : kind.isGap = true) :
    Course outer cursor [.leaf token]
      (Reading.report (.of kind (cursor.past token rest).skip.span) (cursor.past token rest).skip).reports
      (Reading.report (.of kind (cursor.past token rest).skip.span) (cursor.past token rest).skip).next
  | node {outer : Bool} {cursor next : Cursor} {kind : NodeKind} {trees : List Tree} {reports : List Report}
    (unplaced : cursor.waiting = []) (ordinary : kind.isOrdinary = true) (inside : Course outer cursor trees reports next) :
    Course outer cursor [.node kind trees] reports next
  /-- A node that is reported as a whole, by its first token. -/
  | marked {outer : Bool} {cursor next : Cursor} {kind : NodeKind} {token : Token} {rest : List Token} {trees : List Tree}
    (unplaced : cursor.waiting = []) (left : cursor.rest = token :: rest) (plain : token.kind.isWord = true)
    (ordinary : kind.isOrdinary = true) (inside : Course outer (cursor.past token rest) trees [] next) (found : Report)
    (about : found.kind = .unclosedString ∨ found.kind = .captureWithoutTarget) (start : found.span.start = cursor.offset) :
    Course outer cursor [.node kind (.leaf token :: trees)] (Reading.report found next).reports (Reading.report found next).next
  /-- A token out of place. -/
  | skipped {outer : Bool} {cursor : Cursor} {token : Token} {rest : List Token} (unplaced : cursor.waiting = [])
    (left : cursor.rest = token :: rest) (solid : token.isTrivia = false) (stray : token.kind.isCloser = true → outer = true)
    (found : Report) (about : found.kind = .unexpectedToken ∨ found.kind = .bareIdentifier) (span : found.span = cursor.span) :
    Course outer cursor [.node .error [.leaf token]] (Reading.report found cursor).reports
      ((Reading.report found cursor).next.past token rest)
  | closed {outer : Bool} {cursor middle next : Cursor} {kind : NodeKind} {brackets : Brackets} {opener closer : Token}
    {rest later : List Token} {trees more : List Tree} {reports others : List Report} (unplaced : cursor.waiting = [])
    (left : cursor.rest = opener :: rest) (delimited : kind.brackets? = some brackets) (opens : opener.kind = brackets.opener)
    (inside : Course false (cursor.past opener rest) trees reports middle) (placed : middle.waiting = [])
    (ahead : middle.rest = closer :: later) (closes : closer.kind = brackets.closer)
    (suffix : Course outer (middle.past closer later) more others next) :
    Course outer cursor [.node kind (.leaf opener :: (trees ++ .leaf closer :: more))] (reports ++ others) next
  /-- A construct that ends where the text ends, or where the closer of another one stands. -/
  | unclosed {outer : Bool} {cursor middle : Cursor} {kind : NodeKind} {brackets : Brackets} {opener : Token}
      {rest : List Token}
    {trees : List Tree} {reports : List Report} (unplaced : cursor.waiting = []) (left : cursor.rest = opener :: rest)
    (delimited : kind.brackets? = some brackets) (opens : opener.kind = brackets.opener)
    (inside : Course false (cursor.past opener rest) trees reports middle) (abuts : Abuts middle)
    (other : ∀ token ∈ middle.rest.head?, token.kind.isCloser = true ∧ token.kind ≠ brackets.closer)
    (found : Report) (about : found = .of brackets.unclosed cursor.span) :
    Course outer cursor [.node kind (.leaf opener :: trees)] (reports ++ (Reading.report found middle).reports)
      (Reading.report found middle).next
  /-- All that is left, once nesting is too deep. -/
  | givenUp {outer : Bool} {cursor : Cursor} (unplaced : cursor.waiting = []) (abuts : Abuts cursor) (ahead : cursor.rest ≠ [])
    (awake : cursor.exhausted = false) (found : Report) (deep : found.kind = .nestingTooDeep)
      (start : found.span.start = cursor.offset) :
    Course outer cursor [.node .error (Reading.repeatWhile Parser.swallow { cursor with exhausted := true }).trees] [found]
      (Reading.repeatWhile Parser.swallow { cursor with exhausted := true }).next

section Courses

variable {outer : Bool} {cursor next : Cursor} {trees : List Tree} {reports : List Report} {token : Token} {rest : List Token}

theorem TokenKind.isWord_solid {kind : TokenKind} (word : kind.isWord = true) : kind.isTrivia = false := by
  simp only [isWord, Bool.and_eq_true, Bool.not_eq_true'] at word
  exact word.1.1

theorem Brackets.opener_solid (brackets : Brackets) : brackets.opener.isTrivia = false := by cases brackets <;> rfl

theorem Brackets.closer_solid (brackets : Brackets) : brackets.closer.isTrivia = false := by cases brackets <;> rfl

private theorem Brackets.unclosed_shallow (brackets : Brackets) :
    brackets.unclosed ≠ .nestingTooDeep := by cases brackets <;> decide

theorem Abuts.skip_eq (abuts : Abuts cursor) : cursor.skip = cursor := by
  have none : cursor.rest.takeWhile Token.isTrivia = [] := abuts
  have whole : cursor.rest.dropWhile Token.isTrivia = cursor.rest := by
    rw [← List.nil_append (cursor.rest.dropWhile _), ← none, List.takeWhile_append_dropWhile]
  simp only [Cursor.skip, none, whole, List.append_nil]
  rfl

section Laws

variable {relation : Cursor → List Tree → List Report → Cursor → Prop} (law : Law relation)
include law

private theorem Law.reported (found : Report) (shallow : found.kind ≠ .nestingTooDeep) (cursor : Cursor) :
    relation cursor [] (Reading.report found cursor).reports (Reading.report found cursor).next := by
  have reported := law.report found shallow cursor
  rwa [Reading.report_quiet] at reported

theorem Law.past (unplaced : cursor.waiting = []) (left : cursor.rest = token :: rest) (solid : token.isTrivia = false) :
    relation cursor [.leaf token] [] (cursor.past token rest) := law.token cursor token rest unplaced left solid

/-- What every step keeps is kept along every course. -/
theorem Law.course (course : Course outer cursor trees reports next) : relation cursor trees reports next := by
  induction course with
  | note cursor looks fault kept => exact law.note cursor looks fault kept
  | skip cursor => exact law.skip cursor
  | place cursor => exact law.place cursor
  | chain _ _ before after => exact law.chain before after
  | word unplaced left plain => exact law.past unplaced left (TokenKind.isWord_solid plain)
  | @gap _ _ _ _ kind unplaced left plain missing =>
    have shallow : kind ≠ .nestingTooDeep := by rintro rfl; cases missing
    exact law.chain (law.past unplaced left (TokenKind.isWord_solid plain))
      (law.chain (law.skip _) (law.reported (.of kind _) shallow _))
  | node unplaced _ _ inside => exact law.around _ _ _ _ _ unplaced inside
  | marked unplaced left plain _ _ found about _ inside =>
    have shallow : found.kind ≠ .nestingTooDeep := by rcases about with same | same <;> simp [same]
    have whole := law.chain (law.past unplaced left (TokenKind.isWord_solid plain))
      (law.chain inside (law.reported found shallow _))
    simp only [List.append_nil, List.nil_append, List.cons_append] at whole
    exact law.around _ _ _ _ _ unplaced whole
  | @skipped _ cursor token rest unplaced left solid _ found about _ =>
    have shallow : found.kind ≠ .nestingTooDeep := by rcases about with same | same <;> simp [same]
    have taken : relation (Reading.report found cursor).next [.node .error [.leaf token]] []
        ((Reading.report found cursor).next.past token rest) := by
      refine law.around _ _ _ _ _ ?_ (law.past ?_ ?_ solid)
      all_goals unfold Reading.report; split <;> assumption
    have whole := law.chain (law.reported found shallow cursor) taken
    rwa [List.append_nil] at whole
  | @closed _ _ _ _ _ brackets _ _ _ _ _ _ _ _ unplaced left _ opens _ placed ahead closes _ inside suffix =>
    have first := law.past unplaced left (by rw [Token.isTrivia, opens, brackets.opener_solid])
    have last := law.past placed ahead (by rw [Token.isTrivia, closes, brackets.closer_solid])
    exact law.around _ _ _ _ _ unplaced (law.chain first (law.chain inside (law.chain last suffix)))
  | @unclosed _ _ _ _ brackets _ _ _ _ unplaced left _ opens _ _ _ found about inside =>
    have shallow : found.kind ≠ .nestingTooDeep := about ▸ brackets.unclosed_shallow
    have first := law.past unplaced left (by rw [Token.isTrivia, opens, brackets.opener_solid])
    have whole := law.chain first (law.chain inside (law.reported found shallow _))
    simp only [List.append_nil, List.nil_append, List.cons_append] at whole
    exact law.around _ _ _ _ _ unplaced whole
  | @givenUp _ cursor unplaced _ _ awake found deep _ =>
    have swallowed := law.around { cursor with exhausted := true } .error _ _ _ unplaced (law.repeatWhile law.swallow _)
    rw [(Silent.repeatWhile Parser.swallow_silent).quiet] at swallowed
    exact law.chain (law.last _ found awake deep) swallowed

end Laws

/-- Once nesting went too deep, nothing is ahead. -/
def Spent (cursor : Cursor) : Prop := cursor.exhausted = true → solidKinds cursor.rest = []

theorem Spent.past (spent : Spent cursor) (left : cursor.rest = token :: rest) (solid : token.isTrivia = false) :
    Spent (cursor.past token rest) := by
  intro exhausted
  have none := spent exhausted
  simp [left, solidKinds, solid] at none

private theorem Spent.report (spent : Spent cursor) (found : Report) : Spent (Reading.report found cursor).next := by
  unfold Reading.report
  split <;> exact spent

theorem Course.spent (course : Course outer cursor trees reports next) (spent : Spent cursor) : Spent next := by
  induction course with
  | note | place => exact spent
  | skip => exact fun exhausted => (solidKinds_dropWhile _).trans (spent exhausted)
  | chain _ _ before after => exact after (before spent)
  | word _ left plain => exact spent.past left (TokenKind.isWord_solid plain)
  | gap _ left plain _ =>
    refine Spent.report (fun exhausted => (solidKinds_dropWhile _).trans ?_) _
    exact spent.past left (TokenKind.isWord_solid plain) exhausted
  | node _ _ _ inside => exact inside spent
  | marked _ left plain _ _ found _ _ inside => exact (inside (spent.past left (TokenKind.isWord_solid plain))).report found
  | skipped _ left solid _ found _ _ =>
    refine (spent.report found).past ?_ solid
    unfold Reading.report
    split <;> exact left
  | @closed _ _ _ _ _ brackets _ _ _ _ _ _ _ _ _ left _ opens _ _ ahead closes _ inside suffix =>
    have opened := spent.past left (by rw [Token.isTrivia, opens, brackets.opener_solid])
    exact suffix ((inside opened).past ahead (by rw [Token.isTrivia, closes, brackets.closer_solid]))
  | @unclosed _ _ _ _ brackets _ _ _ _ _ left _ opens _ _ _ found _ inside =>
    exact (inside (spent.past left (by rw [Token.isTrivia, opens, brackets.opener_solid]))).report found
  | givenUp unplaced =>
    have blank := List.forall_mem_nil fun token : Token => token.isTrivia = true
    exact fun _ => (Parser.swallow_finishes (unplaced ▸ blank)).1

theorem waits_blank : Law fun cursor _ _ next => (∀ token ∈ cursor.waiting, token.isTrivia = true) →
    ∀ token ∈ next.waiting, token.isTrivia = true where
  stay _ := id
  chain first second := second ∘ first
  note _ _ _ _ := id
  skip _ := Cursor.skip_blank
  place _ _ := List.forall_mem_nil _
  token _ _ _ _ _ _ := id
  around _ _ _ _ _ _ inside := inside
  found _ _ _ _ := id
  last _ _ _ _ := id

theorem Course.sees {ahead : List TokenKind} (course : Course outer cursor trees reports next) (sees : Sees ahead cursor) :
    ∃ later, Sees later next :=
  ⟨_, rfl, waits_blank.course course sees.blank, course.spent fun exhausted => sees.kinds.trans (sees.spent exhausted)⟩

private theorem Course.stay (cursor : Cursor) :
    Course outer cursor [] [] cursor := .note cursor cursor.looks cursor.fault fun _ => rfl

theorem Course.look (cursor : Cursor) : Course outer cursor [] [] cursor.look := by
  unfold Cursor.look
  split
  · exact .note cursor _ _ fun _ => rfl
  · exact .note cursor _ _ (Cursor.failed_keeps cursor _)

private theorem Course.failed (cursor : Cursor) (fault : Fault) : Course outer cursor [] [] (cursor.failed fault) :=
  .note cursor cursor.looks _ (Cursor.failed_keeps cursor fault)

end Courses

/-- Nothing follows in the list that is being read. -/
def Ends (ahead : List TokenKind) : Prop := ∀ kind ∈ ahead.head?, kind.isCloser = true

namespace Reading

instance : LawfulMonad Reading :=
  have id_map {α : Type} (reading : Reading α) : id <$> reading = reading :=
    funext fun _ => by simp only [Functor.map, Reading.bind, Reading.pure, Function.comp_apply, List.append_nil, id]
  .mk' Reading id_map (fun _ _ => rfl) fun _ _ _ => funext fun _ => by simp only [Bind.bind, Reading.bind, List.append_assoc]

/-- A reading follows a course. -/
def Runs {α : Type} (outer : Bool) (reading : Reading α) (cursor : Cursor) : Prop :=
  Course outer cursor (reading cursor).trees (reading cursor).reports (reading cursor).next

variable {α β : Type} {outer : Bool} {cursor : Cursor} {kind : TokenKind} {ahead : List TokenKind} {first : Reading α}
  {second : α → Reading β} {reading : Reading Unit}

namespace Runs

theorem pure (value : α) : (Pure.pure value : Reading α).Runs outer cursor := .stay cursor

theorem next (before : first.Runs outer cursor) (after : (second (first cursor).value).Runs outer (first cursor).next) :
    (first >>= second).Runs outer cursor := before.chain after

theorem bind (sees : Sees ahead cursor) (before : first.Runs outer cursor)
    (after : ∀ value next later, Sees later next → (second value).Runs outer next) : (first >>= second).Runs outer cursor := by
  obtain ⟨later, seen⟩ := before.sees sees
  exact before.next (after _ _ later seen)

theorem asking {question : Cursor → α} (sees : Sees ahead cursor)
    (after : Sees ahead cursor.skip → Abuts cursor.skip → (second (question cursor.skip)).Runs outer cursor.skip) :
    (ask question >>= second).Runs outer cursor := (Course.skip cursor).chain (after sees.skip (.skip cursor))

theorem looking {second : Option TokenKind → Reading β} (sees : Sees ahead cursor)
    (after : ∀ next, Sees ahead next → Abuts next → (second ahead.head?).Runs outer next) :
    (current >>= second).Runs outer cursor := by
  have found : (current cursor).value = ahead.head? := Cursor.head?_kind sees.look.kinds
  have looked : current.Runs outer cursor := (Course.look cursor).chain (.skip cursor.look)
  refine looked.next ?_
  rw [found]
  exact after _ sees.look.skip (.skip cursor.look)

theorem glancing {second : Option TokenKind → Reading β} (n : Nat) (sees : Sees ahead cursor)
    (after : ∀ next, Sees ahead next → Abuts next → (second ahead[n]?).Runs outer next) :
    (Reading.ahead n >>= second).Runs outer cursor := by
  have found : (Reading.ahead n cursor).value = ahead[n]? := by
    rw [← sees.look.skip.kinds]
    exact kind_solid? n _
  have looked : (Reading.ahead n).Runs outer cursor := (Course.look cursor).chain (.skip cursor.look)
  refine looked.next ?_
  rw [found]
  exact after _ sees.look.skip (.skip cursor.look)

/-- A token that follows immediately and is not trivia is the next solid one. -/
theorem adjoining {second : Option TokenKind → Reading β} (sees : Sees ahead cursor)
    (after : ∀ found, Sees ahead cursor.look →
      (∀ kind, found = some kind → kind.isTrivia = false → ∃ rest, ahead = kind :: rest) →
      (second found).Runs outer cursor.look) : (adjacent >>= second).Runs outer cursor := by
  have looked : adjacent.Runs outer cursor := .look cursor
  refine looked.next (after _ sees.look fun kind found solid => ?_)
  obtain ⟨token, first, rfl⟩ := Option.map_eq_some_iff.mp found
  obtain ⟨rest, left⟩ := List.head?_eq_some_iff.mp first
  refine ⟨solidKinds rest, sees.kinds.symm.trans ?_⟩
  simp [left, solidKinds, Token.isTrivia, solid]

theorem ending {second : Bool → Reading β} (sees : Sees ahead cursor)
    (after : ∀ next, Sees ahead next → Abuts next → (second ahead.isEmpty).Runs outer next) :
    (atEnd >>= second).Runs outer cursor := by
  have found : (atEnd cursor).value = ahead.isEmpty := by
    change cursor.skip.rest.isEmpty = ahead.isEmpty
    cases ahead with
    | nil => rw [Cursor.ended sees.kinds]; rfl
    | cons kind ahead =>
      obtain ⟨token, rest, left, _⟩ := Cursor.first sees.kinds
      rw [left]
      rfl
  have looked : atEnd.Runs outer cursor := .skip cursor
  refine looked.next ?_
  rw [found]
  exact after _ sees.skip (.skip cursor)

/-- A word is placed after the trivia before it. -/
theorem take (sees : Sees (kind :: ahead) cursor) (word : kind.isWord = true) : Reading.take.Runs outer cursor := by
  obtain ⟨token, rest, left, rfl, _⟩ := Cursor.first sees.kinds
  have placed : Course outer { cursor.skip with waiting := [] } [.leaf token] [] _ := .word rfl left word
  rw [Runs, take_token left, List.map_append]
  exact (Course.skip cursor).chain ((Course.place cursor.skip).chain
    (placed.chain (.note _ 0 cursor.fault fun _ => rfl)))

theorem taking {second : Reading β} (sees : Sees (kind :: ahead) cursor) (word : kind.isWord = true)
    (after : ∀ next, Sees ahead next → second.Runs outer next) : (do Reading.take; second : Reading β).Runs outer cursor :=
  (take sees word).next (after _ (take_sees sees).1)

theorem expecting {second : Reading β} (sees : Sees ahead cursor)
    (after : ∀ next, Sees ahead next → second.Runs outer next) : (do expect kind; second : Reading β).Runs outer cursor := by
  rw [expect, bind_assoc]
  refine looking sees fun next sees _ => ?_
  split
  · exact after next sees
  · exact (Course.failed next (.unexpected kind)).chain (after _ (sees.noted _ _))

theorem node {kind : NodeKind} (ordinary : kind.isOrdinary = true) (inside : reading.Runs outer { cursor with waiting := [] }) :
    (Reading.node kind reading).Runs outer cursor := (Course.place cursor).chain (.node rfl ordinary inside)

theorem unlessExhausted (awake : cursor.exhausted = false) (inside : reading.Runs outer cursor) :
    (Reading.unlessExhausted reading).Runs outer cursor := by
  rwa [Runs, unlessExhausted_awake awake]

theorem repeatWhile {step : Reading Bool} (once : ∀ {ahead cursor}, Sees ahead cursor → step.Runs outer cursor)
    (sees : Sees ahead cursor) :
    (Reading.repeatWhile step).Runs outer cursor := by
  induction left : cursor.rest.length using Nat.strongRecOn generalizing ahead cursor with
  | ind size ih =>
    have begun := once sees
    obtain ⟨later, seen⟩ := begun.sees sees
    rw [Runs, Reading.repeatWhile]
    split
    · exact begun
    · split
      next shorter => exact begun.chain (ih _ (left ▸ shorter) seen rfl)
      next =>
        have failed := begun.chain (Course.failed (step cursor).next .endless)
        rwa [List.append_nil, List.append_nil] at failed

end Runs

/-- A cursor with nothing but trivia between it and the word before. -/
structure Behind (outer : Bool) (start : Cursor) (word : Token) (rest : List Token) (cursor : Cursor) : Prop where
  unplaced : start.waiting = []
  left : start.rest = word :: rest
  plain : word.kind.isWord = true
  course : Course outer start [.leaf word] [] cursor
  same : ∃ looks fault, cursor.skip = { (start.past word rest).skip with looks, fault }

/-- What is read right behind a word, where something may be missing. -/
structure Resumes (outer : Bool) (reading : Reading Unit) (cursor : Cursor) : Prop where
  course : ∀ {start : Cursor} {word : Token} {rest : List Token}, Behind outer start word rest cursor →
    Course outer start (.leaf word :: (reading cursor).trees) (reading cursor).reports (reading cursor).next

private theorem report_noted (found : Report) (cursor : Cursor) (looks : Nat) (fault : Option Fault) :
    (report found { cursor with looks, fault }).reports = (report found cursor).reports ∧
      (report found { cursor with looks, fault }).next = { (report found cursor).next with looks, fault } := by
  unfold report
  split <;> exact ⟨rfl, rfl⟩

private theorem report_fault (found : Report) (cursor : Cursor) : (report found cursor).next.fault = cursor.fault := by
  unfold report
  split <;> rfl

theorem Runs.takingWord (sees : Sees (kind :: ahead) cursor) (word : kind.isWord = true)
    (after : ∀ next, Sees ahead next → reading.Resumes outer next) :
      (do Reading.take; reading : Reading Unit).Runs outer cursor := by
  obtain ⟨seen, _⟩ := take_sees sees
  obtain ⟨token, rest, left, rfl, _⟩ := Cursor.first sees.kinds
  have behind : Behind outer { cursor.skip with waiting := [] } token rest (Reading.take cursor).next := by
    rw [take_token left]
    have placed : Course outer { cursor.skip with waiting := [] } [.leaf token] [] _ := .word rfl left word
    exact ⟨rfl, left, word, placed.chain (.note _ 0 cursor.fault fun _ => rfl), 0, cursor.fault, rfl⟩
  have whole := (Course.skip cursor).chain ((Course.place cursor.skip).chain ((after _ seen).course behind))
  have trees : (Reading.take cursor).trees = cursor.skip.waiting.map .leaf ++ [.leaf token] := by
    rw [take_token left, List.map_append]
    rfl
  have quiet : (Reading.take cursor).reports = [] := Silent.take.quiet cursor
  change Course outer cursor ((Reading.take cursor).trees ++ _) ((Reading.take cursor).reports ++ _) _
  rw [trees, quiet, List.append_assoc]
  exact whole

namespace Resumes

theorem of_runs (runs : reading.Runs outer cursor) : reading.Resumes outer cursor := ⟨fun behind => behind.course.chain runs⟩

theorem missing {kind : Diagnostic.Kind} (gap : kind.isGap = true) : (Parser.reportHere kind).Resumes outer cursor := by
  refine ⟨fun {start word rest} behind => ?_⟩
  obtain ⟨looks, fault, same⟩ := behind.same
  let middle := (start.past word rest).skip
  obtain ⟨reports, next⟩ := report_noted (.of kind middle.span) middle looks fault
  have kept : (report (.of kind middle.span) middle).next.fault ≠ none →
    fault = (report (.of kind middle.span) middle).next.fault := by
    rw [report_fault]
    intro noted
    have stays : cursor.fault = start.fault := faultStays.course behind.course noted
    have noticed : fault = cursor.fault := (congrArg Cursor.fault same).symm
    exact noticed.trans stays
  have reported := (@Course.gap outer _ _ _ _ behind.unplaced behind.left behind.plain gap).chain (.note _ looks fault kept)
  rw [List.append_nil, List.append_nil] at reported
  change Course outer start (_ :: (report (.of kind cursor.skip.span) cursor.skip).trees)
    (report (.of kind cursor.skip.span) cursor.skip).reports (report (.of kind cursor.skip.span) cursor.skip).next
  rw [report_quiet, same]
  change Course outer start _ (report (.of kind middle.span) { middle with looks, fault }).reports
    (report (.of kind middle.span) { middle with looks, fault }).next
  rw [reports, next]
  exact reported

theorem takingIf {second : Bool → Reading Unit} (sees : Sees ahead cursor) (word : kind.isWord = true)
    (taken : ∀ next later, Sees later next → (second true).Resumes outer next)
    (left : ∀ next, Sees ahead next → (second false).Resumes outer next) : (takeIf kind >>= second).Resumes outer cursor := by
  refine ⟨fun {start before rest} behind => ?_⟩
  obtain ⟨fault, looked⟩ := cursor.look_eq
  have found : (current cursor).value = ahead.head? := Cursor.head?_kind sees.look.kinds
  have behind : Behind outer start before rest cursor.look.skip := by
    refine ⟨behind.unplaced, behind.left, behind.plain, behind.course.chain ((Course.look cursor).chain (.skip _)), ?_⟩
    obtain ⟨_, _, same⟩ := behind.same
    refine ⟨cursor.looks + 1, fault, ?_⟩
    rw [Cursor.skip_skip, looked]
    change { cursor.skip with looks := cursor.looks + 1, fault } = _
    rw [same]
  have resumes : Resumes outer ((if ahead.head? = some kind then do take; return true else return false) >>= second)
    cursor.look.skip := by
    split
    next here =>
      obtain ⟨later, rfl⟩ := List.head?_eq_some_iff.mp here
      rw [bind_assoc]
      exact of_runs (.takingWord sees.look.skip word fun next sees => taken next later sees)
    next => exact left _ sees.look.skip
  have whole := resumes.course behind
  rw [← found] at whole
  rw [takeIf, bind_assoc]
  exact whole

end Resumes

theorem Runs.takingIf {second : Bool → Reading Unit} (sees : Sees ahead cursor) (word : kind.isWord = true)
    (taken : ∀ next later, Sees later next → (second true).Resumes outer next)
    (left : ∀ next, Sees ahead next → Abuts next → ahead.head? ≠ some kind → (second false).Runs outer next) :
    (takeIf kind >>= second).Runs outer cursor := by
  rw [takeIf, bind_assoc]
  refine looking sees fun next sees abuts => ?_
  split
  next here =>
    obtain ⟨later, rfl⟩ := List.head?_eq_some_iff.mp here
    rw [bind_assoc]
    exact takingWord sees word fun next sees => taken next later sees
  next other => exact left next sees abuts other

/-- What is read behind the first token of a node, by which the node may be reported. -/
def Marks (outer : Bool) (offset : Nat) (reading : Reading Unit) (cursor : Cursor) : Prop :=
  reading.Runs outer cursor ∨ ∃ (found : Report) (trees : List Tree) (middle : Cursor),
    (found.kind = .unclosedString ∨ found.kind = .captureWithoutTarget) ∧ found.span.start = offset ∧
      Course outer cursor trees [] middle ∧
        reading cursor = ⟨(), trees, (report found middle).reports, (report found middle).next⟩

namespace Marks

variable {offset : Nat}

theorem report {found : Report} (about : found.kind = .unclosedString ∨ found.kind = .captureWithoutTarget)
    (start : found.span.start = offset) : (report found).Marks outer offset cursor := by
  refine .inr ⟨found, [], cursor, about, start, .stay cursor, ?_⟩
  unfold Reading.report
  split <;> rfl

theorem after {second : α → Reading Unit} (runs : first.Runs outer cursor) (silent : Silent first)
    (later : (second (first cursor).value).Marks outer offset (first cursor).next) :
      (first >>= second).Marks outer offset cursor := by
  rcases later with later | ⟨found, trees, middle, about, start, inside, same⟩
  · exact .inl (runs.next later)
  · rw [Runs, silent.quiet] at runs
    refine .inr ⟨found, _, middle, about, start, runs.chain inside, ?_⟩
    change Step.mk () (_ ++ (second _ _).trees) ((first cursor).reports ++ (second _ _).reports) (second _ _).next = _
    rw [same, silent.quiet]
    rfl

end Marks

/-- Where a node begins with the token ahead, that is what it is reported by. -/
theorem node_opened {kind : NodeKind} (body : Span → Reading Unit) (abuts : Abuts cursor) :
    node kind (do body (← currentSpan)) cursor = node kind (body cursor.span) cursor := by
  have stay : Cursor.skip { cursor with waiting := [] } = { cursor with waiting := [] } := Abuts.skip_eq abuts
  let start : Cursor := Cursor.skip { cursor with waiting := [] }
  change Step.mk () (cursor.waiting.map .leaf ++ [.node kind (body start.span start).trees]) (body start.span start).reports
    (body start.span start).next = _
  rw [show start = { cursor with waiting := [] } from stay]
  rfl

theorem runs_marked {kind : NodeKind} {word : TokenKind} (ordinary : kind.isOrdinary = true)
    (sees : Sees (word :: ahead) cursor) (abuts : Abuts cursor) (plain : word.isWord = true)
    (inside : ∀ next, Sees ahead next → reading.Marks outer cursor.offset next) :
    (node kind (do take; reading)).Runs outer cursor := by
  let start : Cursor := { cursor with waiting := [] }
  refine (Course.place cursor).chain ?_
  rcases inside _ (take_sees sees.unplaced).1 with runs | ⟨found, trees, middle, about, offset, runs, same⟩
  · exact .node rfl ordinary ((Runs.take sees.unplaced plain).next runs)
  obtain ⟨token, rest, first, rfl, _⟩ := Cursor.first sees.kinds
  have left : start.rest = token :: rest := by rwa [abuts.skip_eq] at first
  have stay : start.skip = start := Abuts.skip_eq abuts
  have taken : take start = ⟨(), [.leaf token], [], { start.past token rest with looks := 0 }⟩ := by
    rw [take_token (stay.symm ▸ left), stay]
    rfl
  change Course outer start [.node kind ((take start).trees ++ (reading (take start).next).trees)]
    ((take start).reports ++ (reading (take start).next).reports) (reading (take start).next).next
  change Course outer (take start).next trees [] middle at runs
  change reading (take start).next = _ at same
  rw [same, taken]
  rw [taken] at runs
  have begun : Course outer (start.past token rest) trees [] middle :=
    (Course.note (start.past token rest) 0 cursor.fault fun _ => rfl).chain runs
  exact .marked rfl left plain ordinary begun found about offset

/-- Only looks ahead. -/
def Idles {α : Type} (reading : Reading α) (value : α) (cursor : Cursor) : Prop :=
  ∃ looks fault, (cursor.fault ≠ none → fault = cursor.fault) ∧ reading cursor = ⟨value, [], [], { cursor with looks, fault }⟩

namespace Idles

variable {value : α} {answer : β}

theorem pure (value : α) : (Pure.pure value : Reading α).Idles value cursor := ⟨cursor.looks, cursor.fault, fun _ => rfl, rfl⟩

theorem bind (before : first.Idles value cursor)
    (after : ∀ looks fault, (second value).Idles answer { cursor with looks, fault }) :
    (first >>= second).Idles answer cursor := by
  obtain ⟨looks, fault, kept, same⟩ := before
  obtain ⟨more, noted, still, further⟩ := after looks fault
  refine ⟨more, noted, fun known => (still (kept known ▸ known)).trans (kept known), ?_⟩
  change Step.mk _ ((first cursor).trees ++ _) ((first cursor).reports ++ _) _ = _
  rw [same, further]
  rfl

theorem current (abuts : Abuts cursor) : Reading.current.Idles (cursor.rest.head?.map Token.kind) cursor := by
  obtain ⟨fault, looked⟩ := cursor.look_eq
  have noted : Course true cursor [] [] cursor.look := .look cursor
  have still : Abuts cursor.look := by rw [looked]; exact abuts
  refine ⟨cursor.looks + 1, fault, fun known => ?_, ?_⟩
  · have stays := faultStays.course noted known
    rwa [looked] at stays
  · change Step.mk (cursor.look.skip.rest.head?.map Token.kind) [] [] cursor.look.skip = _
    rw [still.skip_eq, looked]

theorem repeatWhile {step : Reading Bool} (once : step.Idles false cursor) : (Reading.repeatWhile step).Idles () cursor := by
  obtain ⟨looks, fault, kept, same⟩ := once
  refine ⟨looks, fault, kept, ?_⟩
  rw [Reading.repeatWhile, same]
  rfl

end Idles

private theorem takeIf_found {second : Bool → Reading β} {token : Token} {rest : List Token}
    (left : cursor.look.skip.rest = token :: rest)
    (same : token.kind = kind) : (takeIf kind >>= second) cursor = (do take; second true : Reading β) cursor.look.skip := by
  have found : cursor.look.skip.rest.head?.map Token.kind = some kind := by rw [left, ← same]; rfl
  have chosen : ((if cursor.look.skip.rest.head?.map Token.kind = some kind then (do take; return true : Reading Bool) else
      return false) >>= second) = (do take; second true : Reading β) := by
    rw [if_pos found, bind_assoc]
    rfl
  rw [takeIf, bind_assoc]
  exact congrFun chosen cursor.look.skip

private theorem takeIf_missed {second : Bool → Reading β} (other : cursor.look.skip.rest.head?.map Token.kind ≠ some kind) :
    (takeIf kind >>= second) cursor = second false cursor.look.skip := by
  have chosen : ((if cursor.look.skip.rest.head?.map Token.kind = some kind then (do take; return true : Reading Bool) else
      return false) >>= second) = second false := by
    rw [if_neg other]
    rfl
  rw [takeIf, bind_assoc]
  exact congrFun chosen cursor.look.skip

/-- What is read of a construct between its delimiters. -/
structure Finishes (reading : Reading Unit) (cursor : Cursor) : Prop where
  runs : reading.Runs false cursor
  ends : Ends (solidKinds (reading cursor).next.rest)

theorem Finishes.bind {second : α → Reading Unit} (sees : Sees ahead cursor) (before : first.Runs false cursor)
    (after : ∀ value next later, Sees later next → (second value).Finishes next) : (first >>= second).Finishes cursor := by
  obtain ⟨later, seen⟩ := before.sees sees
  have finished := after (first cursor).value _ later seen
  exact ⟨before.next finished.runs, finished.ends⟩

theorem Finishes.node {kind : NodeKind} (ordinary : kind.isOrdinary = true)
    (inside : reading.Finishes { cursor with waiting := [] }) :
    (Reading.node kind reading).Finishes cursor := ⟨.node ordinary inside.runs, inside.ends⟩

section Delimited

variable {kind : NodeKind} {brackets : Brackets} {inside after : Reading Unit} (delimited : kind.brackets? = some brackets)
  (further : ∀ {next later}, Sees later next → after.Runs outer next)
  (idle : ∀ {next later}, Sees later next → Abuts next → Ends later → after.Idles () next)
include delimited further idle

/-- A construct that was read up to its end is closed there, or it is not. -/
private theorem course_of_body {start middle : Cursor} {opener : Token} {rest : List Token} {trees : List Tree}
    {reports : List Report}
    {later : List TokenKind} (unplaced : start.waiting = []) (left : start.rest = opener :: rest)
    (opens : opener.kind = brackets.opener)
    (body : Course false (start.past opener rest) trees reports middle) (sees : Sees later middle) (ends : Ends later) :
    let tail := (do Parser.close brackets.closer brackets.unclosed start.span; after : Reading Unit) middle
    Course outer start [.node kind (.leaf opener :: (trees ++ tail.trees))] (reports ++ tail.reports) tail.next := by
  have looked := body.chain ((Course.look middle).chain (.skip middle.look))
  simp only [List.append_nil] at looked
  rw [Parser.close, bind_assoc]
  by_cases found : middle.look.skip.rest.head?.map Token.kind = some brackets.closer
  · obtain ⟨closer, first, closes⟩ := Option.map_eq_some_iff.mp found
    obtain ⟨others, ahead⟩ := List.head?_eq_some_iff.mp first
    have placed := looked.chain (.place middle.look.skip)
    let next : Cursor := { middle.look.skip.past closer others with waiting := [], looks := 0 }
    have taken : take middle.look.skip = ⟨(), (middle.look.skip.waiting ++ [closer]).map .leaf, [], next⟩ := by
      rw [take_token ((Cursor.skip_twice middle.look).trans ahead), Cursor.skip_skip]
      rfl
    have solid : closer.isTrivia = false := by rw [Token.isTrivia, closes, brackets.closer_solid]
    have known : Sees (closer.kind :: solidKinds others) middle.look.skip := by
      have kinds := sees.look.skip.kinds
      rw [ahead] at kinds
      have same : later = closer.kind :: solidKinds others := kinds.symm.trans (by simp [solidKinds, solid])
      exact same ▸ sees.look.skip
    have seen : Sees (solidKinds others) next := by
      have after := (take_sees known).1
      rwa [taken] at after
    have suffix : Course outer ({ middle.look.skip with waiting := [] }.past closer others) (after next).trees
      (after next).reports (after next).next :=
      (Course.note ({ middle.look.skip with waiting := [] }.past closer others) 0 middle.look.skip.fault fun _ => rfl).chain
        (further seen)
    have whole := Course.closed unplaced left delimited opens placed rfl ahead closes suffix
    rw [takeIf_found ahead closes]
    change Course outer start
      [.node kind (_ :: (_ ++ ((take middle.look.skip).trees ++ (after (take middle.look.skip).next).trees)))]
      (_ ++ ((take middle.look.skip).reports ++ (after (take middle.look.skip).next).reports))
      (after (take middle.look.skip).next).next
    rw [taken]
    simpa only [List.append_nil, List.nil_append, List.map_append, List.append_assoc, List.cons_append, List.map_cons,
      List.map_nil] using whole
  · have abuts : Abuts middle.look.skip := .skip middle.look
    have other : ∀ token ∈ middle.look.skip.rest.head?, token.kind.isCloser = true ∧ token.kind ≠ brackets.closer := by
      intro token first
      have kind : later.head? = some token.kind := by
        rw [← Cursor.head?_kind sees.look.kinds, first]
        rfl
      exact ⟨ends token.kind kind, fun same => found (by rw [first, ← same]; rfl)⟩
    let told := report (.of brackets.unclosed start.span) middle.look.skip
    have seen : Sees later told.next := (report_sees _ sees.look.skip).1
    have still : Abuts told.next := by
      change Abuts (report _ _).next
      unfold report
      split <;> exact abuts
    obtain ⟨looks, fault, kept, same⟩ := idle seen still ends
    have idled : Course outer told.next [] [] { told.next with looks, fault } := .note told.next looks fault kept
    have whole := (Course.unclosed unplaced left delimited opens looked abuts other _ rfl).chain idled
    rw [takeIf_missed found]
    change Course outer start [.node kind (_ :: (_ ++ (told.trees ++ (after told.next).trees)))]
      (_ ++ (told.reports ++ (after told.next).reports)) (after told.next).next
    rw [same, report_quiet]
    simpa only [List.append_nil] using whole

/-- What is opened is read up to its closer, or up to where that is missing. -/
theorem runs_delimited (sees : Sees (brackets.opener :: ahead) cursor) (abuts : Abuts cursor)
    (within : ∀ next, Sees ahead next → inside.Finishes next) :
    (node kind (do
      let opener ← currentSpan
      take
      inside
      Parser.close brackets.closer brackets.unclosed opener
      after)).Runs outer cursor := by
  let start : Cursor := { cursor with waiting := [] }
  obtain ⟨opener, rest, first, opens, kinds⟩ := Cursor.first sees.kinds
  have left : start.rest = opener :: rest := by rwa [abuts.skip_eq] at first
  have stay : start.skip = start := Abuts.skip_eq abuts
  let opened : Cursor := { start.past opener rest with looks := 0 }
  have taken : take start = ⟨(), [.leaf opener], [], opened⟩ := by
    rw [take_token (stay.symm ▸ left), stay]
    rfl
  have seen : Sees ahead opened := by
    have next := (take_sees sees.unplaced).1
    rwa [taken] at next
  obtain ⟨runs, ends⟩ := within opened seen
  obtain ⟨later, sees'⟩ := runs.sees seen
  have body : Course false (start.past opener rest) (inside opened).trees (inside opened).reports (inside opened).next :=
    (Course.note (start.past opener rest) 0 cursor.fault fun _ => rfl).chain runs
  have whole := course_of_body delimited further idle rfl left opens body sees' (sees'.kinds ▸ ends)
  let ending : Reading Unit := do Parser.close brackets.closer brackets.unclosed cursor.span; after
  rw [Runs, node_opened (fun opener => do take; inside; Parser.close brackets.closer brackets.unclosed opener; after) abuts]
  refine (Course.place cursor).chain ?_
  change Course outer start [.node kind ((take start).trees ++ ((inside (take start).next).trees ++
      (ending (inside (take start).next).next).trees))]
    ((take start).reports ++ ((inside (take start).next).reports ++ (ending (inside (take start).next).next).reports))
    (ending (inside (take start).next).next).next
  rw [taken]
  exact whole

end Delimited

end Reading

end TreeQuery.Syntax
