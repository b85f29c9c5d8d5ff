import TreeQuery.Proofs.MissingClosers
import TreeQuery.Proofs.SkippedTokens

/-! Balanced brackets. An opener that is not skipped as an error is read with the construct that it opens, and its closer
ends that construct. A construct in a balanced text can lack its closer only if it holds a skipped opener, whose closer then
ends something else; and this is always reported, for what skips an opener reports it. -/

namespace TreeQuery.Syntax
open Diagnostic (Report)

/-- Brackets close in the order in which they were opened, whatever stands between them. -/
inductive Balanced : List TokenKind → Prop
  | nil : Balanced []
  | other {kind : TokenKind} {rest : List TokenKind} (opens : kind.isOpener = false) (closes : kind.isCloser = false)
    (further : Balanced rest) : Balanced (kind :: rest)
  | pair {brackets : Brackets} {inside rest : List TokenKind} (within : Balanced inside) (further : Balanced rest) :
    Balanced (brackets.opener :: (inside ++ brackets.closer :: rest))

namespace TokenKind

def opens? : TokenKind → Option Brackets
  | .parenOpen => some .round
  | .bracketOpen => some .square
  | _ => none

def closes? : TokenKind → Option Brackets
  | .parenClose => some .round
  | .bracketClose => some .square
  | _ => none

private theorem isOpener_opens {kind : TokenKind} (opens : kind.isOpener = true) :
    ∃ brackets : Brackets, kind = brackets.opener := by
  cases kind <;> first | exact ⟨.round, rfl⟩ | exact ⟨.square, rfl⟩ | cases opens

private theorem isCloser_closes {kind : TokenKind} (closes : kind.isCloser = true) :
    ∃ brackets : Brackets, kind = brackets.closer := by
  cases kind <;> first | exact ⟨.round, rfl⟩ | exact ⟨.square, rfl⟩ | cases closes

end TokenKind

/-- The brackets are balanced behind those that are still open, the last one first. -/
def nests (pending : List Brackets) : List TokenKind → Bool
  | [] => pending.isEmpty
  | kind :: rest =>
    match kind.opens? with
    | some brackets => nests (brackets :: pending) rest
    | none =>
      match kind.closes? with
      | some brackets => pending.head? = some brackets && nests pending.tail rest
      | none => nests pending rest

private theorem Balanced.plain {kinds : List TokenKind} (words : ∀ kind ∈ kinds, kind.isOpener = false ∧ kind.isCloser = false) :
    Balanced kinds := by
  induction kinds with
  | nil => exact .nil
  | cons kind rest ih =>
    obtain ⟨opens, closes⟩ := words kind List.mem_cons_self
    exact .other opens closes (ih fun other member => words other (List.mem_cons_of_mem _ member))

/-- What is behind open brackets: something balanced, the closer of the last one, and so on. -/
inductive Unwinds : List Brackets → List TokenKind → Prop
  | last {kinds : List TokenKind} (balanced : Balanced kinds) : Unwinds [] kinds
  | closer {pending : List Brackets} {brackets : Brackets} {inside rest : List TokenKind} (within : Balanced inside)
      (further : Unwinds pending rest) :
    Unwinds (brackets :: pending) (inside ++ brackets.closer :: rest)

section Nests

variable {pending : List Brackets} {brackets : Brackets} {kind : TokenKind} {kinds rest : List TokenKind}

@[simp] theorem nests_opener : nests pending (brackets.opener :: rest) = nests (brackets :: pending) rest := by
  cases brackets <;> rfl

@[simp] theorem nests_closer : nests (brackets :: pending) (brackets.closer :: rest) = nests pending rest := by
  cases brackets <;> rfl

private theorem nests_plain (opens : kind.isOpener = false) (closes : kind.isCloser = false) :
    nests pending (kind :: rest) = nests pending rest := by
  have opener : kind.opens? = none := by cases kind <;> first | rfl | cases opens
  have closer : kind.closes? = none := by cases kind <;> first | rfl | cases closes
  rw [nests, opener, closer]

/-- A closer belongs to the bracket that was opened last. -/
private theorem nests_closes (closes : kind.isCloser = true) (nested : nests pending (kind :: rest) = true) :
    ∃ brackets others, pending = brackets :: others ∧ kind = brackets.closer := by
  obtain ⟨brackets, rfl⟩ := TokenKind.isCloser_closes closes
  cases pending with
  | nil => cases brackets <;> cases nested
  | cons first others =>
    refine ⟨first, others, rfl, ?_⟩
    cases brackets <;> cases first <;> first | rfl | cases nested

private theorem Balanced.nests_append (balanced : Balanced kinds) : nests pending (kinds ++ rest) = nests pending rest := by
  induction balanced generalizing pending rest with
  | nil => rfl
  | other opens closes _ further => rw [List.cons_append, nests_plain opens closes, further]
  | pair _ _ within further =>
    rw [List.cons_append, List.append_assoc, List.cons_append, nests_opener, within, nests_closer, further]

private theorem Unwinds.other (opens : kind.isOpener = false) (closes : kind.isCloser = false) (unwinds : Unwinds pending rest) :
    Unwinds pending (kind :: rest) := by
  cases unwinds with
  | last balanced => exact .last (.other opens closes balanced)
  | closer within further => exact .closer (.other opens closes within) further

private theorem Unwinds.pair (unwinds : Unwinds (brackets :: pending) rest) : Unwinds pending (brackets.opener :: rest) := by
  cases unwinds with
  | @closer _ _ inside _ within further =>
    cases further with
    | last balanced => exact .last (.pair within balanced)
    | @closer pending next more rest between further =>
      have whole : Unwinds (next :: pending)
        ((brackets.opener :: (inside ++ brackets.closer :: more)) ++ next.closer :: rest) :=
        .closer (.pair within between) further
      rwa [List.cons_append, List.append_assoc, List.cons_append] at whole

private theorem nests_unwinds (nested : nests pending kinds = true) : Unwinds pending kinds := by
  induction kinds generalizing pending with
  | nil =>
    obtain rfl := List.isEmpty_iff.mp nested
    exact .last .nil
  | cons kind rest ih =>
    cases opens : kind.isOpener with
    | true =>
      obtain ⟨brackets, rfl⟩ := TokenKind.isOpener_opens opens
      rw [nests_opener] at nested
      exact (ih nested).pair
    | false =>
      cases closes : kind.isCloser with
      | true =>
        obtain ⟨brackets, others, rfl, rfl⟩ := nests_closes closes nested
        rw [nests_closer] at nested
        exact .closer .nil (ih nested)
      | false =>
        rw [nests_plain opens closes] at nested
        exact (ih nested).other opens closes

private theorem nests_iff_balanced (kinds : List TokenKind) : nests [] kinds = true ↔ Balanced kinds := by
  refine ⟨fun nested => ?_, fun balanced => ?_⟩
  · obtain ⟨balanced⟩ := nests_unwinds nested
    exact balanced
  · have whole : nests [] (kinds ++ []) = true := balanced.nests_append
    rwa [List.append_nil] at whole

instance (kinds : List TokenKind) : Decidable (Balanced kinds) := decidable_of_iff _ (nests_iff_balanced kinds)

end Nests

section Courses

variable {outer : Bool} {tokens rest : List Token} {cursor middle next : Cursor} {base : Nat} {above : List Placed}
  {trees later : List Tree} {reports more : List Report}

/-- The brackets ahead are balanced behind those in `pending`. -/
def Cursor.Nests (cursor : Cursor) (pending : List Brackets) : Prop := nests pending (cursor.rest.map Token.kind) = true

private theorem Cursor.Nests.some_append {pending : List Brackets} {kinds rest : List TokenKind}
    (nested : nests pending (kinds ++ rest) = true) :
    ∃ others, nests others rest = true := by
  induction kinds generalizing pending with
  | nil => exact ⟨pending, nested⟩
  | cons kind kinds ih =>
    rw [List.cons_append, nests] at nested
    split at nested
    · exact ih nested
    · split at nested
      · exact ih (Bool.and_eq_true _ _ ▸ nested).2
      · exact ih nested

private theorem Cursor.Nests.report {pending : List Brackets} (nested : cursor.Nests pending) (found : Report) :
    (Reading.report found cursor).next.Nests pending := by
  rwa [Cursor.Nests, Reading.report_rest]

/-- No opener is put into an error. -/
def Skipless (sites : List Site) : Prop :=
  ∀ site ∈ sites, site.place.isNode .error = true → site.place.firstToken? TokenKind.isOpener = none

/-- What is balanced stays so. Outside all constructs nothing is pending. -/
def Carries (outer : Bool) (cursor next : Cursor) : Prop :=
  ∀ pending, (outer = true → pending = []) → cursor.Nests pending → next.Nests pending

/-- What becomes of balanced brackets: if no opener is skipped all constructs are closed and the brackets left are balanced,
and if no missing closer is reported all constructs are closed. -/
structure Nesting (outer : Bool) (base : Nat) (above : List Placed) (cursor : Cursor) (trees : List Tree)
    (reports : List Report) (next : Cursor) : Prop where
  kept : Skipless (Tree.sitesOf base above trees) → Carries outer cursor next
  closed : Skipless (Tree.sitesOf base above trees) → ∀ site ∈ Tree.sitesOf base above trees, site.place.unclosed? = none
  told : (∀ report ∈ reports, report.kind.isUnclosed = false) → ∀ site ∈ Tree.sitesOf base above trees,
    site.place.unclosed? = none

namespace Nesting

private theorem plain (closed : ∀ site ∈ Tree.sitesOf base above trees, site.place.unclosed? = none)
    (kept : Skipless (Tree.sitesOf base above trees) → Carries outer cursor next) :
    Nesting outer base above cursor trees reports next := ⟨kept, fun _ => closed, fun _ => closed⟩

private theorem append (here : Nesting outer base above cursor trees reports middle)
    (there : Nesting outer (base + Tree.lengthOf trees) above middle later more next) :
    Nesting outer base above cursor (trees ++ later) (reports ++ more) next := by
  refine ⟨?_, ?_, ?_⟩
  all_goals
    rw [Tree.sitesOf_append]
  · intro skipless pending outside nested
    obtain ⟨first, second⟩ := List.forall_mem_append.mp skipless
    exact there.kept second pending outside (here.kept first pending outside nested)
  · intro skipless
    obtain ⟨first, second⟩ := List.forall_mem_append.mp skipless
    exact List.forall_mem_append.mpr ⟨here.closed first, there.closed second⟩
  · intro quiet
    obtain ⟨first, second⟩ := List.forall_mem_append.mp quiet
    exact List.forall_mem_append.mpr ⟨here.told first, there.told second⟩

private theorem reporting (inside : Nesting outer base above cursor trees reports next) (found : Report) :
    Nesting outer base above cursor trees (reports ++ (Reading.report found next).reports) (Reading.report found next).next :=
  ⟨fun skipless pending outside nested => (inside.kept skipless pending outside nested).report found, inside.closed,
    fun quiet => inside.told (List.forall_mem_append.mp quiet).1⟩

private theorem node {kind : NodeKind} (closed : (Placed.mk base (.node kind trees)).unclosed? = none)
    (inside : Nesting outer base (⟨base, .node kind trees⟩ :: above) cursor trees reports next) :
    Nesting outer base above cursor [.node kind trees] reports next := by
  refine ⟨?_, ?_, ?_⟩
  all_goals
    rw [Tree.sitesOf_single, Tree.sites]
  · exact fun skipless => inside.kept (List.forall_mem_cons.mp skipless).2
  · exact fun skipless => List.forall_mem_cons.mpr ⟨closed, inside.closed (List.forall_mem_cons.mp skipless).2⟩
  · exact fun quiet => List.forall_mem_cons.mpr ⟨closed, inside.told quiet⟩

end Nesting

private theorem Skipless.tail {site : Site} {sites : List Site} (skipless : Skipless (site :: sites)) : Skipless sites :=
  (List.forall_mem_cons.mp skipless).2

private theorem Skipless.halves {sites others : List Site} (skipless : Skipless (sites ++ others)) :
    Skipless sites ∧ Skipless others :=
  List.forall_mem_append.mp skipless

private theorem Cursor.Nests.course {pending : List Brackets} (nested : cursor.Nests pending)
    (course : Course outer cursor trees reports next) :
    ∃ others, next.Nests others := by
  obtain ⟨read, whole, _⟩ := moves_forward.course course
  rw [Cursor.Nests, whole, List.map_append] at nested
  exact some_append nested

private theorem Cursor.Nests.past {token : Token} {pending : List Brackets} (nested : cursor.Nests pending)
    (left : cursor.rest = token :: rest) :
    ∃ others, (cursor.past token rest).Nests others := by
  rw [Cursor.Nests, left] at nested
  exact @some_append pending [token.kind] (rest.map Token.kind) nested

private theorem Cursor.Nests.skip {pending : List Brackets} (nested : cursor.Nests pending) : cursor.skip.Nests pending := by
  have blank : Balanced ((cursor.rest.takeWhile Token.isTrivia).map Token.kind) := by
    refine .plain fun kind member => ?_
    obtain ⟨token, inside, rfl⟩ := List.mem_map.mp member
    have trivia : token.isTrivia = true := List.mem_takeWhile_imp inside
    rw [Token.isTrivia] at trivia
    cases kind : token.kind <;> first | exact ⟨rfl, rfl⟩ | (rw [kind] at trivia; cases trivia)
  have split : cursor.rest = cursor.rest.takeWhile Token.isTrivia ++ cursor.rest.dropWhile Token.isTrivia :=
    List.takeWhile_append_dropWhile.symm
  rw [Cursor.Nests, split, List.map_append, blank.nests_append] at nested
  exact nested

private theorem Cursor.Nests.word {token : Token} {pending : List Brackets} (nested : cursor.Nests pending)
    (left : cursor.rest = token :: rest)
    (plain : token.kind.isWord = true) : (cursor.past token rest).Nests pending := by
  simp only [TokenKind.isWord, Bool.and_eq_true, Bool.not_eq_true'] at plain
  rw [Cursor.Nests, left, List.map_cons, nests_plain plain.1.2 plain.2] at nested
  exact nested

private theorem Cursor.Nests.opener {token : Token} {brackets : Brackets} {pending : List Brackets}
    (nested : cursor.Nests pending)
    (left : cursor.rest = token :: rest) (opens : token.kind = brackets.opener) :
      (cursor.past token rest).Nests (brackets :: pending) := by
  rw [Cursor.Nests, left, List.map_cons, opens, nests_opener] at nested
  exact nested

private theorem Cursor.Nests.closer {token : Token} {brackets : Brackets} {pending : List Brackets}
    (nested : cursor.Nests (brackets :: pending))
    (left : cursor.rest = token :: rest) (closes : token.kind = brackets.closer) : (cursor.past token rest).Nests pending := by
  rw [Cursor.Nests, left, List.map_cons, closes, nests_closer] at nested
  exact nested

private theorem Nesting.skip : Nesting outer base above cursor [] [] cursor.skip :=
  .plain (List.forall_mem_nil _) fun _ _ _ nested => nested.skip

private theorem Nesting.word {token : Token} (left : cursor.rest = token :: rest) (plain : token.kind.isWord = true) :
    Nesting outer base above cursor [.leaf token] [] (cursor.past token rest) :=
  .plain (fun _ member => Placed.unclosed?_token (Tree.sitesOf_leaves (fun _ alone => ⟨_, List.mem_singleton.mp alone⟩) member))
    fun _ _ _ nested => nested.word left plain

/-- What is open does not end with another closer, nor with the text. -/
private theorem Cursor.Nests.ahead {brackets : Brackets} {pending : List Brackets} (nested : cursor.Nests (brackets :: pending))
    (other : ∀ token ∈ cursor.rest.head?, token.kind.isCloser = true ∧ token.kind ≠ brackets.closer) : False := by
  cases left : cursor.rest with
  | nil =>
    rw [Cursor.Nests, left] at nested
    cases nested
  | cons token rest =>
    obtain ⟨closes, differs⟩ := other token (by rw [left]; rfl)
    rw [Cursor.Nests, left] at nested
    obtain ⟨last, others, same, closer⟩ := nests_closes closes nested
    exact differs ((List.cons.inj same).1 ▸ closer)

section Delimited

variable {kind : NodeKind} {brackets : Brackets} {opener closer : Token} {left right : List Token}

private theorem Nesting.closed_node (delimited : kind.brackets? = some brackets) (opens : opener.kind = brackets.opener)
    (ahead : cursor.rest = opener :: left) (closes : closer.kind = brackets.closer) (behind : middle.rest = closer :: right)
    (inside : Nesting false (base + opener.length)
      (⟨base, .node kind (.leaf opener :: (trees ++ .leaf closer :: later))⟩ :: above)
      (cursor.past opener left) trees reports middle)
    (suffix : Nesting outer (base + opener.length + Tree.lengthOf trees + closer.length)
      (⟨base, .node kind (.leaf opener :: (trees ++ .leaf closer :: later))⟩ :: above) (middle.past closer right)
      later more next) :
    Nesting outer base above cursor [.node kind (.leaf opener :: (trees ++ .leaf closer :: later))] (reports ++ more) next := by
  let own : Placed := ⟨base, .node kind (.leaf opener :: (trees ++ .leaf closer :: later))⟩
  have sites : Tree.sitesOf base (own :: above) (.leaf opener :: (trees ++ .leaf closer :: later)) =
      ⟨⟨base, .leaf opener⟩, own :: above⟩ :: (Tree.sitesOf (base + opener.length) (own :: above) trees ++
        ⟨⟨base + opener.length + Tree.lengthOf trees, .leaf closer⟩, own :: above⟩ ::
          Tree.sitesOf (base + opener.length + Tree.lengthOf trees + closer.length) (own :: above) later) := by
    rw [Tree.sitesOf, Tree.sitesOf_append]
    rfl
  refine .node (Placed.unclosed?_closed delimited closes (by simp)) ⟨?_, ?_, ?_⟩
  all_goals
    rw [sites]
  · intro skipless pending outside nested
    obtain ⟨first, second⟩ := skipless.tail.halves
    have read := inside.kept first _ (absurd · Bool.false_ne_true) (nested.opener ahead opens)
    exact suffix.kept second.tail pending outside (read.closer behind closes)
  · intro skipless
    obtain ⟨first, second⟩ := skipless.tail.halves
    exact List.forall_mem_cons.mpr ⟨rfl, List.forall_mem_append.mpr ⟨inside.closed first,
      List.forall_mem_cons.mpr ⟨rfl, suffix.closed second.tail⟩⟩⟩
  · intro quiet
    obtain ⟨first, second⟩ := List.forall_mem_append.mp quiet
    exact List.forall_mem_cons.mpr ⟨rfl, List.forall_mem_append.mpr ⟨inside.told first,
      List.forall_mem_cons.mpr ⟨rfl, suffix.told second⟩⟩⟩

end Delimited

/-- What skips an opener reports it, so that the report of the closer that the construct around it lacks is not dropped. -/
private theorem Course.unclosed_told {found : Report} {opener : Token}
    (body : Course false (cursor.past opener rest) trees reports middle)
    (poised : Poised tokens base cursor) (opened : Poised tokens (base + opener.length) (cursor.past opener rest))
    (unplaced : cursor.waiting = []) (left : cursor.rest = opener :: rest) (awake : middle.exhausted = false)
    (skipped : ¬ Skipless (Tree.sitesOf (base + opener.length) above trees)) (start : found.span.start = cursor.offset) :
    (Reading.report found middle).reports = [found] := by
  simp only [Skipless, not_forall] at skipped
  obtain ⟨site, member, error, _⟩ := skipped
  have known := recalls.course body
  have onward := (poised.stands.past left).2
  have passed : (cursor.past opener rest).offset ≤ site.place.start := by
    have within := (Tree.sitesOf_within (base + opener.length) above trees member).1
    rwa [opened.here unplaced]
  have spent : Spent (cursor.past opener rest) := fun deep => absurd ((known.awake awake).symm.trans deep) Bool.false_ne_true
  have some : reports ≠ [] := by
    rcases (body.accounted spent opened.start).errors site member error with last | ⟨report, among, _⟩
    · have before := poised.reported _ last
      omega
    · exact List.ne_nil_of_mem among
  obtain ⟨report, among, last⟩ := known.told awake some
  have spots := body.spots opened.stands report among
  have begins := report.spot_start
  rcases Reading.report_either found middle with ⟨deep | same, _⟩ | ⟨_, _, told⟩
  · cases awake.symm.trans deep
  · have here := Option.some.inj (last.symm.trans same)
    omega
  · rw [told]

private theorem Course.nesting (course : Course outer cursor trees reports next) (poised : Poised tokens base cursor)
    (awake : next.exhausted = false) (nested : ∃ pending, cursor.Nests pending) :
      Nesting outer base above cursor trees reports next := by
  induction course generalizing base above with
  | note => exact .plain (List.forall_mem_nil _) fun _ _ _ => id
  | skip => exact .skip
  | place cursor =>
    refine .plain (fun site member => Placed.unclosed?_token (Tree.sitesOf_leaves (fun tree member => ?_) member))
      fun _ _ _ => id
    obtain ⟨token, _, rfl⟩ := List.mem_map.mp member
    exact ⟨token, rfl⟩
  | chain first second here there =>
    obtain ⟨pending, ahead⟩ := nested
    exact .append (here poised ((recalls.course second).awake awake) ⟨pending, ahead⟩)
      (there (poised.course first) awake (ahead.course first))
  | word _ left plain => exact .word left plain
  | gap _ left plain _ => exact .append (.word left plain) (.reporting .skip _)
  | node _ ordinary _ inside =>
    exact .node (Placed.unclosed?_plain (NodeKind.ordinary_plain ordinary)) (inside poised awake nested)
  | marked unplaced left plain ordinary body found _ _ inside =>
    obtain ⟨pending, ahead⟩ := nested
    rw [Reading.report_awake] at awake
    have passed := poised.past unplaced left (TokenKind.isWord_solid plain)
    refine .node (Placed.unclosed?_plain (NodeKind.ordinary_plain ordinary)) (.append (.word left plain) ?_)
    exact (inside passed awake ⟨pending, ahead.word left plain⟩).reporting found
  | @skipped _ cursor token rest unplaced left solid stray found about span =>
    refine .plain (fun site member => ?_) fun skipless pending outside nested => ?_
    · rcases List.mem_cons.mp member with rfl | inside
      · exact Placed.unclosed?_plain rfl
      · obtain rfl := List.mem_singleton.mp inside
        rfl
    have plain : token.kind.isOpener = false := by
      have none := skipless _ List.mem_cons_self rfl
      cases opens : token.kind.isOpener with
      | false => rfl
      | true =>
        have some := Placed.firstToken?_leaf base .error opens (List.mem_singleton_self _)
        rw [none] at some
        cases some
    cases closes : token.kind.isCloser with
    | true =>
      obtain rfl := outside (stray closes)
      rw [Cursor.Nests, left] at nested
      obtain ⟨_, _, none, _⟩ := nests_closes closes nested
      cases none
    | false =>
      have word : token.kind.isWord = true := by
        rw [TokenKind.isWord, plain, closes, show token.kind.isTrivia = false from solid]
        rfl
      exact (nested.report found).word ((Reading.report_rest found cursor).trans left) word
  | @closed _ _ middle _ kind brackets opener closer _ _ trees more _ others unplaced left delimited opens body placed ahead
      closes last inside suffix =>
    obtain ⟨pending, balanced⟩ := nested
    have first := brackets.opener_solid
    have second := brackets.closer_solid
    rw [← opens] at first
    rw [← closes] at second
    have opened := poised.past unplaced left first
    have closed := (opened.course body).past placed ahead second
    obtain ⟨between, read⟩ := (balanced.opener left opens).course body
    exact .closed_node delimited opens left closes ahead
      (inside opened ((recalls.course last).awake awake) ⟨_, balanced.opener left opens⟩)
      (suffix closed awake (read.past ahead))
  | @unclosed _ cursor middle kind brackets opener _ trees _ unplaced left delimited opens body _ other found about inside =>
    obtain ⟨pending, balanced⟩ := nested
    have first := brackets.opener_solid
    rw [← opens] at first
    have opened := poised.past unplaced left first
    rw [Reading.report_awake] at awake
    let own : Placed := ⟨base, .node kind (.leaf opener :: trees)⟩
    have read := @inside _ (own :: above) opened awake ⟨_, balanced.opener left opens⟩
    have skipped : ¬ Skipless (Tree.sitesOf (base + opener.length) (own :: above) trees) := fun skipless =>
      (read.kept skipless _ (absurd · Bool.false_ne_true) (balanced.opener left opens)).ahead other
    have start : found.span.start = cursor.offset := by rw [about]; rfl
    have told := body.unclosed_told poised opened unplaced left awake skipped start
    have sites : Tree.sitesOf base above [.node kind (.leaf opener :: trees)] =
        ⟨own, above⟩ :: ⟨⟨base, .leaf opener⟩, own :: above⟩ :: Tree.sitesOf (base + opener.length) (own :: above) trees :=
          Tree.sitesOf_single _ _ _
    refine ⟨fun skipless => ?_, fun skipless => ?_, fun quiet => ?_⟩
    · exact absurd (sites ▸ skipless).tail.tail skipped
    · exact absurd (sites ▸ skipless).tail.tail skipped
    · rw [told] at quiet
      have counted := quiet found (List.mem_append_right _ (List.mem_singleton_self _))
      rw [about] at counted
      cases brackets <;> cases counted
  | @givenUp _ cursor unplaced _ _ _ found deep begins =>
    have spent := (recalls.repeatWhile recalls.swallow { cursor with exhausted := true }).awake awake
    cases spent

end Courses

/-- In a balanced text no missing closer is reported if no opener is skipped; and none is reported if and only if all
constructs have their closers. -/
theorem balanced_closed {limit : Nat} {source : String} (balanced : Balanced ((Token.ofText source).map Token.kind))
    (shallow : ∀ report ∈ (parse limit source).reports, report.kind ≠ .nestingTooDeep) :
    let reports := (parse limit source).reports
    let sites := (parse limit source).tree.nodeSites
    ((∀ site ∈ sites, site.place.isNode .error = true → site.place.firstToken? TokenKind.isOpener = none) →
        ∀ report ∈ reports, report.kind.isUnclosed = false) ∧
      ((∀ report ∈ reports, report.kind.isUnclosed = false) ↔ ∀ site ∈ sites, site.place.unclosed? = none) := by
  intro reports sites
  obtain ⟨next, awake, course⟩ := parse_shallow shallow
  have poised := parse_poised source
  have nested : (Cursor.start (Token.ofText source)).Nests [] := (nests_iff_balanced _).mpr balanced
  obtain ⟨_, closed, told⟩ : Nesting true 0 [] _ _ _ _ := course.nesting poised awake ⟨[], nested⟩
  have silent (closed : ∀ site ∈ (parse limit source).tree.sites 0 [], site.place.unclosed? = none) :
      ∀ report ∈ reports, report.kind.isUnclosed = false := by
    obtain ⟨perm, _⟩ : Closings _ 0 [] _ _ _ _ := course.closings poised awake
    rw [Tree.sitesOf_single, List.filterMap_eq_nil_iff.mpr fun site member => Site.told?_none (closed site member)] at perm
    exact fun report member => Bool.eq_false_iff.mpr (List.filter_eq_nil_iff.mp perm.eq_nil report member)
  rw [Tree.sitesOf_single] at closed told
  refine ⟨fun skipless => silent (closed fun site member error => ?_), fun quiet site member => ?_,
    fun all => silent fun site member => ?_⟩
  · refine skipless site (List.mem_filter.mpr ⟨member, ?_⟩) error
    simp [Site.isToken, of_decide_eq_true error]
  · exact told quiet site (List.mem_filter.mp member).1
  · cases token : site.isToken with
    | true => exact Placed.unclosed?_token token
    | false => exact all site (List.mem_filter.mpr ⟨member, by rw [token]; rfl⟩)

/-- In `(a [b] (#eq? @c))` all brackets are balanced and none is skipped. -/
theorem nested_query_closed : Balanced ((Token.ofText "(a [b] (#eq? @c))").map Token.kind) ∧
    (∀ report ∈ (parse Parser.defaultLimit "(a [b] (#eq? @c))").reports, report.kind ≠ .nestingTooDeep) ∧
    ∀ report ∈ (parse Parser.defaultLimit "(a [b] (#eq? @c))").reports, report.kind.isUnclosed = false := by
  have balanced : Balanced ((Token.ofText "(a [b] (#eq? @c))").map Token.kind) := by decide +kernel
  have shallow : ∀ report ∈ (parse Parser.defaultLimit "(a [b] (#eq? @c))").reports, report.kind ≠ .nestingTooDeep := by
    decide +kernel
  exact ⟨balanced, shallow, (balanced_closed balanced shallow).1 (by decide +kernel)⟩

/-- In `(#eq? [a])` the opener of the list is skipped, and its closer ends the arguments in front of that of the predicate. -/
theorem list_argument_unclosed : Balanced ((Token.ofText "(#eq? [a])").map Token.kind) ∧
    (∀ report ∈ (parse Parser.defaultLimit "(#eq? [a])").reports, report.kind ≠ .nestingTooDeep) ∧
    .of .unclosedNode ⟨0, 1⟩ ∈ (parse Parser.defaultLimit "(#eq? [a])").reports := by
  decide +kernel

end TreeQuery.Syntax
