import TreeQuery.Proofs.ParserCourse

/-! Where a course reports. Each report is about what the course goes past: not in front of where it began, and not
behind where it ends. What is not reported again was reported last, at the same place. -/

namespace TreeQuery

namespace Diagnostic

variable {report : Report}

theorem Report.spot_gap (gap : report.kind.isGap = true) :
    report.spot = 2 * report.span.start := by
  rw [spot, if_pos gap, Nat.add_zero]

theorem Report.spot_plain (plain : report.kind.isGap = false) : report.spot = 2 * report.span.start + 1 := by
  rw [spot, if_neg (by rw [plain]; exact Bool.false_ne_true)]

theorem Report.spot_start (report : Report) :
    2 * report.span.start ≤ report.spot ∧ report.spot ≤ 2 * report.span.start + 1 := by
  unfold spot
  split <;> omega

end Diagnostic

namespace Syntax
open Text (Span)
open Diagnostic (Report)

theorem Brackets.unclosed_plain (brackets : Brackets) : brackets.unclosed.isGap = false := by cases brackets <;> rfl

theorem Tree.sitesOf_single (start : Nat) (above : List Placed) (tree : Tree) :
    sitesOf start above [tree] = tree.sites start above := List.append_nil _

/-- A report is made, or another was made just before at the same place. -/
theorem Reading.report_either (found : Report) (cursor : Cursor) :
    ((cursor.exhausted = true ∨ cursor.reported = some found.span.start) ∧ report found cursor = ⟨(), [], [], cursor⟩) ∨
      (cursor.exhausted = false ∧ cursor.reported ≠ some found.span.start ∧
        report found cursor = ⟨(), [], [found], { cursor with reported := some found.span.start }⟩) := by
  unfold report
  split
  next ignored => exact .inl ⟨(Bool.or_eq_true _ _ |>.mp ignored).imp_right of_decide_eq_true, rfl⟩
  next heard =>
    rw [Bool.or_eq_true, decide_eq_true_eq, not_or, Bool.not_eq_true] at heard
    exact .inr ⟨heard.1, heard.2, rfl⟩

theorem Reading.mem_report {found other : Report} {cursor : Cursor} (member : other ∈ (report found cursor).reports) :
    other = found := by
  rcases report_either found cursor with ⟨_, quiet⟩ | ⟨_, _, told⟩
  · rw [quiet] at member
    cases member
  · rw [told] at member
    exact List.mem_singleton.mp member

theorem Reading.report_awake (found : Report) (cursor : Cursor) :
    (report found cursor).next.exhausted = cursor.exhausted := by
  rcases report_either found cursor with ⟨_, same⟩ | ⟨_, _, same⟩ <;> rw [same]

theorem Reading.report_rest (found : Report) (cursor : Cursor) : (report found cursor).next.rest = cursor.rest := by
  rcases report_either found cursor with ⟨_, same⟩ | ⟨_, _, same⟩ <;> rw [same]

/-- Trees are placed from where those before them end, and what waits is still to be placed. -/
theorem aligned : Law fun cursor trees _ next => ∀ base, cursor.offset = base + Text.total Token.length cursor.waiting →
    next.offset = base + Tree.lengthOf trees + Text.total Token.length next.waiting where
  stay _ _ start := start
  chain {_ _ _ trees later _ _} first second base start := by
    rw [second _ (first base start), Tree.lengthOf_eq_total_leavesOf, Tree.lengthOf_eq_total_leavesOf,
      Tree.lengthOf_eq_total_leavesOf, Tree.leavesOf_append, Text.total_append, Nat.add_assoc base]
  note _ _ _ _ _ start := start
  skip cursor base start := by
    change cursor.offset + _ = base + 0 + Text.total Token.length (cursor.waiting ++ _)
    rw [Text.total_append, start]
    omega
  place cursor base start := by
    rw [Tree.lengthOf_eq_total_leavesOf, Tree.leavesOf_tokens]
    exact start
  token cursor token rest unplaced _ _ base start := by
    change cursor.offset + token.length = base + (token.length + 0) + Text.total Token.length cursor.waiting
    rw [start, unplaced]
    change base + 0 + token.length = base + (token.length + 0) + 0
    omega
  around _ _ _ _ _ _ inside := inside
  found _ _ _ _ _ start := start
  last _ _ _ _ _ start := start

/-- Something is reported there, now or last. -/
def Heard (cursor : Cursor) (reports : List Report) (offset : Nat) : Prop :=
  cursor.reported = some offset ∨ ∃ report ∈ reports, report.span.start = offset

section Heard

variable {cursor middle : Cursor} {reports more : List Report} {offset : Nat}

theorem Heard.earlier (heard : Heard cursor reports offset) : Heard cursor (reports ++ more) offset :=
  heard.imp_right fun ⟨report, member, start⟩ => ⟨report, List.mem_append_left _ member, start⟩

private theorem Heard.last (heard : Heard cursor [] offset) : cursor.reported = some offset := heard.resolve_right (by simp)

theorem Heard.since (last : ∀ offset, middle.reported = some offset → Heard cursor reports offset)
    (heard : Heard middle more offset) : Heard cursor (reports ++ more) offset := by
  rcases heard with before | ⟨report, member, start⟩
  · exact (last offset before).earlier
  · exact .inr ⟨report, List.mem_append_right _ member, start⟩

end Heard

/-- What was reported last is known: it is among the reports, if there are any. -/
structure Recalls (cursor : Cursor) (reports : List Report) (next : Cursor) : Prop where
  awake : next.exhausted = false → cursor.exhausted = false
  heard : ∀ offset, next.reported = some offset → Heard cursor reports offset
  told : next.exhausted = false → reports ≠ [] → ∃ report ∈ reports, next.reported = some report.span.start
  same : reports = [] → next.reported = cursor.reported

theorem recalls : Law fun cursor _ reports next => Recalls cursor reports next where
  stay _ := ⟨id, fun _ => .inl, fun _ none => absurd rfl none, fun _ => rfl⟩
  chain {_ _ _ _ _ reports more} first second := by
    refine ⟨first.awake ∘ second.awake, fun offset heard => .since first.heard (second.heard offset heard),
      fun awake some => ?_, fun none => ?_⟩
    · by_cases quiet : more = []
      · obtain ⟨report, member, last⟩ := first.told (second.awake awake) (by simpa [quiet] using some)
        exact ⟨report, List.mem_append_left _ member, (second.same quiet).trans last⟩
      · obtain ⟨report, member, last⟩ := second.told awake quiet
        exact ⟨report, List.mem_append_right _ member, last⟩
    · obtain ⟨before, after⟩ := List.append_eq_nil_iff.mp none
      exact (second.same after).trans (first.same before)
  note _ _ _ _ := ⟨id, fun _ => .inl, fun _ none => absurd rfl none, fun _ => rfl⟩
  skip _ := ⟨id, fun _ => .inl, fun _ none => absurd rfl none, fun _ => rfl⟩
  place _ := ⟨id, fun _ => .inl, fun _ none => absurd rfl none, fun _ => rfl⟩
  token _ _ _ _ _ _ := ⟨id, fun _ => .inl, fun _ none => absurd rfl none, fun _ => rfl⟩
  around _ _ _ _ _ _ inside := ⟨inside.awake, inside.heard, inside.told, inside.same⟩
  found _ report _ _ := ⟨id, fun _ heard => .inr ⟨report, List.mem_singleton_self _, Option.some.inj heard⟩,
    fun _ _ => ⟨report, List.mem_singleton_self _, rfl⟩, nofun⟩
  last _ report _ _ := ⟨nofun, fun _ => .inl, nofun, nofun⟩

section Courses

variable {outer : Bool} {tokens rest : List Token} {token : Token} {cursor next : Cursor} {trees : List Tree}
  {reports : List Report}

theorem Stands.past (stands : Stands tokens cursor) (left : cursor.rest = token :: rest) :
    Stands tokens (cursor.past token rest) ∧ cursor.offset < (cursor.past token rest).offset := by
  have forward : Forward cursor [] [] (cursor.past token rest) := ⟨[token], left, rfl⟩
  exact ⟨(stands.onward forward).1, Nat.lt_add_of_pos_right (stands.wide left)⟩

theorem Stands.report (stands : Stands tokens cursor) (found : Report) :
    Stands tokens (Reading.report found cursor).next ∧ (Reading.report found cursor).next.offset = cursor.offset := by
  refine ⟨(stands.onward (Parser.report_forward found cursor)).1, ?_⟩
  rcases Reading.report_either found cursor with ⟨_, same⟩ | ⟨_, _, same⟩ <;> rw [same]

theorem Course.onward (course : Course outer cursor trees reports next) (stands : Stands tokens cursor) :
    Stands tokens next ∧ cursor.offset ≤ next.offset := stands.onward (moves_forward.course course)

/-- A report is about the gap or the byte where it begins, and a course goes past it. -/
theorem Course.spots (course : Course outer cursor trees reports next) (stands : Stands tokens cursor) :
    ∀ report ∈ reports, 2 * cursor.offset < report.spot ∧ report.spot ≤ 2 * next.offset := by
  induction course with
  | note | skip | place | word => exact List.forall_mem_nil _
  | chain first second before after =>
    obtain ⟨further, onward⟩ := first.onward stands
    have beyond := (second.onward further).2
    intro report member
    rcases List.mem_append.mp member with here | there
    · have spots := before stands report here
      omega
    · have spots := after further report there
      omega
  | @gap _ cursor token rest kind _ left _ missing =>
    obtain ⟨passed, onward⟩ := stands.past left
    have skipped := (cursor.past token rest).offset_le_skip
    have spot : (Report.of kind (cursor.past token rest).skip.span).spot = 2 * (cursor.past token rest).skip.offset :=
      Report.spot_gap missing
    have same := (passed.skip.report (.of kind (cursor.past token rest).skip.span)).2
    intro report member
    rw [Reading.mem_report member, same]
    omega
  | node _ _ _ inside => exact inside stands
  | @marked _ cursor next _ _ _ _ _ left _ _ inside found about start within =>
    obtain ⟨passed, onward⟩ := stands.past left
    obtain ⟨further, beyond⟩ := inside.onward passed
    have spot : found.spot = 2 * found.span.start + 1 :=
      Report.spot_plain (by rcases about with same | same <;> rw [same] <;> rfl)
    have same := (further.report found).2
    intro report member
    rw [Reading.mem_report member, same]
    omega
  | @skipped _ cursor token rest _ left _ _ found about span =>
    have passed : cursor.offset < cursor.offset + token.length := (stands.past left).2
    have spot : found.spot = 2 * found.span.start + 1 :=
      Report.spot_plain (by rcases about with same | same <;> rw [same] <;> rfl)
    have start : found.span.start = cursor.offset := by rw [span]; rfl
    have same := (stands.report found).2
    intro report member
    change _ ∧ _ ≤ 2 * ((Reading.report found cursor).next.offset + token.length)
    rw [Reading.mem_report member, same]
    omega
  | closed _ left _ _ body _ ahead _ more inside suffix =>
    obtain ⟨opened, first⟩ := stands.past left
    obtain ⟨finished, second⟩ := body.onward opened
    obtain ⟨ended, third⟩ := finished.past ahead
    have fourth := (more.onward ended).2
    intro report member
    rcases List.mem_append.mp member with here | there
    · have spots := inside opened report here
      omega
    · have spots := suffix ended report there
      omega
  | @unclosed _ cursor middle _ brackets _ _ _ _ _ left _ _ body _ _ found about inside =>
    obtain ⟨opened, first⟩ := stands.past left
    obtain ⟨finished, second⟩ := body.onward opened
    have spot : found.spot = 2 * cursor.offset + 1 := by
      rw [about]
      exact Report.spot_plain brackets.unclosed_plain
    have same := (finished.report found).2
    intro report member
    rw [same]
    rcases List.mem_append.mp member with here | there
    · have spots := inside opened report here
      omega
    · rw [Reading.mem_report there]
      omega
  | @givenUp _ cursor unplaced abuts ahead _ found deep start =>
    have more : Ahead { cursor with exhausted := true } := by
      rwa [Ahead, Abuts.skip_eq (show Abuts { cursor with exhausted := true } from abuts)]
    have moved : cursor.offset < (Reading.repeatWhile Parser.swallow { cursor with exhausted := true }).next.offset :=
      Parser.swallow_moves more stands
    have spot : found.spot = 2 * found.span.start + 1 := Report.spot_plain (by rw [deep]; rfl)
    intro report member
    rw [List.mem_singleton.mp member]
    omega

/-- What was reported last does not begin behind the cursor. -/
def Reported (cursor : Cursor) : Prop := ∀ offset, cursor.reported = some offset → offset ≤ cursor.offset

theorem Course.reported (course : Course outer cursor trees reports next) (stands : Stands tokens cursor)
    (before : Reported cursor) :
    Reported next := by
  intro offset last
  have onward := (course.onward stands).2
  rcases (recalls.course course).heard offset last with earlier | ⟨report, member, start⟩
  · exact Nat.le_trans (before offset earlier) onward
  · have spots := course.spots stands report member
    have begins := report.spot_start
    omega

theorem Reported.past (before : Reported cursor) : Reported (cursor.past token rest) :=
  fun offset last => Nat.le_trans (before offset last) (Nat.le_add_right _ _)

/-- An opener is right ahead. -/
def Opens (cursor : Cursor) : Prop := ∃ token ∈ cursor.rest.head?, token.kind.isOpener = true

/-- No token is empty, so that the offset tells what is ahead. -/
theorem Stands.rest_eq (here : Stands tokens cursor) (there : Stands tokens next) (same : cursor.offset = next.offset) :
    cursor.rest = next.rest := by
  obtain ⟨filled, read, whole, offset⟩ := here
  obtain ⟨_, other, text, place⟩ := there
  have none {more : List Token} (inside : ∀ token ∈ more, token ∈ tokens) (empty : Text.total Token.length more = 0) :
    more = [] := by
    cases more with
    | nil => rfl
    | cons token more =>
      have wide : 0 < token.length := filled token (inside token List.mem_cons_self)
      rw [Text.total_cons] at empty
      omega
  rcases List.append_eq_append_iff.mp (whole.symm.trans text) with ⟨more, longer, left⟩ | ⟨more, longer, left⟩
  · have filled : more = [] := none (fun token member => by rw [text, longer]; simp [member])
      (by rw [longer, Text.total_append] at place; omega)
    rw [left, filled, List.nil_append]
  · have filled : more = [] := none (fun token member => by rw [whole, longer]; simp [member])
      (by rw [longer, Text.total_append] at offset; omega)
    rw [left, filled, List.nil_append]

private theorem Course.unmoved (course : Course outer cursor trees reports next) (stands : Stands tokens cursor)
    (same : next.offset = cursor.offset) : next.rest = cursor.rest := (course.onward stands).1.rest_eq stands same

/-- A report in front of an opener is the last one as long as the opener is ahead. -/
theorem Course.echoes (course : Course outer cursor trees reports next) (stands : Stands tokens cursor)
    (before : Reported cursor)
    (opens : Opens next) (heard : Heard cursor reports next.offset) : next.reported = some next.offset := by
  -- Where a token is taken, nothing that was reported before begins behind it.
  have earlier {cursor : Cursor} {offset : Nat} (before : Reported cursor) (moved : cursor.offset < offset) :
      cursor.reported ≠ some offset := fun last => Nat.not_lt_of_le (before offset last) moved
  induction course with
  | note | skip | place => exact heard.last
  | @chain _ start middle final _ _ reports _ first second inside after =>
    obtain ⟨further, onward⟩ := first.onward stands
    have beyond := (second.onward further).2
    have last (known : Heard start reports middle.offset) (same : final.offset = middle.offset) :
      middle.reported = some final.offset := by
      have opened : Opens middle := by rwa [Opens, ← second.unmoved further same]
      rw [same]
      exact inside stands before opened known
    refine after further (first.reported stands before) opens ?_
    rcases heard with known | ⟨report, member, here⟩
    · have least := before _ known
      have same : final.offset = middle.offset := by omega
      exact .inl (last (.inl (same ▸ known)) same)
    rcases List.mem_append.mp member with among | later
    · have spots := first.spots stands report among
      have begins := report.spot_start
      have same : final.offset = middle.offset := by omega
      exact .inl (last (.inr ⟨report, among, here.trans same⟩) same)
    · exact .inr ⟨report, later, here⟩
  | word _ left => exact absurd heard.last (earlier before (stands.past left).2)
  | @gap _ cursor token rest kind _ left =>
    obtain ⟨passed, onward⟩ := stands.past left
    have skipped := (cursor.past token rest).offset_le_skip
    rcases Reading.report_either (.of kind (cursor.past token rest).skip.span)
      (cursor.past token rest).skip with ⟨_, quiet⟩ | ⟨_, _, told⟩
    · rw [quiet] at heard
      exact absurd heard.last (earlier before (Nat.lt_of_lt_of_le onward skipped))
    · rw [told]
      rfl
  | node _ _ _ inside => exact inside stands before opens heard
  | @marked _ cursor next _ _ _ _ _ left _ _ inside found _ start within =>
    obtain ⟨passed, onward⟩ := stands.past left
    obtain ⟨further, beyond⟩ := inside.onward passed
    have same := (further.report found).2
    rcases heard with known | ⟨report, member, here⟩
    · exact absurd known (earlier before (by omega))
    · rw [Reading.mem_report member] at here
      omega
  | @skipped _ cursor token rest _ left _ _ found _ span =>
    have onward : cursor.offset < cursor.offset + token.length := (stands.past left).2
    have same : ((Reading.report found cursor).next.past token rest).offset = cursor.offset + token.length :=
      congrArg (· + token.length) (stands.report found).2
    have start : found.span.start = cursor.offset := by rw [span]; rfl
    rcases heard with known | ⟨report, member, here⟩
    · exact absurd known (earlier before (by omega))
    · rw [Reading.mem_report member] at here
      omega
  | closed _ left _ _ body _ ahead _ more inside suffix =>
    obtain ⟨opened, first⟩ := stands.past left
    obtain ⟨finished, second⟩ := body.onward opened
    obtain ⟨ended, third⟩ := finished.past ahead
    have fourth := (more.onward ended).2
    rcases heard with known | ⟨report, member, here⟩
    · exact absurd known (earlier before (by omega))
    rcases List.mem_append.mp member with among | later
    · have spots := body.spots opened report among
      have begins := report.spot_start
      omega
    · exact suffix ended (body.reported opened before.past).past opens (.inr ⟨report, later, here⟩)
  | @unclosed _ _ middle _ _ _ _ _ _ _ _ _ _ _ _ other found _ _ =>
    obtain ⟨token, first, opener⟩ := opens
    have closer := (other token (Reading.report_rest found middle ▸ first)).1
    cases kind : token.kind <;> simp [kind, TokenKind.isOpener, TokenKind.isCloser] at opener closer
  | @givenUp _ cursor unplaced =>
    have blank := List.forall_mem_nil fun token : Token => token.isTrivia = true
    obtain ⟨none, _⟩ := @Parser.swallow_finishes { cursor with exhausted := true } (unplaced ▸ blank)
    obtain ⟨token, first, opener⟩ := opens
    obtain ⟨rest, left⟩ := List.head?_eq_some_iff.mp first
    have solid : token.isTrivia = false := by
      rw [Token.isTrivia]
      cases kind : token.kind <;> first | rfl | simp [kind, TokenKind.isOpener] at opener
    rw [left] at none
    simp [solidKinds, solid] at none

end Courses

end Syntax

end TreeQuery
