import TreeQuery.Proofs.CourseReports
import TreeQuery.Proofs.DeclaredShapes

/-! Nothing is skipped silently. A token out of place is put into an error whether or not it is reported; it is not
reported only if the last report begins there already, so that every error stands where a report begins. -/

namespace TreeQuery

/-- Reported of a token that is then skipped. -/
def Diagnostic.Kind.isSkip (kind : Diagnostic.Kind) : Bool := kind = .unexpectedToken || kind = .bareIdentifier

namespace Syntax
open Text (Span)
open Diagnostic (Report)

private theorem NodeKind.ordinary_error (kind : NodeKind) (ordinary : kind.isOrdinary = true) : kind ≠ .error := by
  rintro rfl
  cases ordinary

private theorem NodeKind.delimited_error (kind : NodeKind) {brackets : Brackets} (delimited : kind.brackets? = some brackets) :
    kind ≠ .error := by
  rintro rfl
  cases delimited

private theorem Brackets.unclosed_other (brackets : Brackets) : brackets.unclosed.isSkip = false := by cases brackets <;> rfl

/-- Errors stand where something is reported, and what is reported of a skipped token is about an error. -/
structure Accounted (base : Nat) (above : List Placed) (cursor : Cursor) (trees : List Tree) (reports : List Report) :
    Prop where
  errors : ∀ site ∈ Tree.sitesOf base above trees, site.place.isNode .error = true → Heard cursor reports site.place.start
  skips : ∀ report ∈ reports, report.kind.isSkip = true →
    ∃ site ∈ Tree.sitesOf base above trees, ∃ token, site.place.tree = .node .error [.leaf token] ∧
      site.place.span = report.span

variable {base : Nat} {above : List Placed} {cursor middle next : Cursor} {trees later : List Tree} {reports more : List Report}

namespace Accounted

/-- Where nothing is reported, there has to be nothing but tokens. -/
private theorem tokens (leaves : ∀ tree ∈ trees, ∃ token, tree = .leaf token) : Accounted base above cursor trees [] := by
  refine ⟨fun site member error => ?_, List.forall_mem_nil _⟩
  have token := Tree.sitesOf_leaves leaves member
  rw [Placed.isNode, decide_eq_true_eq] at error
  simp [Site.isToken, error] at token

private theorem append (first : Accounted base above cursor trees reports)
    (last : ∀ offset, middle.reported = some offset → Heard cursor reports offset)
    (second : Accounted (base + Tree.lengthOf trees) above middle later more) :
    Accounted base above cursor (trees ++ later) (reports ++ more) := by
  refine ⟨?_, ?_⟩
  · rw [Tree.sitesOf_append]
    intro site member error
    rcases List.mem_append.mp member with before | after
    · exact (first.errors site before error).earlier
    · exact .since last (second.errors site after error)
  · rw [Tree.sitesOf_append]
    intro report member skip
    rcases List.mem_append.mp member with before | after
    · obtain ⟨site, among, held⟩ := first.skips report before skip
      exact ⟨site, List.mem_append_left _ among, held⟩
    · obtain ⟨site, among, held⟩ := second.skips report after skip
      exact ⟨site, List.mem_append_right _ among, held⟩

private theorem node {kind : NodeKind} (other : kind ≠ .error)
    (inside : Accounted base (⟨base, .node kind trees⟩ :: above) cursor trees reports) :
    Accounted base above cursor [.node kind trees] reports := by
  refine ⟨?_, ?_⟩
  · rw [Tree.sitesOf_single, Tree.sites]
    intro site member error
    rcases List.mem_cons.mp member with rfl | within
    · exact absurd (by simpa [Placed.isNode, Placed.kind, Tree.kind] using error) other
    · exact inside.errors site within error
  · rw [Tree.sitesOf_single, Tree.sites]
    intro report member skip
    obtain ⟨site, within, held⟩ := inside.skips report member skip
    exact ⟨site, List.mem_cons_of_mem _ within, held⟩

private theorem report {found : Report} (other : found.kind.isSkip = false) :
    Accounted base above cursor [] (Reading.report found cursor).reports := by
  refine ⟨List.forall_mem_nil _, fun report member skip => ?_⟩
  rw [Reading.mem_report member, other] at skip
  cases skip

private theorem word {token : Token} : Accounted base above cursor [.leaf token] [] :=
  .tokens fun _ member => ⟨token, List.mem_singleton.mp member⟩

/-- From a token on, which is no report of its own. -/
private theorem after {token : Token} {rest : List Token}
    (inside : Accounted (base + Tree.lengthOf [.leaf token]) above (cursor.past token rest) trees reports) :
    Accounted base above cursor (.leaf token :: trees) reports := by
  have last : ∀ offset, (cursor.past token rest).reported = some offset → Heard cursor [] offset := fun _ => .inl
  exact Accounted.word.append last inside

private theorem reporting {found : Report} (inside : Accounted base above cursor trees reports)
    (last : ∀ offset, middle.reported = some offset → Heard cursor reports offset) (other : found.kind.isSkip = false) :
    Accounted base above cursor trees (reports ++ (Reading.report found middle).reports) := by
  have whole := inside.append last (.report other)
  rwa [List.append_nil] at whole

end Accounted

theorem Course.accounted {outer : Bool} (course : Course outer cursor trees reports next) (spent : Spent cursor)
    (start : cursor.offset = base + Text.total Token.length cursor.waiting) : Accounted base above cursor trees reports := by
  induction course generalizing base above with
  | note | skip => exact .tokens (List.forall_mem_nil _)
  | place cursor =>
    refine .tokens fun tree member => ?_
    obtain ⟨token, _, rfl⟩ := List.mem_map.mp member
    exact ⟨token, rfl⟩
  | chain first second before after =>
    exact (before spent start).append (recalls.course first).heard (after (first.spent spent) (aligned.course first base start))
  | word => exact .word
  | @gap _ cursor token rest kind unplaced left plain missing =>
    have other : (Report.of kind (cursor.past token rest).skip.span).kind.isSkip = false := by
      change kind.isSkip = false
      cases kind <;> first | rfl | cases missing
    have skipped : ∀ offset, (cursor.past token rest).skip.reported = some offset →
      Heard (cursor.past token rest) [] offset := fun _ => .inl
    have blanks : Accounted (base + Tree.lengthOf [.leaf token]) above (cursor.past token rest) [] [] :=
      .tokens (List.forall_mem_nil _)
    exact .after (blanks.append skipped (.report other))
  | @node _ _ _ kind _ _ _ ordinary _ inside => exact .node (kind.ordinary_error ordinary) (inside spent start)
  | @marked _ _ _ kind _ _ _ unplaced left plain ordinary body found about _ inside =>
    have other : found.kind.isSkip = false := by rcases about with same | same <;> rw [same] <;> rfl
    have solid := TokenKind.isWord_solid plain
    have first := aligned.past unplaced left solid base start
    exact .node (kind.ordinary_error ordinary)
      (.after ((inside (spent.past left solid) first).reporting (recalls.course body).heard other))
  | @skipped _ cursor token rest unplaced left solid _ found about span =>
    have own : ⟨⟨base, .node .error [.leaf token]⟩, above⟩ ∈ Tree.sitesOf base above [.node .error [.leaf token]] :=
      List.mem_cons_self
    have here : cursor.offset = base := by rw [start, unplaced]; rfl
    have begins : found.span.start = base := by rw [span]; exact here
    have alone {site : Site} (member : site ∈ Tree.sitesOf base above [.node .error [.leaf token]])
        (error : site.place.isNode .error = true) : site.place.start = base := by
      rcases List.mem_cons.mp member with rfl | inside
      · rfl
      · obtain rfl := List.mem_singleton.mp inside
        cases error
    refine ⟨fun site member error => ?_, fun report member _ => ?_⟩
    · rw [alone member error]
      rcases Reading.report_either found cursor with ⟨exhausted | same, _⟩ | ⟨_, _, told⟩
      · have none := spent exhausted
        simp [left, solidKinds, solid] at none
      · exact .inl (same.trans (congrArg some begins))
      · rw [told]
        exact .inr ⟨found, List.mem_singleton_self found, begins⟩
    · refine ⟨_, own, token, rfl, ?_⟩
      rw [Reading.mem_report member, span, Cursor.span, left, here]
      rfl
  | @closed _ _ _ _ kind brackets _ _ _ _ _ _ _ _ unplaced left delimited opens body placed ahead closes _ inside suffix =>
    have solid := brackets.opener_solid
    have last := brackets.closer_solid
    rw [← opens] at solid
    rw [← closes] at last
    have opened := spent.past left solid
    have first := aligned.past unplaced left solid base start
    have second := aligned.course body _ first
    have third := aligned.past placed ahead last _ second
    have finished := (body.spent opened).past ahead last
    exact .node (kind.delimited_error delimited)
      (.after ((inside opened first).append (recalls.course body).heard (.after (suffix finished third))))
  | @unclosed _ _ _ kind brackets _ _ _ _ unplaced left delimited opens body _ _ found about inside =>
    have other : found.kind.isSkip = false := about ▸ brackets.unclosed_other
    have solid := brackets.opener_solid
    rw [← opens] at solid
    have first := aligned.past unplaced left solid base start
    exact .node (kind.delimited_error delimited)
      (.after ((inside (spent.past left solid) first).reporting (recalls.course body).heard other))
  | @givenUp _ cursor unplaced _ _ _ found deep begins =>
    have here : found.span.start = base := by rw [begins, start, unplaced]; rfl
    have leaves := Parser.swallow_leaves { cursor with exhausted := true }
    refine ⟨fun site member error => .inr ⟨found, List.mem_singleton_self _, ?_⟩, fun report member skip => ?_⟩
    · rcases List.mem_append.mp member with within | none
      · rcases List.mem_cons.mp within with rfl | inside
        · exact here
        · have token := Tree.sitesOf_leaves leaves inside
          rw [Placed.isNode, decide_eq_true_eq] at error
          simp [Site.isToken, error] at token
      · cases none
    · rw [List.mem_singleton.mp member, Diagnostic.Kind.isSkip, deep] at skip
      cases skip

/-- Each error begins where something is reported, and a report of a skipped token tells an error that holds just
that token. -/
theorem errors_reported (limit : Nat) (source : String) :
    (∀ site ∈ (parse limit source).tree.nodeSites, site.place.isNode .error = true →
      ∃ report ∈ (parse limit source).reports, report.span.start = site.place.start) ∧
    (∀ report ∈ (parse limit source).reports, report.kind = .unexpectedToken ∨ report.kind = .bareIdentifier →
      ∃ site ∈ (parse limit source).tree.nodeSites, ∃ token,
        site.place.tree = .node .error [.leaf token] ∧ site.place.span = report.span) ∧
    ((∃ site ∈ (parse limit source).tree.nodeSites, site.place.isNode .error = true) → (parse limit source).reports ≠ []) := by
  obtain ⟨next, _, _, course⟩ := parse_course limit source
  obtain ⟨errors, skips⟩ : Accounted 0 [] _ _ _ := course.accounted (absurd · Bool.false_ne_true) rfl
  rw [Tree.sitesOf_single] at errors skips
  have first (site : Site) (member : site ∈ (parse limit source).tree.nodeSites) (error : site.place.isNode .error = true) :
      ∃ report ∈ (parse limit source).reports, report.span.start = site.place.start :=
    (errors site (List.mem_filter.mp member).1 error).resolve_left nofun
  refine ⟨first, fun report member about => ?_, fun ⟨site, member, error⟩ none => ?_⟩
  · have skip : report.kind.isSkip = true := by rcases about with same | same <;> rw [same] <;> rfl
    obtain ⟨site, among, token, made, span⟩ := skips report member skip
    refine ⟨site, List.mem_filter.mpr ⟨among, ?_⟩, token, made, span⟩
    simp [Site.isToken, Placed.kind, made, Tree.kind]
  · obtain ⟨report, among, _⟩ := first site member error
    rw [none] at among
    cases among

end Syntax

end TreeQuery
