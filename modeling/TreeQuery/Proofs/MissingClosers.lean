import TreeQuery.Proofs.CaptureTokens
import TreeQuery.Proofs.CourseReports
import TreeQuery.Proofs.LiteralReading

/-! Which missing closers are reported. Every construct that ends without its closer is reported once, at its opener,
unless something was found missing right in front of the opener and nothing was reported since: then the parser takes
the report for a repetition and drops it. -/

namespace TreeQuery

def Diagnostic.Kind.isUnclosed (kind : Diagnostic.Kind) : Bool := kind = .unclosedNode || kind = .unclosedList

namespace Syntax
open Text (Span)
open Diagnostic (Report)

/-- Where the next token that is no trivia begins, at `offset` or behind it; where the tokens end if there is none. -/
def solidFrom (offset start : Nat) : List Token → Nat
  | [] => start
  | token :: rest => if offset ≤ start && !token.isTrivia then start else solidFrom offset (start + token.length) rest

namespace Placed

def brackets? (place : Placed) : Option Brackets :=
  match place.kind with
  | .node kind => kind.brackets?
  | .token _ => none

/-- What there is to report of a construct that lacks its closer. -/
def unclosed? (place : Placed) : Option Report := do
  let brackets ← place.brackets?
  if (place.firstToken? (· = brackets.closer)).isSome then none
  else (place.firstToken? (· = brackets.opener)).map fun opener => .of brackets.unclosed opener.span

/-- Told of what is behind the opener, up to what follows the construct. -/
def holds (tokens : List Token) (place : Placed) (report : Report) : Bool :=
  2 * place.start + 1 < report.spot && report.spot ≤ 2 * solidFrom place.stop 0 tokens

/-- Something was missing right in front of the construct, or the report `last` before these is there, and nothing is
reported in it. -/
def isMuted (tokens : List Token) (last : Option Nat) (reports : List Report) (place : Placed) : Bool :=
  (last = some place.start || reports.any fun report => report.kind.isGap && report.span.start = place.start) &&
    reports.all (!place.holds tokens ·)

section Parts

variable {start : Nat} {kind : NodeKind} {brackets : Brackets} {trees : List Tree} {token : Token}

theorem unclosed?_plain (plain : kind.brackets? = none) : (mk start (.node kind trees)).unclosed? = none := by
  change (kind.brackets?).bind _ = none
  rw [plain]
  rfl

theorem unclosed?_token {site : Site} (alone : site.isToken = true) : site.place.unclosed? = none := by
  obtain ⟨⟨start, tree⟩, above⟩ := site
  cases tree with
  | leaf => rfl
  | node => cases alone

theorem firstToken?_leaf (start : Nat) (kind : NodeKind) {wanted : TokenKind → Bool} (fits : wanted token.kind = true)
    (member : .leaf token ∈ trees) :
    ((mk start (.node kind trees)).firstToken? wanted).isSome = true := by
  have child : Tree.leaf token ∈ (line start trees).map Placed.tree := (line_trees start trees).symm ▸ member
  obtain ⟨place, inside, same⟩ := List.mem_map.mp child
  refine List.find?_isSome.mpr ⟨place, inside, ?_⟩
  rw [Placed.kind, same]
  exact fits

private theorem firstToken?_none {wanted : TokenKind → Bool} (other : ∀ token, .leaf token ∈ trees → wanted token.kind = false) :
    (mk start (.node kind trees)).firstToken? wanted = none := by
  refine List.find?_eq_none.mpr fun place inside => ?_
  have member : place.tree ∈ trees := by
    rw [← line_trees start trees]
    exact List.mem_map_of_mem inside
  unfold Placed.kind
  cases tree : place.tree with
  | leaf token => exact Bool.not_eq_true _ ▸ other token (tree ▸ member)
  | node => exact Bool.false_ne_true

theorem unclosed?_closed (delimited : kind.brackets? = some brackets) (closes : token.kind = brackets.closer)
    (member : .leaf token ∈ trees) : (mk start (.node kind trees)).unclosed? = none := by
  have closed : ((mk start (.node kind trees)).firstToken? (· = brackets.closer)).isSome = true :=
    firstToken?_leaf start kind (decide_eq_true closes) member
  change (kind.brackets?).bind _ = none
  rw [delimited, Option.bind_some, if_pos closed]

private theorem unclosed?_open (delimited : kind.brackets? = some brackets) (opens : token.kind = brackets.opener)
    (left : ∀ token, .leaf token ∈ trees → token.kind.isCloser = false) :
    (mk start (.node kind (.leaf token :: trees))).unclosed? = some (.of brackets.unclosed ⟨start, start + token.length⟩) := by
  have closer : (mk start (.node kind (.leaf token :: trees))).firstToken? (· = brackets.closer) = none := by
    refine firstToken?_none fun other member => decide_eq_false fun same => ?_
    rcases List.mem_cons.mp member with first | later
    · rw [Tree.leaf.inj first, opens] at same
      cases brackets <;> cases same
    · have inside := left other later
      rw [same] at inside
      cases brackets <;> cases inside
  have opener : (mk start (.node kind (.leaf token :: trees))).firstToken? (· = brackets.opener) = some ⟨start, .leaf token⟩ :=
    List.find?_cons_of_pos (decide_eq_true opens)
  change (kind.brackets?).bind _ = _
  rw [delimited, Option.bind_some, closer, opener]
  rfl

end Parts

end Placed

theorem NodeKind.ordinary_plain {kind : NodeKind} (ordinary : kind.isOrdinary = true) : kind.brackets? = none := by
  rw [isOrdinary, Bool.and_eq_true] at ordinary
  exact Option.isNone_iff_eq_none.mp ordinary.2

section Solid

variable {tokens more : List Token} {offset start : Nat}

private theorem solidFrom_behind (filled : ∀ token ∈ tokens, 0 < token.length)
    (last : offset = start + Text.total Token.length tokens) :
    solidFrom offset start (tokens ++ more) = solidFrom offset offset more := by
  induction tokens generalizing start with
  | nil => rw [last]; rfl
  | cons token rest ih =>
    have wide : 0 < token.length := filled token List.mem_cons_self
    rw [Text.total_cons] at last
    have early : ¬ offset ≤ start := by omega
    rw [List.cons_append, solidFrom, decide_eq_false early]
    exact ih (fun later member => filled later (List.mem_cons_of_mem _ member)) (by omega)

private theorem solidFrom_blank (blank : ∀ token ∈ tokens, token.isTrivia = true) :
    solidFrom offset start (tokens ++ more) = solidFrom offset (start + Text.total Token.length tokens) more := by
  induction tokens generalizing start with
  | nil => rfl
  | cons token rest ih =>
    rw [List.cons_append, solidFrom, blank token List.mem_cons_self, Bool.not_true, Bool.and_false, if_neg Bool.false_ne_true,
      ih fun later member => blank later (List.mem_cons_of_mem _ member), Text.total_cons, Nat.add_assoc]

private theorem solidFrom_solid (solid : ∀ token ∈ tokens.head?, token.isTrivia = false) (behind : offset ≤ start) :
    solidFrom offset start tokens = start := by
  cases tokens with
  | nil => rfl
  | cons token rest => rw [solidFrom, solid token rfl, decide_eq_true behind]; rfl

end Solid

section Courses

variable {outer : Bool} {tokens rest : List Token} {cursor middle next : Cursor} {base : Nat} {place : Placed}
  {above : List Placed} {trees later : List Tree} {reports more : List Report} {last : Option Nat}

/-- What a course placed ends where it stopped, up to blanks. -/
private theorem Course.solidFrom (course : Course outer cursor trees reports next) (stands : Stands tokens cursor)
    (unplaced : cursor.waiting = [])
    (solid : ∀ token ∈ next.rest.head?, token.isTrivia = false) :
    solidFrom (cursor.offset + Tree.lengthOf trees) 0 tokens = next.offset := by
  obtain ⟨filled, read, whole, offset⟩ := stands
  have kept := keeps.course course
  have blank := waits_blank.course course (unplaced ▸ List.forall_mem_nil _)
  have ended := aligned.course course cursor.offset (by rw [unplaced]; rfl)
  rw [Keeps, unplaced, List.nil_append] at kept
  rw [kept, ← List.append_assoc] at whole
  have stop : cursor.offset + Tree.lengthOf trees = Text.total Token.length (read ++ Tree.leavesOf trees) := by
    rw [Text.total_append, offset, Tree.lengthOf_eq_total_leavesOf]
  have short : ∀ token ∈ read ++ Tree.leavesOf trees, 0 < token.length := fun token member =>
    filled token (whole ▸ List.mem_append_left _ member)
  rw [whole, solidFrom_behind short (stop.trans (Nat.zero_add _).symm), solidFrom_blank blank, ended]
  exact solidFrom_solid solid (Nat.le_add_right _ _)

/-- A closer that is placed in a construct is the one that ends it. -/
private theorem Course.leaf_open (course : Course outer cursor trees reports next)
    (blank : ∀ token ∈ cursor.waiting, token.isTrivia = true)
    {token : Token} (member : .leaf token ∈ trees) :
    token.kind.isCloser = false := by
  have word {kind : TokenKind} (plain : kind.isWord = true) : kind.isCloser = false := by
    simp only [TokenKind.isWord, Bool.and_eq_true, Bool.not_eq_true'] at plain
    exact plain.2
  induction course with
  | note | skip => cases member
  | place cursor =>
    obtain ⟨other, waits, same⟩ := List.mem_map.mp member
    have trivia : token.kind.isTrivia = true := Tree.leaf.inj same ▸ blank other waits
    cases kind : token.kind <;> first | rfl | (rw [kind] at trivia; cases trivia)
  | chain first _ before after =>
    rcases List.mem_append.mp member with here | there
    · exact before blank here
    · exact after (waits_blank.course first blank) there
  | word _ _ plain | gap _ _ plain _ =>
    rw [Tree.leaf.inj (List.mem_singleton.mp member)]
    exact word plain
  | node | marked | skipped | closed | unclosed | givenUp => cases List.mem_singleton.mp member

/-- What is reported of a site. -/
def Site.told? (tokens : List Token) (last : Option Nat) (reports : List Report) (site : Site) : Option Report :=
  if site.place.isMuted tokens last reports then none else site.place.unclosed?

private theorem Placed.isMuted_iff (place : Placed) : place.isMuted tokens last reports = true ↔
    (last = some place.start ∨ ∃ report ∈ reports, report.kind.isGap = true ∧ report.span.start = place.start) ∧
      ∀ report ∈ reports, place.holds tokens report = false := by
  simp [isMuted]

theorem Site.told?_none {site : Site} (closed : site.place.unclosed? = none) : site.told? tokens last reports = none := by
  rw [told?, closed, ite_self]

/-- What is told of sites changes only with what mutes those of them that lack their closer. -/
private theorem Site.filterMap_told {sites : List Site} {first second : Option Nat} {here there : List Report}
    (same : ∀ site ∈ sites, site.place.unclosed? ≠ none →
      site.place.isMuted tokens first here = site.place.isMuted tokens second there) :
    sites.filterMap (told? tokens first here) = sites.filterMap (told? tokens second there) := by
  refine List.filterMap_congr fun site member => ?_
  by_cases closed : site.place.unclosed? = none
  · rw [told?_none closed, told?_none closed]
  · rw [told?, same site member closed, told?]

/-- A construct without its closer is between the cursors, and its opener is where it begins. -/
structure Reaches (tokens : List Token) (cursor : Cursor) (place : Placed) (next : Cursor) : Prop where
  start : cursor.offset ≤ place.start
  wide : place.start < next.offset
  stop : solidFrom place.stop 0 tokens ≤ next.offset
  opens : ∃ here, Stands tokens here ∧ here.offset = place.start ∧ Opens here

/-- The missing closers are reported, each at its opener, but for those that are muted. -/
structure Closings (tokens : List Token) (base : Nat) (above : List Placed) (cursor : Cursor) (trees : List Tree)
    (reports : List Report) (next : Cursor) : Prop where
  told : (reports.filter (·.kind.isUnclosed)).Perm
    ((Tree.sitesOf base above trees).filterMap (Site.told? tokens cursor.reported reports))
  reach : ∀ site ∈ Tree.sitesOf base above trees, site.place.unclosed? ≠ none → Reaches tokens cursor site.place next

private theorem Reaches.onward (reaches : Reaches tokens cursor place middle) (onward : middle.offset ≤ next.offset) :
    Reaches tokens cursor place next :=
  { reaches with wide := Nat.lt_of_lt_of_le reaches.wide onward, stop := Nat.le_trans reaches.stop onward }

private theorem Reaches.back (reaches : Reaches tokens middle place next) (onward : cursor.offset ≤ middle.offset) :
    Reaches tokens cursor place next := { reaches with start := Nat.le_trans onward reaches.start }

/-- Reports of something else do not count. -/
private theorem Placed.isMuted_append (place : Placed)
    (other : ∀ report ∈ more, place.holds tokens report = false ∧
      (report.kind.isGap = true → report.span.start ≠ place.start)) :
    place.isMuted tokens last (reports ++ more) = place.isMuted tokens last reports := by
  rw [Bool.eq_iff_iff, isMuted_iff, isMuted_iff, List.forall_mem_append]
  refine and_congr (or_congr_right ⟨?_, ?_⟩) ⟨And.left, fun quiet => ⟨quiet, fun report member => (other report member).1⟩⟩
  · rintro ⟨report, member, gap, start⟩
    rcases List.mem_append.mp member with here | there
    · exact ⟨report, here, gap, start⟩
    · exact absurd start ((other report there).2 gap)
  · rintro ⟨report, member, about⟩
    exact ⟨report, List.mem_append_left _ member, about⟩

/-- A report behind a construct is not about it. -/
private theorem Reaches.before (reaches : Reaches tokens cursor place middle)
    (behind : ∀ report ∈ more, 2 * middle.offset < report.spot) :
    place.isMuted tokens last (reports ++ more) = place.isMuted tokens last reports := by
  refine place.isMuted_append fun report member => ?_
  have spot := behind report member
  have stop := reaches.stop
  have wide := reaches.wide
  refine ⟨?_, fun gap start => ?_⟩
  · have beyond : ¬ report.spot ≤ 2 * solidFrom place.stop 0 tokens := by omega
    rw [Placed.holds, decide_eq_false beyond, Bool.and_false]
  · rw [Report.spot_gap gap] at spot
    omega

/-- What was reported before a construct matters only if it is right in front of it. -/
private theorem Reaches.after (reaches : Reaches tokens middle place next) (first : Course outer cursor trees reports middle)
    (stands : Stands tokens cursor) (before : Reported cursor) :
    place.isMuted tokens cursor.reported (reports ++ more) = place.isMuted tokens middle.reported more := by
  have start := reaches.start
  obtain ⟨further, onward⟩ := first.onward stands
  have spots (report : Report) (member : report ∈ reports) : report.spot ≤ 2 * place.start := by
    have spot := (first.spots stands report member).2
    omega
  have quiet : ∀ report ∈ reports, place.holds tokens report = false := by
    intro report member
    have early : ¬ 2 * place.start + 1 < report.spot := by
      have spot := spots report member
      omega
    rw [Placed.holds, decide_eq_false early, Bool.false_and]
  have heard : Heard cursor reports place.start ↔ middle.reported = some place.start := by
    refine ⟨fun heard => ?_, (recalls.course first).heard _⟩
    have here : place.start = middle.offset := by
      rcases heard with last | ⟨report, member, same⟩
      · have offset := before _ last
        omega
      · have spot := (first.spots stands report member).2
        have begins := report.spot_start
        omega
    obtain ⟨other, stood, offset, opener⟩ := reaches.opens
    have opens : Opens middle := by
      have same : middle.rest = other.rest := further.rest_eq stood (here.symm.trans offset.symm)
      rwa [Opens, same]
    rw [here] at heard ⊢
    exact first.echoes stands before opens heard
  rw [Bool.eq_iff_iff, Placed.isMuted_iff, Placed.isMuted_iff, List.forall_mem_append, ← heard]
  refine and_congr ⟨?_, ?_⟩ ⟨And.right, fun more => ⟨quiet, more⟩⟩
  · rintro (last | ⟨report, member, gap, same⟩)
    · exact .inl (.inl last)
    · rcases List.mem_append.mp member with here | there
      · exact .inl (.inr ⟨report, here, same⟩)
      · exact .inr ⟨report, there, gap, same⟩
  · rintro ((last | ⟨report, member, same⟩) | ⟨report, member, about⟩)
    · exact .inl last
    · refine .inr ⟨report, List.mem_append_left _ member, ?_, same⟩
      have spot := spots report member
      by_contra plain
      rw [Report.spot_plain (Bool.not_eq_true _ ▸ plain)] at spot
      omega
    · exact .inr ⟨report, List.mem_append_right _ member, about⟩

namespace Closings

/-- Of sites that are closed or need no closer there is nothing to tell. -/
private theorem plain (closed : ∀ site ∈ Tree.sitesOf base above trees, site.place.unclosed? = none)
    (other : ∀ report ∈ reports, report.kind.isUnclosed = false) : Closings tokens base above cursor trees reports next := by
  refine ⟨?_, fun site member unclosed => absurd (closed site member) unclosed⟩
  rw [List.filter_eq_nil_iff.mpr fun report member => by rw [other report member]; exact Bool.false_ne_true,
    List.filterMap_eq_nil_iff.mpr fun site member => Site.told?_none (closed site member)]

private theorem leaves (alone : ∀ tree ∈ trees, ∃ token, tree = .leaf token) :
    Closings tokens base above cursor trees [] next := by
  exact .plain (fun site member => Placed.unclosed?_token (Tree.sitesOf_leaves alone member)) (List.forall_mem_nil _)

private theorem after {token : Token} (onward : cursor.offset ≤ (cursor.past token rest).offset)
    (inside : Closings tokens (base + token.length) above (cursor.past token rest) trees reports next) :
    Closings tokens base above cursor (.leaf token :: trees) reports next := by
  have sites : Tree.sitesOf base above (.leaf token :: trees) =
      ⟨⟨base, .leaf token⟩, above⟩ :: Tree.sitesOf (base + token.length) above trees := rfl
  refine ⟨?_, ?_⟩
  · rw [sites, List.filterMap_cons_none (Site.told?_none rfl)]
    exact inside.told
  · rw [sites]
    intro site member unclosed
    rcases List.mem_cons.mp member with rfl | within
    · exact absurd rfl unclosed
    · exact (inside.reach site within unclosed).back onward

private theorem append (first : Course outer cursor trees reports middle) (stands : Stands tokens cursor)
    (before : Reported cursor)
    (onward : middle.offset ≤ next.offset) (behind : ∀ report ∈ more, 2 * middle.offset < report.spot)
    (here : Closings tokens base above cursor trees reports middle)
    (there : Closings tokens (base + Tree.lengthOf trees) above middle later more next) :
    Closings tokens base above cursor (trees ++ later) (reports ++ more) next := by
  have back := (first.onward stands).2
  refine ⟨?_, ?_⟩
  · have early : (Tree.sitesOf base above trees).filterMap (Site.told? tokens cursor.reported (reports ++ more)) =
        (Tree.sitesOf base above trees).filterMap (Site.told? tokens cursor.reported reports) :=
      Site.filterMap_told fun site member unclosed => (here.reach site member unclosed).before behind
    have late : (Tree.sitesOf (base + Tree.lengthOf trees) above later).filterMap
          (Site.told? tokens cursor.reported (reports ++ more)) =
        (Tree.sitesOf (base + Tree.lengthOf trees) above later).filterMap (Site.told? tokens middle.reported more) :=
      Site.filterMap_told fun site member unclosed => (there.reach site member unclosed).after first stands before
    rw [List.filter_append, Tree.sitesOf_append, List.filterMap_append, early, late]
    exact here.told.append there.told
  · rw [Tree.sitesOf_append]
    intro site member unclosed
    rcases List.mem_append.mp member with first | second
    · exact (here.reach site first unclosed).onward onward
    · exact (there.reach site second unclosed).back back

/-- What is told at the end of something that began before matters to nothing in it. -/
private theorem told_late {found : Report} (inside : Closings tokens base above cursor trees reports next)
    (low : found.spot < 2 * cursor.offset) :
    (Tree.sitesOf base above trees).filterMap
      (Site.told? tokens cursor.reported (reports ++ (Reading.report found next).reports)) =
      (Tree.sitesOf base above trees).filterMap (Site.told? tokens cursor.reported reports) := by
  refine Site.filterMap_told fun site member unclosed => site.place.isMuted_append fun report told => ?_
  have start := (inside.reach site member unclosed).start
  rw [Reading.mem_report told]
  refine ⟨?_, fun gap same => ?_⟩
  · have early : ¬ 2 * site.place.start + 1 < found.spot := by omega
    rw [Placed.holds, decide_eq_false early, Bool.false_and]
  · rw [Report.spot_gap gap] at low
    omega

private theorem reporting {found : Report} (inside : Closings tokens base above cursor trees reports middle)
    (stands : Stands tokens middle)
    (low : found.spot < 2 * cursor.offset) (other : found.kind.isUnclosed = false) :
    Closings tokens base above cursor trees (reports ++ (Reading.report found middle).reports)
      (Reading.report found middle).next := by
  have none : (Reading.report found middle).reports.filter (·.kind.isUnclosed) = [] :=
    List.filter_eq_nil_iff.mpr fun report member => by rw [Reading.mem_report member, other]; exact Bool.false_ne_true
  refine ⟨?_, fun site member unclosed => ?_⟩
  · rw [inside.told_late low, List.filter_append, none, List.append_nil]
    exact inside.told
  · exact (inside.reach site member unclosed).onward (Nat.le_of_eq (stands.report found).2.symm)

private theorem node {kind : NodeKind} (closed : (Placed.mk base (.node kind trees)).unclosed? = none)
    (inside : Closings tokens base (⟨base, .node kind trees⟩ :: above) cursor trees reports next) :
    Closings tokens base above cursor [.node kind trees] reports next := by
  refine ⟨?_, ?_⟩
  · rw [Tree.sitesOf_single, Tree.sites, List.filterMap_cons_none (Site.told?_none closed)]
    exact inside.told
  · rw [Tree.sitesOf_single, Tree.sites]
    intro site member unclosed
    rcases List.mem_cons.mp member with rfl | within
    · exact absurd closed unclosed
    · exact inside.reach site within unclosed

end Closings

/-- A text is read from here on, and its trees are placed from `base` on. -/
structure Poised (tokens : List Token) (base : Nat) (cursor : Cursor) : Prop where
  stands : Stands tokens cursor
  reported : Reported cursor
  blank : ∀ token ∈ cursor.waiting, token.isTrivia = true
  start : cursor.offset = base + Text.total Token.length cursor.waiting

namespace Poised

variable {token : Token} (poised : Poised tokens base cursor)
include poised

theorem course (course : Course outer cursor trees reports next) : Poised tokens (base + Tree.lengthOf trees) next where
  stands := (course.onward poised.stands).1
  reported := course.reported poised.stands poised.reported
  blank := waits_blank.course course poised.blank
  start := aligned.course course base poised.start

theorem past (unplaced : cursor.waiting = []) (left : cursor.rest = token :: rest) (solid : token.isTrivia = false) :
    Poised tokens (base + token.length) (cursor.past token rest) where
  stands := (poised.stands.past left).1
  reported := poised.reported.past
  blank := poised.blank
  start := aligned.past unplaced left solid base poised.start

theorem here (unplaced : cursor.waiting = []) : cursor.offset = base := by
  rw [poised.start, unplaced]
  rfl

end Poised

section Unclosed

variable {opener : Token} (poised : Poised tokens base cursor) (unplaced : cursor.waiting = [])
  (left : cursor.rest = opener :: rest) (body : Course false (cursor.past opener rest) trees reports middle)
  (solid : ∀ token ∈ middle.rest.head?, token.isTrivia = false)
include poised unplaced left body solid

private theorem solidFrom_stop (kind : NodeKind) :
    solidFrom (Placed.mk base (.node kind (.leaf opener :: trees))).stop 0 tokens = middle.offset := by
  have ended := body.solidFrom (poised.stands.past left).1 unplaced solid
  have past : (cursor.past opener rest).offset = base + opener.length := congrArg (· + opener.length) (poised.here unplaced)
  rwa [past, Nat.add_assoc] at ended

/-- The report of a missing closer is dropped if the last report is at the opener: it came before the construct, and
nothing was reported inside. -/
private theorem isMuted_iff_reported (kind : NodeKind) (brackets : Brackets) (awake : middle.exhausted = false) :
    let found := Report.of brackets.unclosed cursor.span
    (Placed.mk base (.node kind (.leaf opener :: trees))).isMuted tokens cursor.reported
      (reports ++ (Reading.report found middle).reports) = true ↔
      middle.reported = some base := by
  intro found
  have here := poised.here unplaced
  obtain ⟨opened, passed⟩ := poised.stands.past left
  have stop := solidFrom_stop poised unplaced left body solid kind
  have spot : found.spot = 2 * base + 1 := by
    rw [Report.spot_plain brackets.unclosed_plain, ← here]
    rfl
  have within (report : Report) (member : report ∈ reports) :
      (Placed.mk base (.node kind (.leaf opener :: trees))).holds tokens report = true ∧ base < report.span.start := by
    have spots := body.spots opened report member
    have begins := report.spot_start
    rw [Placed.holds, stop, Bool.and_eq_true, decide_eq_true_eq, decide_eq_true_eq]
    exact ⟨⟨by simp only; omega, spots.2⟩, by omega⟩
  have apart : (Placed.mk base (.node kind (.leaf opener :: trees))).holds tokens found = false := by
    have early : ¬ 2 * base + 1 < found.spot := by omega
    rw [Placed.holds, decide_eq_false early, Bool.false_and]
  have known := recalls.course body
  rw [Placed.isMuted_append _ fun report member => by
    rw [Reading.mem_report member]
    exact ⟨apart, fun gap => absurd (brackets.unclosed_plain.symm.trans gap) Bool.false_ne_true⟩, Placed.isMuted_iff]
  constructor
  · rintro ⟨before, quiet⟩
    have none : reports = [] := List.eq_nil_iff_forall_not_mem.mpr fun report member =>
      absurd ((quiet report member).symm.trans (within report member).1) Bool.false_ne_true
    subst none
    exact (known.same rfl).trans (before.resolve_right (by simp))
  · intro last
    have none : reports = [] := by
      by_contra some
      obtain ⟨report, member, told⟩ := known.told awake some
      have begins := (within report member).2
      rw [Option.some.inj (last.symm.trans told)] at begins
      exact Nat.lt_irrefl _ begins
    subst none
    exact ⟨.inl ((known.same rfl).symm.trans last), List.forall_mem_nil _⟩

private theorem Closings.unclosed {kind : NodeKind} {brackets : Brackets} (delimited : kind.brackets? = some brackets)
    (opens : opener.kind = brackets.opener) (awake : middle.exhausted = false)
    (inside : Closings tokens (base + opener.length) (⟨base, .node kind (.leaf opener :: trees)⟩ :: above)
      (cursor.past opener rest) trees reports middle) :
    let told := Reading.report (.of brackets.unclosed cursor.span) middle
    Closings tokens base above cursor [.node kind (.leaf opener :: trees)] (reports ++ told.reports) told.next := by
  intro told
  have here := poised.here unplaced
  obtain ⟨opened, passed⟩ := poised.stands.past left
  obtain ⟨further, onward⟩ := body.onward opened
  have span : cursor.span = ⟨base, base + opener.length⟩ := by rw [Cursor.span, left, here]; rfl
  let own : Site := ⟨⟨base, .node kind (.leaf opener :: trees)⟩, above⟩
  have sites : Tree.sitesOf base above [.node kind (.leaf opener :: trees)] =
      own :: Tree.sitesOf base (own.place :: above) (.leaf opener :: trees) := Tree.sitesOf_single _ _ _
  have lacks : own.place.unclosed? = some (.of brackets.unclosed cursor.span) := by
    rw [span]
    exact Placed.unclosed?_open delimited opens fun token member => body.leaf_open poised.blank member
  have muted := isMuted_iff_reported poised unplaced left body solid kind brackets awake
  have low : (Report.of brackets.unclosed cursor.span).spot < 2 * (cursor.past opener rest).offset := by
    have spot : (Report.of brackets.unclosed cursor.span).spot = 2 * cursor.offset + 1 :=
      Report.spot_plain brackets.unclosed_plain
    omega
  have stays : told.next.offset = middle.offset := (further.report _).2
  refine ⟨?_, ?_⟩
  · have rest : (Tree.sitesOf base (own.place :: above) (.leaf opener :: trees)).filterMap
        (Site.told? tokens cursor.reported (reports ++ told.reports)) =
        (Tree.sitesOf (base + opener.length) (own.place :: above) trees).filterMap
          (Site.told? tokens cursor.reported reports) :=
      (List.filterMap_cons_none (Site.told?_none rfl)).trans (inside.told_late low)
    have counted : [Report.of brackets.unclosed cursor.span].filter (fun report => report.kind.isUnclosed) =
        [.of brackets.unclosed cursor.span] :=
      List.filter_cons_of_pos (by cases brackets <;> rfl)
    rw [sites, List.filter_append]
    rcases Reading.report_either (.of brackets.unclosed cursor.span) middle with ⟨repeated, quiet⟩ | ⟨_, fresh, loud⟩
    · have last : middle.reported = some base := by
        rcases repeated with exhausted | same
        · cases awake.symm.trans exhausted
        · rwa [span] at same
      have none : Site.told? tokens cursor.reported (reports ++ told.reports) own = none := by
        rw [Site.told?, if_pos (muted.mpr last)]
      rw [List.filterMap_cons_none none, rest, show told.reports = [] by simp only [told, quiet]]
      rw [List.filter_nil, List.append_nil]
      exact inside.told
    · have some : Site.told? tokens cursor.reported (reports ++ told.reports) own =
          some (.of brackets.unclosed cursor.span) := by
        rw [Site.told?, if_neg fun silent => fresh ((muted.mp silent).trans (by rw [span]; rfl)), lacks]
      rw [List.filterMap_cons_some some, rest,
        show told.reports = [.of brackets.unclosed cursor.span] by simp only [told, loud],
        counted]
      exact (List.perm_append_singleton _ _).trans (inside.told.cons _)
  · rw [sites]
    intro site member unclosed
    rcases List.mem_cons.mp member with rfl | within
    · have stop := solidFrom_stop poised unplaced left body solid kind
      exact ⟨Nat.le_of_eq here, by change base < _; omega, Nat.le_of_eq (stop.trans stays.symm),
        cursor, poised.stands, here, opener, by rw [left]; rfl, by cases brackets <;> rw [opens] <;> rfl⟩
    · rcases List.mem_cons.mp within with rfl | within
      · exact absurd rfl unclosed
      · exact ((inside.reach site within unclosed).onward (Nat.le_of_eq stays.symm)).back (Nat.le_of_lt passed)

end Unclosed

theorem Course.closings (course : Course outer cursor trees reports next) (poised : Poised tokens base cursor)
    (awake : next.exhausted = false) : Closings tokens base above cursor trees reports next := by
  induction course generalizing base above with
  | note | skip => exact .leaves (List.forall_mem_nil _)
  | place cursor =>
    refine .leaves fun tree member => ?_
    obtain ⟨token, _, rfl⟩ := List.mem_map.mp member
    exact ⟨token, rfl⟩
  | chain first second here there =>
    have further := poised.course first
    have onward := (second.onward further.stands).2
    have behind := fun report member => (second.spots further.stands report member).1
    exact .append first poised.stands poised.reported onward behind (here poised ((recalls.course second).awake awake))
      (there further awake)
  | word => exact .leaves fun _ member => ⟨_, List.mem_singleton.mp member⟩
  | @gap _ cursor token rest kind unplaced left plain missing =>
    refine .plain (fun site member => ?_) fun report member => ?_
    · obtain rfl := List.mem_singleton.mp member
      rfl
    · rw [Reading.mem_report member]
      change kind.isUnclosed = false
      cases kind <;> first | rfl | cases missing
  | node _ ordinary _ inside =>
    exact .node (Placed.unclosed?_plain (NodeKind.ordinary_plain ordinary)) (inside poised awake)
  | @marked _ cursor next kind token rest _ unplaced left plain ordinary body found about begins inside =>
    have passed := poised.past unplaced left (TokenKind.isWord_solid plain)
    have onward := (poised.stands.past left).2
    have other : found.kind.isUnclosed = false ∧ found.kind.isGap = false := by
      rcases about with same | same <;> rw [same] <;> exact ⟨rfl, rfl⟩
    have low : found.spot < 2 * (cursor.past token rest).offset := by
      rw [Report.spot_plain other.2]
      omega
    rw [Reading.report_awake] at awake
    exact .node (Placed.unclosed?_plain (NodeKind.ordinary_plain ordinary))
      (.after (Nat.le_of_lt onward) ((inside passed awake).reporting (body.onward passed.stands).1 low other.1))
  | @skipped _ cursor token rest unplaced left solid _ found about span =>
    refine .plain (fun site member => ?_) fun report member => ?_
    · rcases List.mem_cons.mp member with rfl | inside
      · exact Placed.unclosed?_plain rfl
      · obtain rfl := List.mem_singleton.mp inside
        rfl
    · rw [Reading.mem_report member]
      rcases about with same | same <;> rw [same] <;> rfl
  | @closed _ _ middle _ kind brackets opener closer _ _ trees more _ others unplaced left delimited opens body placed ahead
      closes last inside suffix =>
    have first := brackets.opener_solid
    have second := brackets.closer_solid
    rw [← opens] at first
    rw [← closes] at second
    have opened := poised.past unplaced left first
    have finished := opened.course body
    have closed := finished.past placed ahead second
    have onward := (last.onward closed.stands).2
    have passed := (finished.stands.past ahead).2
    have behind : ∀ report ∈ others, 2 * middle.offset < report.spot := by
      intro report member
      have spots := (last.spots closed.stands report member).1
      omega
    let own : Placed := ⟨base, .node kind (.leaf opener :: (trees ++ .leaf closer :: more))⟩
    have later := Closings.after (Nat.le_of_lt passed) (@suffix _ (own :: above) closed awake)
    have whole := Closings.append body opened.stands opened.reported (Nat.le_trans (Nat.le_of_lt passed) onward) behind
      (inside opened ((recalls.course last).awake awake)) later
    exact .node (Placed.unclosed?_closed delimited closes (by simp)) (.after (Nat.le_of_lt (poised.stands.past left).2) whole)
  | @unclosed _ _ middle kind brackets _ _ _ _ unplaced left delimited opens body _ other found about inside =>
    have first := brackets.opener_solid
    rw [← opens] at first
    have solid : ∀ token ∈ middle.rest.head?, token.isTrivia = false := by
      intro token ahead
      have closer := (other token ahead).1
      rw [Token.isTrivia]
      cases kind : token.kind <;> first | rfl | (rw [kind] at closer; cases closer)
    rw [Reading.report_awake] at awake
    subst about
    exact .unclosed poised unplaced left body solid delimited opens awake (inside (poised.past unplaced left first) awake)
  | @givenUp _ cursor unplaced _ _ _ found deep begins =>
    have spent := (recalls.repeatWhile recalls.swallow { cursor with exhausted := true }).awake awake
    cases spent

end Courses

section Parsed

variable {limit : Nat} {source : String}

/-- Keeping only some items costs no part if and only if those with a part are kept. -/
private theorem length_filterMap_filter {α β : Type} (part : α → Option β) (keep : α → Bool) (items : List α) :
    ((items.filter keep).filterMap part).length = (items.filterMap part).length ↔
      ∀ item ∈ items, part item ≠ none → keep item = true := by
  rw [List.length_filterMap_eq_countP, List.length_filterMap_eq_countP, List.countP_eq_length_filter,
    List.countP_eq_length_filter, List.filter_comm, List.length_filter_eq_length_iff]
  simp only [List.mem_filter, Option.isSome_iff_ne_none, and_imp]

theorem parse_poised (source : String) : Poised (Token.ofText source) 0 (.start (Token.ofText source)) :=
  ⟨⟨fun _ member => Token.length_pos (Token.ofText_filled member), [], rfl, rfl⟩, nofun, nofun, rfl⟩

/-- Where nesting is not too deep the whole text is read by one course. -/
theorem parse_shallow (shallow : ∀ report ∈ (parse limit source).reports, report.kind ≠ .nestingTooDeep) :
    ∃ next, next.exhausted = false ∧
    Course true (.start (Token.ofText source)) [(parse limit source).tree] (parse limit source).reports next := by
  obtain ⟨next, _, _, course⟩ := parse_course limit source
  refine ⟨next, Bool.eq_false_iff.mpr fun deep => ?_, course⟩
  rcases deepens.course course deep with before | ⟨report, member, is⟩
  · cases before
  · exact shallow report member is

/-- Of the constructs that lack their closers all but the muted ones are reported, each once and at its opener; so that
all of them are if and only if none of them is muted. -/
theorem unclosed_reports (shallow : ∀ report ∈ (parse limit source).reports, report.kind ≠ .nestingTooDeep) :
    let reports := (parse limit source).reports
    let sites := (parse limit source).tree.nodeSites
    let muted (site : Site) : Bool := site.place.isMuted (Token.ofText source) none reports
    (reports.filter (·.kind.isUnclosed)).Perm ((sites.filter (!muted ·)).filterMap (·.place.unclosed?)) ∧
      ((reports.filter (·.kind.isUnclosed)).Perm (sites.filterMap (·.place.unclosed?)) ↔
        ∀ site ∈ sites, site.place.unclosed? ≠ none → muted site = false) := by
  intro reports sites muted
  obtain ⟨next, awake, course⟩ := parse_shallow shallow
  obtain ⟨told, _⟩ : Closings _ 0 [] _ _ _ _ := course.closings (parse_poised source) awake
  have chosen : (sites.filter (!muted ·)).filterMap (·.place.unclosed?) =
      (Tree.sitesOf 0 [] [(parse limit source).tree]).filterMap (Site.told? (Token.ofText source) none reports) := by
    have nodes : sites = ((parse limit source).tree.sites 0 []).filter (!·.isToken) := rfl
    rw [Tree.sitesOf_single, List.filterMap_filter, nodes, List.filterMap_filter]
    refine List.filterMap_congr fun site _ => ?_
    cases token : site.isToken with
    | true =>
      rw [Site.told?_none (Placed.unclosed?_token token)]
      rfl
    | false =>
      change (if (!muted site) = true then site.place.unclosed? else none) =
        if muted site = true then none else site.place.unclosed?
      cases muted site <;> rfl
  have counted := chosen ▸ told
  refine ⟨counted, fun all => ?_, fun none => ?_⟩
  · have same := (length_filterMap_filter _ _ _).mp (counted.symm.trans all).length_eq
    exact fun site member unclosed => (Bool.not_eq_true' _).mp (same site member unclosed)
  · have same : (sites.filter (!muted ·)).filterMap (·.place.unclosed?) = sites.filterMap (·.place.unclosed?) := by
      rw [List.filterMap_filter]
      refine List.filterMap_congr fun site member => ?_
      by_cases closed : site.place.unclosed? = Option.none
      · rw [closed, ite_self]
      · rw [none site member closed]
        rfl
    exact same ▸ counted

end Parsed

/-- In `(a [b` both constructs lack their closers, nothing is muted, and so both are reported. -/
theorem both_unclosed : (∀ report ∈ (parse Parser.defaultLimit "(a [b").reports, report.kind ≠ .nestingTooDeep) ∧
    ((parse Parser.defaultLimit "(a [b").reports.filter (·.kind.isUnclosed)).Perm
      [.of .unclosedNode ⟨0, 1⟩, .of .unclosedList ⟨3, 4⟩] := by
  have shallow : ∀ report ∈ (parse Parser.defaultLimit "(a [b").reports, report.kind ≠ .nestingTooDeep := by decide +kernel
  have lacking : (parse Parser.defaultLimit "(a [b").tree.nodeSites.filterMap (·.place.unclosed?) =
      [.of .unclosedNode ⟨0, 1⟩, .of .unclosedList ⟨3, 4⟩] := by decide +kernel
  have told := (unclosed_reports shallow).2.mpr (by decide +kernel)
  exact ⟨shallow, lacking ▸ told⟩

/-- In `[!(a]` the name that the `!` lacks is reported at the opener of the node, which is why its closer is not. -/
theorem missing_name_mutes : (∀ report ∈ (parse Parser.defaultLimit "[!(a]").reports, report.kind ≠ .nestingTooDeep) ∧
    (parse Parser.defaultLimit "[!(a]").reports.filter (·.kind.isUnclosed) = [] ∧
    (parse Parser.defaultLimit "[!(a]").tree.nodeSites.filterMap (·.place.unclosed?) = [.of .unclosedNode ⟨2, 3⟩] := by
  decide +kernel

end Syntax

end TreeQuery
