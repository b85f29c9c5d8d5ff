import TreeQuery.Proofs.CaptureTokens
import TreeQuery.Proofs.CourseReports
import TreeQuery.Proofs.StringLiterals
import TreeQuery.Proofs.TokenNeighbours

/-! Strings against the literals of a text. Opening and closing quotes are tokens of one kind, and a string is read by
what stands next to its opening quote alone; still the strings of the tree are the literals of the text in the same
order, each with the tokens of its literal, unless nesting went too deep. -/

namespace TreeQuery.Syntax
open Diagnostic (Report)
open Token (Literal Lexes splitString quoteMark contentTokens isClosed)
open TreeQuery.Syntax.Tree (ConfinedAll confinedAll_append sitesOf sitesOf_append tokensOf lengthOf lengthOf_append
  lengthOf_tokens leavesOf)

/-- The node of just the tokens of a literal. -/
def Token.Literal.place (literal : Literal) : Placed :=
  ⟨literal.start, .node .string ((splitString literal.body).map .leaf)⟩

/-- The kinds of tokens that string literals are split in. -/
def Kind.Quoted (kind : Kind) : Prop := kind = .token .doubleQuote ∨ kind = .token .stringContent

/-- An error of all that was left where nesting went too deep, as is reported there. -/
def GivenUp (reports : List Report) (place : Placed) : Prop :=
  place.isNode .error = true ∧ ∃ report ∈ reports, report.kind = .nestingTooDeep ∧ report.span.start = place.start

/-- Where the strings among some trees are, with what is in them. -/
def stringsOf (start : Nat) (above : List Placed) (trees : List Tree) : List Placed :=
  ((sitesOf start above trees).filter (·.place.isNode .string)).map Site.place

section Literals

variable {start : Nat} {quote : Token} {tokens rest : List Token} {literals : List Literal}

private theorem firstOf_other {kind : TokenKind} (other : rest.head?.map Token.kind ≠ some kind) : firstOf kind rest = [] := by
  rcases firstOf_either kind rest with ⟨token, later, rfl, same, _⟩ | ⟨_, none⟩
  · exact absurd (congrArg some same) other
  · exact none

private theorem insideString_content (content : List Char) (other : rest.head?.map Token.kind ≠ some .stringContent) :
    insideString (contentTokens content ++ rest) = contentTokens content ++ firstOf .doubleQuote rest := by
  unfold contentTokens
  split
  · rw [List.nil_append, List.nil_append, insideString, firstOf_other other]
    rfl
  · rfl

private theorem Token.Lexes.outside (lexes : Lexes start tokens literals) :
    tokens.head?.map Token.kind ≠ some .stringContent := by
  cases lexes with
  | ended => exact nofun
  | plain _ outside _ => exact fun same => outside (Option.some.inj same)
  | string => exact fun same => by cases Option.some.inj same

/-- What is read as a string where a literal stands is just that literal. -/
private theorem Token.Lexes.quoted (lexes : Lexes start (quote :: rest) literals) (mark : quote.kind = .doubleQuote) :
    ∃ body later, quote :: insideString rest = splitString body ∧ literals = ⟨start, body⟩ :: later ∧
      Lexes (start + Text.total Token.length (splitString body)) (rest.drop (insideString rest).length) later := by
  generalize whole : quote :: rest = tokens at lexes
  cases lexes with
  | ended => cases whole
  | plain unquoted =>
    obtain ⟨rfl, _⟩ := List.cons.inj whole
    exact absurd mark unquoted
  | @string _ body tokens later known apart further =>
    obtain ⟨rfl, rfl⟩ := List.cons.inj whole
    have inside : quoteMark :: insideString ((splitString body).tail ++ tokens) = splitString body := by
      rw [splitString, List.tail_cons]
      split
      next closed =>
        rw [List.append_assoc, insideString_content _ (fun same => by cases Option.some.inj same)]
        rfl
      next unclosed =>
        rw [insideString_content _ further.outside, firstOf_other (apart (Bool.eq_false_iff.mpr unclosed)), List.append_nil]
    refine ⟨body, later, inside, rfl, ?_⟩
    have taken := congrArg List.tail inside
    rw [List.tail_cons] at taken
    change Lexes _ (((splitString body).tail ++ tokens).drop (insideString ((splitString body).tail ++ tokens)).length) later
    rwa [taken, List.drop_left]

end Literals

/-- The literals of what was read, the strings among its trees, and the literals lost where nesting went too deep. -/
structure Pairs (base : Nat) (above : List Placed) (trees : List Tree) (reports : List Report)
    (literals after paired lost : List Literal) : Prop where
  split : literals = paired ++ (lost ++ after)
  strings : stringsOf base above trees = paired.map Literal.place
  held : ∀ literal ∈ lost, ∃ site ∈ sitesOf base above trees, GivenUp reports site.place ∧
    site.place.start ≤ literal.start ∧ literal.stop ≤ site.place.stop
  ends : lost ≠ [] → after = []
  inside : ∀ site ∈ tokensOf base above trees, site.place.kind.Quoted →
    ∃ holder ∈ site.above, holder.isNode .string = true ∨ GivenUp reports holder

section Pairs

variable {base : Nat} {above : List Placed} {trees later : List Tree} {reports more : List Report}
  {literals middle after paired lost others gone : List Literal}

private theorem GivenUp.among {place : Placed} (given : GivenUp reports place) (within : reports ⊆ more) :
    GivenUp more place := by
  obtain ⟨error, report, member, deep⟩ := given
  exact ⟨error, report, within member, deep⟩

private theorem stringsOf_append (base : Nat) (above : List Placed) (trees later : List Tree) :
    stringsOf base above (trees ++ later) = stringsOf base above trees ++ stringsOf (base + lengthOf trees) above later := by
  rw [stringsOf, sitesOf_append, List.filter_append, List.map_append]
  rfl

private theorem stringsOf_tokens (base : Nat) (above : List Placed) (tokens : List Token) :
    stringsOf base above (tokens.map .leaf) = [] := by
  induction tokens generalizing base with
  | nil => rfl
  | cons token rest ih => exact ih _

private theorem tokensOf_single (base : Nat) (above : List Placed) (kind : NodeKind) (children : List Tree) :
    tokensOf base above [.node kind children] = tokensOf base (⟨base, .node kind children⟩ :: above) children := by
  rw [Tree.tokensOf_node]
  exact List.append_nil _

private theorem stringsOf_node {kind : NodeKind} (other : kind ≠ .string) (base : Nat) (above : List Placed)
    (children : List Tree) :
    stringsOf base above [.node kind children] = stringsOf base (⟨base, .node kind children⟩ :: above) children := by
  simp [stringsOf, Tree.sitesOf, Tree.sites, Placed.isNode, Placed.kind, Tree.kind, other]

namespace Pairs

private theorem append (first : Pairs base above trees reports literals middle paired lost)
    (second : Pairs (base + lengthOf trees) above later more middle after others gone) :
    Pairs base above (trees ++ later) (reports ++ more) literals after (paired ++ others) (lost ++ gone) := by
  have earlier : reports ⊆ reports ++ more := List.subset_append_left ..
  have further : more ⊆ reports ++ more := List.subset_append_right ..
  -- Once literals are lost none are left.
  have none : lost ≠ [] → others = [] ∧ gone = [] ∧ after = [] := fun some => by
    have split := second.split
    rw [first.ends some, eq_comm, List.append_eq_nil_iff, List.append_eq_nil_iff] at split
    exact split
  constructor
  · rw [first.split, second.split]
    by_cases some : lost = []
    · simp [some]
    · obtain ⟨rfl, rfl, rfl⟩ := none some
      simp
  · rw [stringsOf_append, first.strings, second.strings, List.map_append]
  · rw [sitesOf_append]
    intro literal member
    rcases List.mem_append.mp member with before | behind
    · obtain ⟨site, among, given, within⟩ := first.held literal before
      exact ⟨site, List.mem_append_left _ among, given.among earlier, within⟩
    · obtain ⟨site, among, given, within⟩ := second.held literal behind
      exact ⟨site, List.mem_append_right _ among, given.among further, within⟩
  · intro some
    by_cases before : lost = []
    · exact second.ends fun behind => some (by rw [before, behind, List.append_nil])
    · exact (none before).2.2
  · rw [Tree.tokensOf_append]
    intro site member quoted
    rcases List.mem_append.mp member with before | behind
    · obtain ⟨holder, among, holds⟩ := first.inside site before quoted
      exact ⟨holder, among, holds.imp_right (·.among earlier)⟩
    · obtain ⟨holder, among, holds⟩ := second.inside site behind quoted
      exact ⟨holder, among, holds.imp_right (·.among further)⟩

/-- Trees without quotes have no literals. -/
private theorem plain (leaves : ∀ token ∈ leavesOf trees, ¬ (Tree.leaf token).kind.Quoted)
    (stringless : stringsOf base above trees = []) : Pairs base above trees reports literals literals [] [] := by
  refine ⟨rfl, stringless, List.forall_mem_nil _, fun some => absurd rfl some, fun site member quoted => ?_⟩
  have among : site.place.tree ∈ (leavesOf trees).map Tree.leaf := by
    rw [← Tree.tokensOf_trees base above]
    exact List.mem_map_of_mem member
  obtain ⟨token, inside, same⟩ := List.mem_map.mp among
  rw [Placed.kind, ← same] at quoted
  exact absurd quoted (leaves token inside)

private theorem node {kind : NodeKind} (other : kind ≠ .string)
    (pairs : Pairs base (⟨base, .node kind trees⟩ :: above) trees reports literals after paired lost) :
    Pairs base above [.node kind trees] reports literals after paired lost := by
  refine ⟨pairs.split, ?_, ?_, pairs.ends, ?_⟩
  · rw [stringsOf_node other, pairs.strings]
  · intro literal member
    obtain ⟨site, among, holds⟩ := pairs.held literal member
    exact ⟨site, Tree.sitesOf_single .. ▸ List.mem_cons_of_mem _ among, holds⟩
  · rw [tokensOf_single]
    exact pairs.inside

/-- Literals among all that was left. -/
private theorem givenUp {tokens : List Token} {report : Report} (above : List Placed) (deep : report.kind = .nestingTooDeep)
    (start : report.span.start = base) (within : ∀ literal ∈ literals, base ≤ literal.start ∧
      literal.stop ≤ base + Text.total Token.length tokens) :
    Pairs base above [.node .error (tokens.map .leaf)] [report] literals [] [] literals := by
  have given : GivenUp [report] ⟨base, .node .error (tokens.map .leaf)⟩ :=
    ⟨rfl, report, List.mem_singleton_self report, deep, start⟩
  refine ⟨(List.append_nil _).symm, ?_, fun literal member => ?_, fun _ => rfl, fun site member quoted => ?_⟩
  · rw [stringsOf_node (by decide), stringsOf_tokens]
    rfl
  · obtain ⟨begins, ends⟩ := within literal member
    refine ⟨_, List.mem_cons_self, given, begins, Nat.le_trans ends ?_⟩
    rw [Placed.stop, Tree.length, lengthOf_tokens]
  · rw [tokensOf_single] at member
    exact ⟨_, by rw [Tree.tokensOf_leaves member]; exact List.mem_cons_self, .inr given⟩

/-- A literal that is read as a string. -/
private theorem string (above : List Placed) (literal : Literal) :
    Pairs literal.start above [literal.place.tree] reports (literal :: after) after [literal] [] := by
  refine ⟨rfl, ?_, List.forall_mem_nil _, fun some => absurd rfl some, fun site member quoted => ?_⟩
  · have inside := stringsOf_tokens literal.start (literal.place :: above) (splitString literal.body)
    rw [stringsOf, Tree.sitesOf_single, Literal.place, Tree.sites, List.filter_cons_of_pos rfl, List.map_cons]
    exact congrArg (literal.place :: ·) inside
  · rw [Literal.place, tokensOf_single] at member
    exact ⟨literal.place, by rw [Tree.tokensOf_leaves member]; exact List.mem_cons_self, .inl rfl⟩

end Pairs

end Pairs

/-- What is read has just the strings of its literals. -/
def ReadsLiterals (cursor : Cursor) (trees : List Tree) (reports : List Report) (next : Cursor) : Prop :=
  ∀ base literals, Lexes base (cursor.waiting ++ cursor.rest) literals →
    cursor.offset = base + Text.total Token.length cursor.waiting → ConfinedAll .doubleQuote .string trees →
    ∃ after, Lexes (base + lengthOf trees) (next.waiting ++ next.rest) after ∧
      next.offset = base + lengthOf trees + Text.total Token.length next.waiting ∧
        ∀ above, ∃ paired lost, Pairs base above trees reports literals after paired lost

/-- What is swallowed is all that was left, but for blanks. -/
private theorem swallow_tokens {cursor : Cursor} (unplaced : cursor.waiting = []) :
    let swallowed := Reading.repeatWhile Parser.swallow cursor
    ∃ tokens, swallowed.trees = tokens.map .leaf ∧ cursor.rest = tokens ++ (swallowed.next.waiting ++ swallowed.next.rest) ∧
      (∀ token ∈ swallowed.next.waiting ++ swallowed.next.rest, token.isTrivia = true) ∧
      swallowed.next.offset = cursor.offset + Text.total Token.length tokens + Text.total Token.length swallowed.next.waiting := by
  have blank : ∀ token ∈ cursor.waiting, token.isTrivia = true := unplaced ▸ List.forall_mem_nil _
  obtain ⟨tokens, leaves, _⟩ := Parser.swallow_row blank
  obtain ⟨ended, waits⟩ := Parser.swallow_finishes blank
  have kept := keeps.repeatWhile keeps.swallow cursor
  have moved := aligned.repeatWhile aligned.swallow cursor cursor.offset (by rw [unplaced]; rfl)
  rw [Keeps, unplaced, leaves, Tree.leavesOf_tokens] at kept
  rw [leaves, lengthOf_tokens] at moved
  exact ⟨tokens, leaves, kept, List.forall_mem_append.mpr ⟨waits, by simpa [solidKinds] using ended⟩, moved⟩

namespace ReadsLiterals

variable {cursor next : Cursor} {trees : List Tree} {reports : List Report}

private theorem nothing (kept : next.waiting ++ next.rest = cursor.waiting ++ cursor.rest)
    (moved : ∀ base, cursor.offset = base + Text.total Token.length cursor.waiting →
      next.offset = base + Text.total Token.length next.waiting) : ReadsLiterals cursor [] reports next := by
  intro base literals lexes start _
  exact ⟨literals, kept.symm ▸ lexes, moved base start, fun above => ⟨[], [], .plain (List.forall_mem_nil _) rfl⟩⟩

/-- Trees of tokens that are of no literal. -/
private theorem plain (tokens : List Token) (leaves : leavesOf trees = tokens)
    (ahead : cursor.waiting ++ cursor.rest = tokens ++ next.rest)
    (placed : next.waiting = []) (moved : ∀ base, cursor.offset = base + Text.total Token.length cursor.waiting →
      next.offset = base + Text.total Token.length tokens)
    (unquoted : ConfinedAll .doubleQuote .string trees → ∀ token ∈ tokens, token.kind ≠ .doubleQuote)
    (stringless : ∀ base above, stringsOf base above trees = []) : ReadsLiterals cursor trees [] next := by
  intro base literals lexes start confined
  have unquoted := unquoted confined
  rw [ahead] at lexes
  obtain ⟨outside, further⟩ := lexes.past unquoted
  rw [Tree.lengthOf_eq_total_leavesOf, leaves, placed]
  have plain : ∀ token ∈ leavesOf trees, ¬ (Tree.leaf token).kind.Quoted := fun token member => by
    rw [leaves] at member
    simp [Kind.Quoted, Tree.kind, unquoted token member, outside token member]
  exact ⟨literals, further, moved base start, fun above => ⟨[], [], .plain plain (stringless base above)⟩⟩

private theorem single {token : Token} {rest : List Token} (unplaced : cursor.waiting = []) (left : cursor.rest = token :: rest)
    (leaves : leavesOf trees = [token])
    (unquoted : ConfinedAll .doubleQuote .string trees → token.kind ≠ .doubleQuote)
    (stringless : ∀ base above, stringsOf base above trees = []) :
    ReadsLiterals cursor trees [] { cursor with offset := cursor.offset + token.length, rest } := by
  refine .plain [token] leaves (by rw [unplaced, left]; rfl) unplaced (fun base start => ?_)
    (fun confined => List.forall_mem_singleton.mpr (unquoted confined)) stringless
  rw [start, unplaced]
  rfl

end ReadsLiterals

private theorem readsLiterals : WholeLaw ReadsLiterals where
  stay cursor := .nothing rfl fun _ start => start
  chain {_ _ _ trees later reports more} first second := by
    intro base literals lexes start confined
    rw [confinedAll_append] at confined
    obtain ⟨middle, lexes, start, before⟩ := first base literals lexes start confined.1
    obtain ⟨after, lexes, start, behind⟩ := second _ middle lexes start confined.2
    rw [lengthOf_append, ← Nat.add_assoc]
    refine ⟨after, lexes, start, fun above => ?_⟩
    obtain ⟨paired, lost, front⟩ := before above
    obtain ⟨others, gone, back⟩ := behind above
    exact ⟨_, _, front.append back⟩
  note cursor looks fault := .nothing rfl fun _ start => start
  skip cursor := .nothing (keeps.skip cursor).symm fun base start => aligned.skip cursor base start
  place cursor := by
    refine .plain cursor.waiting (Tree.leavesOf_tokens _) rfl rfl (fun _ start => start) (fun confined token member => ?_)
      fun base above => stringsOf_tokens ..
    exact Tree.confinedAll_iff.mp confined (.leaf token) (List.mem_map_of_mem member)
  token cursor token rest unplaced left := .single unplaced left rfl (fun confined => confined.1) fun _ _ => rfl
  around cursor kind trees reports next _ other sound unplaced inside := by
    intro base literals lexes start confined
    have confined := (confined.1.resolve_left other).resolve_left sound
    obtain ⟨after, lexes, start, pairs⟩ := inside base literals lexes start confined
    refine ⟨after, lexes, start, fun above => ?_⟩
    obtain ⟨paired, lost, pairs⟩ := pairs (⟨base, .node kind trees⟩ :: above)
    exact ⟨paired, lost, pairs.node other⟩
  stray cursor token rest unplaced left _ unquoted := .single unplaced left rfl (fun _ => unquoted) fun _ _ => rfl
  named cursor sign name rest unplaced left sigil identifier := by
    refine .plain [sign, name] rfl (by rw [unplaced, left]; rfl) unplaced (fun base start => ?_)
      (fun _ => by simp [sigil, identifier]) fun base above => rfl
    change cursor.offset + sign.length + name.length = _
    rw [start, unplaced]
    simp [Nat.add_assoc]
  nameless cursor sign rest unplaced left sigil _ :=
    .single unplaced left rfl (fun _ => by simp [sigil]) fun _ _ => rfl
  quoted cursor quote rest unplaced left mark := by
    intro base literals lexes start _
    rw [unplaced, left] at lexes
    obtain ⟨body, later, tokens, rfl, further⟩ := lexes.quoted mark
    have length : lengthOf [.node .string ((splitString body).map .leaf)] = Text.total Token.length (splitString body) :=
      lengthOf_tokens _
    have behind : (cursor.beyond (quote :: insideString rest)).rest = rest.drop (insideString rest).length := by
      rw [Cursor.beyond, left]
      rfl
    refine ⟨later, ?_, ?_, fun above => ⟨[⟨base, body⟩], [], ?_⟩⟩
    · rw [behind, tokens, length]
      change Lexes _ (cursor.waiting ++ _) later
      rwa [unplaced]
    · rw [tokens, length]
      change cursor.offset + _ = _ + Text.total Token.length cursor.waiting
      rw [start, unplaced]
      rfl
    · rw [tokens]
      exact .string above ⟨base, body⟩
  found cursor report := .nothing rfl fun _ start => start
  last cursor report unplaced deep begins := by
    intro base literals lexes start _
    have here : cursor.offset = base := by rw [start, unplaced]; rfl
    have begun : ({ cursor with exhausted := true } : Cursor).waiting = [] := unplaced
    obtain ⟨tokens, leaves, ahead, blank, moved⟩ := swallow_tokens begun
    rw [unplaced, List.nil_append, show cursor.rest = _ from ahead] at lexes
    obtain ⟨further, within⟩ := lexes.upTo blank
    rw [← lengthOf_tokens] at further moved
    rw [leaves]
    exact ⟨[], further, here ▸ moved, fun above => ⟨[], literals, .givenUp above deep (begins.trans here) within⟩⟩

private theorem contentTokens_quotes (content : List Char) : (contentTokens content).countP (·.kind = .doubleQuote) = 0 := by
  unfold contentTokens
  split <;> rfl

private theorem splitString_quotes (body : List Char) :
    (splitString body).countP (·.kind = .doubleQuote) = if isClosed body then 2 else 1 := by
  have content := contentTokens_quotes
  rw [splitString, List.countP_cons_of_pos rfl]
  split <;> simp [content, quoteMark]

private theorem Token.Literal.isTerminated (literal : Literal) : literal.place.isTerminated = isClosed literal.body := by
  have quotes : literal.place.children.countP (·.kind = .token .doubleQuote) = if isClosed literal.body then 2 else 1 := by
    have kinds := Placed.line_kinds literal.start ((splitString literal.body).map .leaf)
    have counted := congrArg (List.countP (· = Kind.token .doubleQuote)) kinds
    rw [List.countP_map, List.countP_map, List.countP_map] at counted
    rw [← splitString_quotes]
    exact counted.trans (List.countP_congr fun token _ => by simp [Tree.kind])
  rw [Placed.isTerminated, quotes]
  split <;> simp_all

section Parsed

variable (limit : Nat) (source : String)

theorem stringsOf_tree (tree : Tree) :
    (tree.nodeSites.filter (·.place.isNode .string)).map Site.place = stringsOf 0 [] [tree] := by
  rw [stringsOf, Tree.sitesOf_single, Tree.nodeSites, List.filter_filter]
  congr 1
  refine List.filter_congr fun site _ => ?_
  cases string : site.place.isNode .string with
  | false => rfl
  | true =>
    have node : site.isToken = false := by simp [Site.isToken, of_decide_eq_true string]
    simp [node]

theorem parse_literals : ∃ paired lost, Pairs 0 [] [(parse limit source).tree] (parse limit source).reports
    (Token.literals source) [] paired lost := by
  let start := Cursor.start (Token.ofText source)
  have root : .token .doubleQuote ∉ row [(parse limit source).tree] := by
    change _ ∉ [Kind.node .program]
    decide
  have confined : ConfinedAll .doubleQuote .string [(parse limit source).tree] :=
    (parse_formed limit source).confined rfl root
  obtain ⟨_, ended, placed⟩ := Parser.program_ends limit (Token.ofText source)
  obtain ⟨after, lexes, _, pairs⟩ :=
    readsLiterals.program limit start 0 (Token.literals source) (Token.lexes_ofText source) rfl confined
  rw [ended, placed] at lexes
  obtain rfl := lexes.blank (List.forall_mem_nil _)
  exact pairs []

/-- The strings of a text are its literals one for one, up to where nesting went too deep. -/
theorem parse_strings :
    ∃ paired lost, Token.literals source = paired ++ lost ∧
      ((parse limit source).tree.nodeSites.filter (·.place.isNode .string)).map Site.place = paired.map Literal.place ∧
      (∀ literal ∈ paired, literal.place.isTerminated = true ↔ literal.Closed) ∧
      (∀ literal ∈ lost, ∃ site ∈ (parse limit source).tree.nodeSites, GivenUp (parse limit source).reports site.place ∧
        site.place.start ≤ literal.start ∧ literal.stop ≤ site.place.stop) ∧
      ∀ site ∈ (parse limit source).tree.tokenSites, site.place.kind.Quoted →
        ∃ holder ∈ site.above, holder.isNode .string = true ∨ GivenUp (parse limit source).reports holder := by
  obtain ⟨paired, lost, pairs⟩ := parse_literals limit source
  have closed := (Token.lexes_ofText source).closed
  have split := pairs.split
  rw [List.append_nil] at split
  rw [split] at closed
  have tokens : (parse limit source).tree.tokenSites = tokensOf 0 [] [(parse limit source).tree] := by
    rw [tokensOf, Tree.sitesOf_single]
    rfl
  refine ⟨paired, lost, split, (stringsOf_tree _).trans pairs.strings, fun literal member => ?_, fun literal member => ?_,
    tokens ▸ pairs.inside⟩
  · rw [literal.isTerminated]
    exact closed literal (List.mem_append_left _ member)
  · obtain ⟨site, among, given, within⟩ := pairs.held literal member
    rw [Tree.sitesOf_single] at among
    have node : site.isToken = false := by simp [Site.isToken, of_decide_eq_true given.1]
    exact ⟨site, List.mem_filter.mpr ⟨among, by rw [node]; rfl⟩, given, within⟩

end Parsed

end TreeQuery.Syntax
