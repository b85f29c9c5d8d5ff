import TreeQuery.Proofs.DeclaredShapes
import TreeQuery.Proofs.QueryContinuation
import TreeQuery.Proofs.TokenSeams

/-! Queries put one after the other. Read without reports, two texts with a line break between them
are read as each of them alone. -/

namespace TreeQuery.Syntax
open Reading TreeQuery.Syntax.Parser

variable {limit : Nat} {source other : String} {here there cursor : Cursor} {spare : List Token}

/-- All that is placed at the top level from here on, the trivia at the end included. -/
def queryFrom (limit : Nat) (cursor : Cursor) : List Tree :=
  let read := repeatWhile (nextTopLevel limit) cursor
  read.trees ++ read.next.skip.waiting.map .leaf

private theorem parse_query (limit : Nat) (source : String) :
    (parse limit source).tree = .node .program (queryFrom limit (.start (Token.ofText source))) := rfl

/-- Trivia ahead is skipped first. -/
private theorem queries_skip (limit : Nat) (awake : cursor.exhausted = false)
    (blank : ∀ token ∈ cursor.waiting, token.isTrivia = true) :
    repeatWhile (nextTopLevel limit) cursor.skip = repeatWhile (nextTopLevel limit) cursor := by
  have once : nextTopLevel limit cursor.skip = nextTopLevel limit cursor := by
    have moved (cursor : Cursor) : nextTopLevel limit cursor =
      (if cursor.skip.rest.isEmpty = true then Pure.pure false
        else do
          topLevel limit (← current)
          Pure.pure true : Reading Bool) cursor.skip := rfl
    rw [moved cursor.skip, moved cursor, Cursor.skip_skip]
  by_cases ahead : Ahead cursor
  · have skipped := (queries_step limit ahead.skip awake (Cursor.skip_blank blank)).2
    have whole := (queries_step limit ahead awake blank).2
    let done (part : Stretch) : Step Unit := ⟨(), part.trees, part.reports, part.after⟩
    calc repeatWhile (nextTopLevel limit) cursor.skip
      _ = done ((repeatWhile (nextTopLevel limit)).stretch cursor.skip) := rfl
      _ = done ((repeatWhile (nextTopLevel limit)).stretch cursor) := by
        rw [skipped, whole, stretch, stretch, once]
        rfl
  · rw [queries_ended ahead, queries_ended fun still => ahead (by rwa [Ahead, Cursor.skip_twice] at still), Cursor.skip_skip]

private theorem queryFrom_split {part : Stretch}
    (split : (repeatWhile (nextTopLevel limit)).stretch here = part.extend ((repeatWhile (nextTopLevel limit)).stretch part.after)) :
    queryFrom limit here = part.trees ++ queryFrom limit part.after := by
  have trees : (repeatWhile (nextTopLevel limit) here).trees =
      part.trees ++ (repeatWhile (nextTopLevel limit) part.after).trees := congrArg Stretch.trees split
  have next : (repeatWhile (nextTopLevel limit) here).next = (repeatWhile (nextTopLevel limit) part.after).next :=
    congrArg Stretch.after split
  rw [queryFrom, trees, next, List.append_assoc]
  rfl

/-- All trivia that is left is placed. -/
private theorem queryFrom_ended (ended : ¬ Ahead cursor) :
    queryFrom limit cursor = (cursor.waiting ++ cursor.rest).map .leaf := by
  have finished : cursor.skip.rest = [] := not_not.mp ended
  rw [queryFrom, queries_ended ended, ← Cursor.skip_upcoming, finished, List.append_nil]
  exact congrArg (fun cursor : Cursor => cursor.waiting.map Tree.leaf) cursor.skip_skip

section Resumed

open Continued

/-- A run that reports nothing is repeated from a place where only more trivia waits. -/
private theorem queries_resume (limit : Nat) (abreast : Abreast [] spare here there)
    (quiet : (repeatWhile (nextTopLevel limit) here).reports = []) :
    (repeatWhile (nextTopLevel limit) there).reports = [] ∧
      queryFrom limit there = spare.map .leaf ++ queryFrom limit here := by
  rcases (continued [] nofun nofun).queries_pairs limit ⟨spare, abreast⟩ with
    ⟨_, alike⟩ | told | stray
  · obtain ⟨_, left, before, after, _, placed⟩ := alike.placed
    obtain rfl := abreast.spare_unique before
    have waiting : (repeatWhile (nextTopLevel limit) there).next.skip.waiting =
        left ++ (repeatWhile (nextTopLevel limit) here).next.skip.waiting := after.skip.waiting (.inr rfl)
    have placed : (repeatWhile (nextTopLevel limit) there).trees ++ left.map .leaf =
        spare.map .leaf ++ (repeatWhile (nextTopLevel limit) here).trees := placed
    refine ⟨alike.quiet_there, ?_⟩
    rw [queryFrom, waiting, List.map_append, ← List.append_assoc, placed, List.append_assoc]
    rfl
  · exact absurd quiet told
  · have stray : (solidKinds here.rest).length <
      (solidKinds (Tree.leavesOf (repeatWhile (nextTopLevel limit) there).trees)).length := stray
    have kept := congrArg (List.length ∘ solidKinds) (keeps.repeatWhile (keeps.nextTopLevel limit) there)
    have ahead := congrArg List.length abreast.kinds
    simp only [Function.comp_apply, solidKinds_append, solidKinds_blank abreast.blank_there, List.nil_append,
      List.length_append] at kept ahead
    have none : (solidKinds []).length = 0 := rfl
    omega

/-- What the second run does after all that the first has read. -/
private theorem queries_past {more : List Token} (gap : ∀ token, more.head? = some token → token.isTrivia = true)
    (opens : ∀ kind, (solidKinds more).head? = some kind → kind.startsPattern = true)
    (abreast : Abreast more [] here there) (quiet : (repeatWhile (nextTopLevel limit) here).reports = [])
    (closed : ¬ LeavesBare (repeatWhile (nextTopLevel limit) here).trees) :
    ∃ (trees : List Tree) (ended next : Cursor), ¬ Ahead ended ∧ Abreast more [] ended next ∧
      queryFrom limit here = trees ++ (ended.waiting ++ ended.rest).map .leaf ∧
      (repeatWhile (nextTopLevel limit) there).reports = (repeatWhile (nextTopLevel limit) next).reports ∧
      queryFrom limit there = trees ++ queryFrom limit next := by
  obtain ⟨part, mate, alike, ended, split, split_there⟩ := queries_continue gap opens abreast quiet closed
  obtain ⟨_, left, before, after, none, placed⟩ := alike.placed
  have begun : here = part.before := congrArg Stretch.before split
  have begun_there : there = mate.before := congrArg Stretch.before split_there
  rw [← begun, ← begun_there] at before
  obtain rfl := abreast.spare_unique before
  obtain rfl := none rfl
  have same : mate.trees = part.trees := by simpa using placed
  have reports : (repeatWhile (nextTopLevel limit) there).reports =
      mate.reports ++ (repeatWhile (nextTopLevel limit) mate.after).reports := congrArg Stretch.reports split_there
  refine ⟨part.trees, part.after, mate.after, ended, after, ?_, ?_, ?_⟩
  · rw [queryFrom_split split, queryFrom_ended ended]
  · rw [reports, alike.quiet_there, List.nil_append]
  · rw [queryFrom_split split_there, same]

end Resumed

namespace Tree

/-- Whether a query ends in a field definition without a value. -/
def endsBare (root : Tree) : Bool :=
  root.placed.solids.getLast?.any fun last => last.isNode .fieldDefinition && last.value?.isNone

private theorem endsBare_of_leavesBare {trees : List Tree} {blanks : List Token} (bare : LeavesBare trees)
    (blank : ∀ token ∈ blanks, token.isTrivia = true) : endsBare (.node .program (trees ++ blanks.map .leaf)) = true := by
  obtain ⟨children, last, tokens⟩ := bare
  obtain ⟨front, rfl⟩ := List.getLast?_eq_some_iff.mp last
  have placed (start : Nat) (trees later : List Tree) : Placed.line start (trees ++ later) =
      Placed.line start trees ++ Placed.line (start + lengthOf trees) later := by
    induction trees generalizing start with
    | nil => rfl
    | cons tree rest ih => simp [Placed.line, ih, lengthOf, Nat.add_assoc]
  have hidden (start : Nat) : (Placed.line start (blanks.map Tree.leaf)).filter (!·.kind.isTrivia) = [] := by
    refine List.filter_eq_nil_iff.mpr fun place member => ?_
    obtain ⟨token, among, same⟩ := List.mem_map.mp (Placed.mem_line member)
    have trivia : place.kind.isTrivia = true := by
      rw [Placed.kind, ← same]
      exact blank token among
    simp [trivia]
  have valueless (start : Nat) : (Placed.mk start (.node .fieldDefinition children)).value? = none := by
    have none : (Placed.mk start (.node .fieldDefinition children)).items = [] := by
      refine List.filter_eq_nil_iff.mpr fun child member => ?_
      obtain ⟨token, leaf⟩ := tokens child.tree (Placed.mem_line member)
      simp [Placed.kind, leaf, Tree.kind]
    rw [Placed.value?, none]
    rfl
  change (((Placed.line 0 ((front ++ [Tree.node .fieldDefinition children]) ++ blanks.map .leaf)).filter
    (!·.kind.isTrivia)).getLast?.any _) = true
  rw [placed, List.filter_append, hidden, List.append_nil, placed, List.filter_append]
  have kept (start : Nat) : (Placed.line start [Tree.node .fieldDefinition children]).filter (!·.kind.isTrivia) =
    [⟨start, .node .fieldDefinition children⟩] := rfl
  rw [kept, List.getLast?_concat, Option.any_some, valueless]
  rfl

private theorem leaf_site {token : Token} (start : Nat) (above : List Placed) (tree : Tree) (member : token ∈ tree.leaves) :
    ∃ site ∈ tree.sites start above, site.place.tree = .leaf token := by
  have firsts (start : Nat) (tokens : List Token) : (spanned start tokens).map Prod.fst = tokens := by
    induction tokens generalizing start with
    | nil => rfl
    | cons token rest ih => rw [spanned, List.map_cons, ih]
  rw [← firsts start tree.leaves] at member
  obtain ⟨⟨token, span⟩, among, rfl⟩ := List.mem_map.mp member
  have listed : (Tree.leaf token, span) ∈ Site.tokens (tree.sites start above) := by
    rw [sites_tokens]
    exact List.mem_map.mpr ⟨_, among, rfl⟩
  obtain ⟨site, inside, same⟩ := List.mem_map.mp listed
  exact ⟨site, (List.mem_filter.mp inside).1, congrArg Prod.fst same⟩

end Tree

/-- Without reports there is no garbage. -/
private theorem parse_clean (quiet : (parse limit source).reports = []) :
    ∀ token ∈ Token.ofText source, token.kind ≠ .garbage := by
  intro token member garbage
  rw [← parse_leaves limit] at member
  obtain ⟨⟨place, above⟩, inside, leaf⟩ := Tree.leaf_site 0 [] _ member
  have word : place.tree.kind = .token .garbage := by
    rw [leaf, Tree.kind, garbage]
  have lineage := (Tree.mem_sites_iff _).mp inside
  cases above with
  | nil =>
    cases lineage
    cases leaf
  | cons holder above =>
    obtain ⟨kind, shape⟩ := lineage.above_nodes holder List.mem_cons_self
    have solid : place.tree.kind.isTrivia = false := by rw [word]; rfl
    have part := mem_parts (parse_fits lineage.tail.mem_sites shape) (Placed.mem_line lineage.inside) solid
    have only : .token .garbage ∈ kind.parts → kind = .error := by cases kind <;> decide
    have error := only (word ▸ part)
    exact (parse_error lineage.tail.mem_sites (by simp [Placed.isNode, shape, error])).1 quiet

/-- Without reports the first word begins a construct. -/
private theorem parse_opens (quiet : (parse limit source).reports = []) {kind : TokenKind}
    (first : (solidKinds (Token.ofText source)).head? = some kind) : kind.startsPattern = true ∨ kind = .atSign := by
  have derived := (parse_silent_iff limit source).mp quiet
  rw [← words_kinds] at first
  rcases Relation.ReflTransGen.cases_head derived with none | ⟨rest, top, _⟩
  · rw [none] at first
    cases first
  · generalize words (Token.ofText source) = ahead at first top
    cases ahead with
    | nil => cases first
    | cons word ahead =>
      obtain rfl := Option.some.inj first
      cases top with
      | pattern pattern => exact .inl (Phrase.pattern_begins pattern)
      | hanging hangs => exact .inr (Phrase.hanging_opens hangs)

/-- A text whose last construct is a field without a value is one whose query ends in one. -/
private theorem parse_endsBare (bare : LeavesBare (readAll limit source).trees) : (parse limit source).tree.endsBare = true := by
  have sees : Sees (solidKinds (Token.ofText source)) (.start (Token.ofText source)) :=
    ⟨rfl, List.forall_mem_nil _, fun deep => absurd deep Bool.false_ne_true⟩
  have writes : (repeatWhile (nextTopLevel limit)).Writes limit (.start (Token.ofText source)) _ :=
    .repeatWhile nextTopLevel_writes sees
  obtain ⟨_, after⟩ := writes.sees
  exact Tree.endsBare_of_leavesBare bare (Cursor.skip_blank after.blank)

/-- Past blanks the tokens of a text are ahead as at its start. -/
private theorem Continued.Abreast.past {blanks tokens : List Token} {next : Cursor}
    (blank : ∀ token ∈ blanks, token.isTrivia = true)
    (awake : next.exhausted = false) (unreported : next.reported = none) (waiting : ∀ token ∈ next.waiting, token.isTrivia = true)
    (upcoming : next.waiting ++ next.rest = blanks ++ tokens) :
    Continued.Abreast [] blanks (Cursor.start tokens).skip next.skip := by
  refine ⟨rfl, awake, rfl, unreported, Cursor.skip_blank (List.forall_mem_nil _), Cursor.skip_blank waiting, blank, ?_, fun _ => ?_⟩
  · rw [Cursor.skip_upcoming, Cursor.skip_upcoming, upcoming, List.append_nil]
    rfl
  · have same := congrArg (List.dropWhile Token.isTrivia) upcoming
    rw [List.dropWhile_append_of_pos waiting, List.dropWhile_append_of_pos blank] at same
    rw [List.append_nil]
    exact same

/-- A query read without reports is read the same after blanks. -/
private theorem query_past {blanks : List Token} {next : Cursor} (quiet : (readAll limit other).reports = [])
    (blank : ∀ token ∈ blanks, token.isTrivia = true) (awake : next.exhausted = false) (unreported : next.reported = none)
    (waiting : ∀ token ∈ next.waiting, token.isTrivia = true)
    (upcoming : next.waiting ++ next.rest = blanks ++ Token.ofText other) :
    (repeatWhile (nextTopLevel limit) next).reports = [] ∧
      queryFrom limit next = blanks.map .leaf ++ queryFrom limit (.start (Token.ofText other)) := by
  have resumed := Continued.Abreast.past blank awake unreported waiting upcoming
  have skipped : repeatWhile (nextTopLevel limit) (Cursor.start (Token.ofText other)).skip = readAll limit other :=
    queries_skip limit rfl (List.forall_mem_nil _)
  have passed := queries_skip limit awake waiting
  obtain ⟨silent, rest⟩ := queries_resume limit resumed (by rw [skipped]; exact quiet)
  rw [queryFrom, queryFrom, skipped, passed] at rest
  exact ⟨passed ▸ silent, rest⟩

/-- Two queries with a line break between them, each read without reports, are read as one after the other. A field
name at the end of the first would take its value from the second, and a capture at the start of the second would
belong to what the first ends in. -/
theorem parse_joined (quiet : (parse limit source).reports = []) (quiet_other : (parse limit other).reports = [])
    (closed : (parse limit source).tree.endsBare = false) (free : (solidKinds (Token.ofText other)).head? ≠ some .atSign) :
    (parse limit (source ++ "\n" ++ other)).reports = [] ∧
      (parse limit (source ++ "\n" ++ other)).tree = .node .program
        ((parse limit source).tree.children ++ .leaf Token.lineBreak :: (parse limit other).tree.children) := by
  let more := Token.lineBreak :: Token.ofText other
  have gap : ∀ token, more.head? = some token → token.isTrivia = true := by
    rintro _ ⟨⟩
    rfl
  have opens (kind : TokenKind) (first : (solidKinds more).head? = some kind) : kind.startsPattern = true :=
    (parse_opens quiet_other first).resolve_right fun sign => free (sign ▸ first)
  have tokens : Token.ofText (source ++ "\n" ++ other) = Token.ofText source ++ more := Token.ofText_line (parse_clean quiet)
  have bare : ¬ LeavesBare (readAll limit source).trees := by
    intro bare
    cases closed.symm.trans (parse_endsBare bare)
  rw [parse_reports] at quiet quiet_other
  have begun : Continued.Abreast more [] (.start (Token.ofText source)) (.start (Token.ofText source ++ more)) :=
    ⟨rfl, rfl, rfl, rfl, List.forall_mem_nil _, List.forall_mem_nil _, List.forall_mem_nil _, rfl, fun _ => rfl⟩
  obtain ⟨trees, ended, next, finished, after, first, reports, whole⟩ := queries_past gap opens begun quiet bare
  let blanks := ended.waiting ++ ended.rest
  let seam := blanks ++ [Token.lineBreak]
  have blank : ∀ token ∈ seam, token.isTrivia = true := by
    have left : ∀ token ∈ ended.rest, token.isTrivia = true := by simpa [Ahead, Cursor.skip] using finished
    intro token member
    rcases List.mem_append.mp member with before | last
    · exact (List.mem_append.mp before).elim (after.blank token) (left token)
    · exact List.mem_singleton.mp last ▸ rfl
  have upcoming : next.waiting ++ next.rest = seam ++ Token.ofText other := by
    rw [after.upcoming]
    simp [seam, blanks, more]
  obtain ⟨silent, same⟩ :=
    query_past quiet_other blank after.awake_there after.unreported_there after.blank_there upcoming
  rw [parse_reports, parse_query, parse_query, parse_query, readAll, tokens]
  refine ⟨reports.trans silent, congrArg (Tree.node .program) ?_⟩
  rw [whole, same, Tree.children, Tree.children, first]
  simp [seam, blanks]

end TreeQuery.Syntax
