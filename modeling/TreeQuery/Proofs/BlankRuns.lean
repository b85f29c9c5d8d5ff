import TreeQuery.Proofs.LeadingWords
import TreeQuery.Proofs.ReportOwners
import TreeQuery.Proofs.TokenNeighbours
import TreeQuery.Proofs.TrailingBlanks
import TreeQuery.Proofs.WaitingFields

/-! Blank space between two words. All trivia there is placed at once, and so in one node. After a token that closes
a construct this is the node that a cursor right behind that token is in, and the context does not change on the
way to the next word. -/

namespace TreeQuery.Syntax
open TreeQuery.Syntax.Tree (leavesOf tokensOf)

/-- If trivia waits, it is all there is before the next word. -/
def Whole (cursor : Cursor) : Prop := cursor.waiting ≠ [] → Abuts cursor

/-- Trivia neither waits nor is right ahead. -/
structure Clear (cursor : Cursor) : Prop where
  placed : cursor.waiting = []
  abuts : Abuts cursor

private theorem Clear.skip {cursor : Cursor} (clear : Clear cursor) : Clear cursor.skip where
  placed := List.append_eq_nil_iff.mpr ⟨clear.placed, clear.abuts⟩
  abuts := .skip cursor

/-- Trivia next to trivia stands in the same node. -/
def Together (site next : Site) : Prop :=
  site.place.kind.isTrivia = true → next.place.kind.isTrivia = true → site.above = next.above

/-- What is placed has its trivia together. It begins with trivia only if some waited or was right ahead, and once it
ends with trivia, there is no more. -/
structure Gathers (cursor : Cursor) (trees : List Tree) (next : Cursor) : Prop where
  whole : Whole next
  front : Clear cursor → ∀ first, (leavesOf trees).head? = some first → first.isTrivia = false
  back : (leavesOf trees = [] → Clear cursor) → (∀ last, (leavesOf trees).getLast? = some last → last.isTrivia = true) →
    Clear next
  together : ∀ start above, (tokensOf start above trees).IsChain Together

private theorem Site.isTrivia_leaf {site : Site} {token : Token} (shape : .leaf token = site.place.tree) :
    site.place.kind.isTrivia = token.isTrivia := by
  rw [Placed.kind, ← shape]
  rfl

namespace Gathers

variable {cursor middle next : Cursor} {trees later : List Tree}

private theorem none (whole : Whole next) (clear : Clear cursor → Clear next) : Gathers cursor [] next where
  whole := whole
  front _ := nofun
  back start _ := clear (start rfl)
  together _ _ := .nil

private theorem chain (first : Gathers cursor trees middle) (second : Gathers middle later next) :
    Gathers cursor (trees ++ later) next where
  whole := second.whole
  front clear token leads := by
    rw [Tree.leavesOf_append] at leads
    cases placed : leavesOf trees with
    | nil =>
      rw [placed] at leads
      exact second.front (first.back (fun _ => clear) (by simp [placed])) token leads
    | cons leaf rest =>
      rw [placed] at leads
      exact first.front clear token (by rw [placed]; exact leads)
  back start ends := by
    rw [Tree.leavesOf_append, List.getLast?_append] at ends
    refine second.back (fun placed => ?_) fun last closing => ends last (by rw [closing]; rfl)
    rw [placed] at ends
    exact first.back (fun empty => start (by rw [Tree.leavesOf_append, empty, placed]; rfl)) ends
  together start above := by
    rw [Tree.tokensOf_append]
    refine List.isChain_append.mpr ⟨first.together _ _, second.together _ _, fun site last other leads blank more => ?_⟩
    -- after trivia there is no more of it
    obtain ⟨token, closing, shape⟩ := Option.map_eq_some_iff.mp (Tree.last_leaf last)
    obtain ⟨word, opening, shape'⟩ := Option.map_eq_some_iff.mp (Tree.first_leaf leads)
    rw [Site.isTrivia_leaf shape] at blank
    have clear : Clear middle := by
      refine first.back (fun empty => ?_) fun final same => ?_
      · rw [empty] at closing
        cases closing
      · rwa [Option.some.inj (same.symm.trans closing)]
    have solid := second.front clear word opening
    rw [Site.isTrivia_leaf shape', solid] at more
    cases more

private theorem place (whole : Whole cursor) : Gathers cursor (cursor.waiting.map .leaf) { cursor with waiting := [] } where
  whole := absurd rfl
  front clear first leads := by
    rw [clear.placed] at leads
    cases leads
  back start _ := by
    rw [Tree.leavesOf_tokens] at start
    refine ⟨rfl, ?_⟩
    by_cases empty : cursor.waiting = []
    · exact (start empty).abuts
    · exact whole empty
  together start above := by
    generalize cursor.waiting = tokens
    induction tokens generalizing start with
    | nil => exact .nil
    | cons token rest ih =>
      rw [List.map_cons, Tree.tokensOf_leaf]
      exact List.isChain_cons.mpr ⟨fun other leads _ _ => (Tree.tokensOf_leaves (List.mem_of_mem_head? leads)).symm, ih _⟩

end Gathers

private theorem gathers : Law fun cursor trees _ next => Whole cursor → Gathers cursor trees next where
  stay _ whole := .none whole id
  chain first second whole := .chain (first whole) (second (first whole).whole)
  note _ _ _ _ whole := .none whole fun clear => ⟨clear.placed, clear.abuts⟩
  skip cursor _ := .none (fun _ => .skip cursor) Clear.skip
  place _ whole := .place whole
  token cursor token rest placed left solid whole := {
    whole := absurd placed
    front := by simp [leavesOf, Tree.leaves, solid]
    back := by simp [leavesOf, Tree.leaves, solid]
    together := fun _ _ => .singleton _ }
  around cursor kind trees reports next placed inside whole := by
    have held := inside whole
    have same : leavesOf [.node kind trees] = leavesOf trees := List.append_nil _
    refine ⟨held.whole, same ▸ held.front, same ▸ held.back, fun start above => ?_⟩
    rw [Tree.tokensOf_node]
    exact (List.append_nil _).symm ▸ held.together _ _
  found _ _ _ _ whole := .none whole fun clear => ⟨clear.placed, clear.abuts⟩
  last _ _ _ _ whole := .none whole fun clear => ⟨clear.placed, clear.abuts⟩

/-- All trivia between two words of a text stands in the same node. -/
private theorem parse_together (limit : Nat) (source : String) : (parse limit source).tree.tokenSites.IsChain Together :=
  (parse limit source).tree.tokenSites_eq ▸ (gathers.program limit (.start (Token.ofText source)) (absurd rfl)).together 0 []

private theorem parse_token_ended {limit : Nat} {source : String} {site other : Site}
    (member : site ∈ (parse limit source).tree.tokenSites) (among : other ∈ (parse limit source).tree.tokenSites)
    (same : site.place.stop = other.place.stop) : site = other := by
  have here := Completion.tokenBefore?_parse member (parse_token_wide member) (Nat.le_refl _)
  have there := Completion.tokenBefore?_parse among (parse_token_wide among) (Nat.le_refl _)
  rw [same, there] at here
  exact (Option.some.inj here).symm

section Arguments
open Shape Completion

variable {limit : Nat} {source : String} {place holder : Placed} {above : List Placed} {site next : Site}

/-- What stands before the arguments of a predicate. -/
def calling : List Kind := [.token .parenOpen, .token .sharp, .token .identifier, .token .question, .token .bang]

private theorem before_arguments {missing : Bool} {word before after : List Kind}
    (fits : word ∈ (shape missing .predicate).matches')
    (split : word = before ++ .node .parameters :: after) : before ≠ [] ∧ ∀ kind ∈ before, kind ∈ calling := by
  obtain ⟨_, rfl, _, ⟨_, rfl, _, ⟨named, name, _, ⟨_, rfl, closer, closed, rfl⟩, rfl⟩, rfl⟩, rfl⟩ := mem_seq.mp fits
  have calls : ∀ kind ∈ [Kind.token .parenOpen, .token .sharp] ++ named, kind ∈ calling := by
    intro kind inside
    rcases List.mem_append.mp inside with opening | naming
    · exact List.mem_append_left _ opening
    · exact List.mem_append_right [Kind.token .parenOpen, .token .sharp] (mem_letters name kind naming)
  have closing : .node .parameters ∉ closer := fun inside => absurd (mem_letters closed _ inside) (by decide)
  have split : ([Kind.token .parenOpen, .token .sharp] ++ named) ++ .node .parameters :: closer =
      before ++ .node .parameters :: after := split
  obtain ⟨rfl, _⟩ := (List.append_cons_inj_of_notMem (fun inside => absurd (calls _ inside) (by decide)) closing).mp split
  exact ⟨by simp, calls⟩

/-- The token before the arguments of a predicate. -/
private theorem token_before_arguments (lineage : Lineage ⟨0, (parse limit source).tree⟩ (place :: holder :: above))
    (made : place.kind = .node .parameters) (shape : holder.kind = .node .predicate) :
    ∃ token ∈ holder.children, token.stop = place.start ∧ (token.kind.isTrivia = true ∨ token.kind ∈ calling) := by
  obtain ⟨before, after, split⟩ := List.append_of_mem lineage.inside
  have kinds : row holder.tree.children = (before.filter (!·.kind.isTrivia)).map Placed.kind ++
      .node .parameters :: (after.filter (!·.kind.isTrivia)).map Placed.kind := by
    rw [← Placed.solids_kinds, Placed.solids, split]
    simp [made, Kind.isTrivia]
  obtain ⟨filled, calls⟩ := before_arguments (parse_fits lineage.tail.mem_sites shape) kinds
  have some : before ≠ [] := by
    rintro rfl
    exact filled rfl
  obtain ⟨token, last⟩ := Option.ne_none_iff_exists'.mp (mt List.getLast?_eq_none_iff.mp some)
  have meet : holder.children.IsChain fun place next => place.stop = next.start := Placed.line_meet _ _
  rw [split] at meet
  have member := List.mem_of_getLast? last
  refine ⟨token, split ▸ List.mem_append_left _ member, (List.isChain_append.mp meet).2.2 token last place rfl, ?_⟩
  by_contra other
  rw [not_or] at other
  exact other.2 (calls _ (List.mem_map_of_mem (List.mem_filter.mpr ⟨member, by simp [other.1]⟩)))

/-- None of these closes a construct. -/
private theorem calling_plain {token : Placed} (above : List Placed) (shape : holder.kind = .node .predicate)
    (calls : token.kind.isTrivia = true ∨ token.kind ∈ calling) :
    Site.isToken ⟨token, holder :: above⟩ = true ∧ closesConstruct ⟨token, holder :: above⟩ = false := by
  rcases calls with blank | listed
  · refine ⟨?_, closesConstruct_blank blank⟩
    cases made : token.kind with
    | token => simp [Site.isToken, made]
    | node => simp [made, Kind.isTrivia] at blank
  · have apart : holder.isNode .quantifier = false := by simp [Placed.isNode, shape]
    simp only [calling, List.mem_cons, List.not_mem_nil, or_false] at listed
    rcases listed with made | made | made | made | made <;> simp [Site.isToken, closesConstruct, made, apart]

/-- No node begins with trivia behind a token that closes a construct. -/
private theorem closer_not_led (member : site ∈ (parse limit source).tree.tokenSites) (closes : closesConstruct site = true)
    (among : next ∈ (parse limit source).tree.tokenSites) (blank : next.place.kind.isTrivia = true)
    (meet : site.place.stop = next.place.start) : ¬ Leads next := by
  rintro ⟨holder, above, own, begins, leads⟩
  have lineage := Tree.token_lineage among
  rw [own] at lineage
  have wide := parse_token_wide member
  obtain ⟨kind, made⟩ := lineage.above_nodes holder List.mem_cons_self
  obtain ⟨token, leading, shape⟩ := Option.map_eq_some_iff.mp leads
  rw [Site.isTrivia_leaf shape] at blank
  rcases parse_front lineage.tail made leading blank with rfl | rfl
  · -- the query itself begins where the text does
    have root := lineage.tail.last
    rw [program_last lineage.tail made] at root
    obtain rfl := Option.some.inj root
    have start : 0 = next.place.start := begins
    omega
  · cases above with
    | nil =>
      cases lineage.tail
      cases made
    | cons outer above =>
      obtain ⟨other, shape⟩ := lineage.tail.above_nodes outer List.mem_cons_self
      have part := parse_parts lineage.tail shape (by rw [made]; rfl)
      rw [made] at part
      obtain rfl : other = .predicate := by
        revert part
        cases other <;> decide
      obtain ⟨last, inside, ends, calls⟩ := token_before_arguments lineage.tail made shape
      obtain ⟨word, opens⟩ := calling_plain above shape calls
      have held : ⟨last, outer :: above⟩ ∈ (parse limit source).tree.tokenSites :=
        List.mem_filter.mpr ⟨(Lineage.child lineage.tail.tail inside).mem_sites, word⟩
      obtain rfl := parse_token_ended member held (by rw [meet, ← begins]; exact ends.symm)
      rw [opens] at closes
      cases closes

end Arguments

end TreeQuery.Syntax

namespace TreeQuery.Completion
open Syntax

section Closer

variable {limit offset : Nat} {source : String} {site next closer : Site} {holder : Placed} {left above : List Placed}
  {before after : List Site}

/-- Nodes that end at a place are left there, up to one that goes on. -/
private theorem leaveClosed_left (ends : ∀ place ∈ left, place.stop = offset ∧ place.isNode .program = false)
    (goes : holder.stop ≠ offset) : leaveClosed offset (left ++ holder :: above) = holder :: above := by
  induction left with
  | nil => cases above <;> simp [leaveClosed, goes]
  | cons place rest ih =>
    have further := ih fun place member => ends place (List.mem_cons_of_mem _ member)
    obtain ⟨stop, inner⟩ := ends place List.mem_cons_self
    cases rest <;> simpa [leaveClosed, stop, inner] using further

private theorem waitingColon?_closer (closes : closesConstruct closer = true) : waitingColon? (before ++ [closer]) = none := by
  have solid : closer.place.kind.isTrivia = false := by
    by_contra blank
    rw [closesConstruct_blank (Bool.not_eq_false _ ▸ blank)] at closes
    cases closes
  have other : closer.place.kind ≠ .token .colon := by
    intro colon
    simp [closesConstruct, colon] at closes
  rw [waitingColon?, last_word solid]
  cases closer.above <;> simp [other]

/-- Behind a token that closes a construct the cursor is in the node that trivia there stands in. -/
private theorem leaveClosed_closer (member : site ∈ (parse limit source).tree.tokenSites) (closes : closesConstruct site = true)
    (among : next ∈ (parse limit source).tree.tokenSites) (blank : next.place.kind.isTrivia = true)
    (meet : site.place.stop = next.place.start) (follows : Follows site next) :
    leaveClosed site.place.stop site.above = next.above := by
  obtain ⟨left, split, leave⟩ := follows.resolve_right (closer_not_led member closes among blank meet)
  have within := Tree.token_lineage member
  have lineage := Tree.token_lineage among
  have wide := parse_token_wide among
  cases own : next.above with
  | nil =>
    rw [own] at lineage
    have root : next.place = ⟨0, (parse limit source).tree⟩ := Option.some.inj lineage.last
    rw [root] at blank
    cases blank
  | cons holder above =>
    rw [split, own]
    rw [own] at lineage
    refine leaveClosed_left (fun place inside => ⟨leave place inside, Bool.eq_false_iff.mpr fun whole => ?_⟩) ?_
    · -- the query itself is above all others
      obtain ⟨front, back, rfl⟩ := List.append_of_mem inside
      rw [split, own, List.append_assoc, List.cons_append] at within
      have last := program_last (within.of_suffix ((List.suffix_append _ _).trans (List.suffix_cons _ _))) (of_decide_eq_true whole)
      simp at last
    · have goes := (lineage.within holder List.mem_cons_self).2
      omega

/-- Right behind a token that closes a construct the context is that of what trivia there stands in. -/
private theorem classify_closer (split : (parse limit source).tree.tokenSites = before ++ next :: after)
    (closing : before.getLast? = some closer) (closes : closesConstruct closer = true)
    (blank : next.place.kind.isTrivia = true) :
    classify (parse limit source).tree next.place.start = contextOf next.above := by
  have member : closer ∈ (parse limit source).tree.tokenSites :=
    split ▸ List.mem_append_left _ (List.mem_of_getLast? closing)
  have among : next ∈ (parse limit source).tree.tokenSites := split ▸ List.mem_append_right _ List.mem_cons_self
  have meet := (List.isChain_append.mp (split ▸ parse_tokens_meet limit source)).2.2 closer closing next rfl
  have follows := (List.isChain_append.mp (split ▸ (parse limit source).tree.tokenSites_follow)).2.2 closer closing next rfl
  have left := leaveClosed_closer member closes among blank meet follows
  have wide := parse_token_wide member
  have told := tokenBefore?_parse member wide (Nat.le_refl _)
  have within := parse_length limit source ▸ parse_token_within member
  rw [← meet, classify, if_neg (by omega), if_neg (by omega)]
  simp [chainAt?, told, closes, left]

end Closer

section Blanks

variable {limit offset : Nat} {source : String} {site first last : Site} {before run after : List Site}

/-- The context in blank space behind some tokens. -/
def blankContext (before : List Site) (above : List Placed) : Context :=
  match waitingColon? before with
  | some colon => contextOf (colon.place :: colon.above)
  | Option.none => contextOf above

private theorem classify_blank (split : (parse limit source).tree.tokenSites = before ++ site :: after)
    (space : IsSpace site.place)
    (begins : site.place.start < offset) (ends : offset ≤ site.place.stop) :
    classify (parse limit source).tree offset = blankContext before site.above := by
  have member : site ∈ (parse limit source).tree.tokenSites := split ▸ List.mem_append_right _ List.mem_cons_self
  rw [classify_within member space begins ends, danglingColon?_parse split, contextOf_space space]
  rfl

/-- All of a run of trivia stands in the same node. -/
private theorem run_above (split : (parse limit source).tree.tokenSites = before ++ run ++ after)
    (blank : ∀ site ∈ run, site.place.kind.isTrivia = true) (leads : run.head? = some first) :
    ∀ site ∈ run, site.above = first.above := by
  have chain : run.IsChain Together := by
    have whole := parse_together limit source
    rw [split] at whole
    exact (List.isChain_append.mp (List.isChain_append.mp whole).1).2.1
  have same : run.IsChain fun site next => site.above = next.above :=
    chain.imp_of_mem_imp fun site next here there together => together (blank site here) (blank next there)
  obtain ⟨rest, rfl⟩ := List.head?_eq_some_iff.mp leads
  exact same.induction (·.above = first.above) _ (fun _ _ equal earlier => equal ▸ earlier) fun _ => rfl

/-- A place in a run of tokens is in one of them. -/
private theorem run_covers (split : (parse limit source).tree.tokenSites = before ++ run ++ after)
    (leads : run.head? = some first)
    (ends : run.getLast? = some last) (above : first.place.start < offset) (within : offset ≤ last.place.stop) :
    ∃ site ∈ run, site.place.start < offset ∧ offset ≤ site.place.stop := by
  obtain ⟨rest, front⟩ := List.head?_eq_some_iff.mp leads
  obtain ⟨others, back⟩ := List.getLast?_eq_some_iff.mp ends
  have behind : (parse limit source).tree.tokenSites = before ++ first :: (rest ++ after) := by rw [split, front]; simp
  have ahead : (parse limit source).tree.tokenSites = (before ++ others) ++ last :: after := by rw [split, back]; simp
  have member : last ∈ (parse limit source).tree.tokenSites := by simp [ahead]
  have bound := parse_token_within member
  obtain ⟨site, among, begins, stops⟩ := parse_token_covers limit (by omega) (Nat.le_trans within bound)
  refine ⟨site, ?_, begins, stops⟩
  rw [split, List.mem_append, List.mem_append] at among
  obtain (earlier | inside) | later := among
  · have order := ((parse_split behind).1 site earlier).2
    omega
  · exact inside
  · have order := (parse_split ahead).2 site later
    omega

/-- Over a run of blanks and line breaks the context stays the same: from behind the first byte to the end, and from
the start, if the token there closes a construct. -/
theorem blank_run_constant (split : (parse limit source).tree.tokenSites = before ++ run ++ after)
    (space : ∀ site ∈ run, IsSpace site.place) (leads : run.head? = some first) (ends : run.getLast? = some last) :
    ∃ context, (∀ offset, first.place.start < offset → offset ≤ last.place.stop →
        classify (parse limit source).tree offset = context) ∧
      ∀ closer, before.getLast? = some closer → closesConstruct closer = true →
        classify (parse limit source).tree first.place.start = context := by
  have blank : ∀ site ∈ run, site.place.kind.isTrivia = true := fun site member => (space site member).plain.1
  refine ⟨blankContext before first.above, fun offset begins within => ?_, fun closer closing closes => ?_⟩
  · obtain ⟨site, member, start, stop⟩ := run_covers split leads ends begins within
    have above := run_above split blank leads site member
    obtain ⟨front, rest, cut⟩ := List.append_of_mem member
    have around : (parse limit source).tree.tokenSites = (before ++ front) ++ site :: (rest ++ after) := by
      rw [split, cut]
      simp
    rw [classify_blank around (space site member) start stop, above, blankContext,
      waitingColon?_blanks fun token inside => blank token (cut ▸ List.mem_append_left _ inside), ← blankContext]
  · obtain ⟨rest, front⟩ := List.head?_eq_some_iff.mp leads
    have around : (parse limit source).tree.tokenSites = before ++ first :: (rest ++ after) := by rw [split, front]; simp
    rw [classify_closer around closing closes (blank first (List.mem_of_mem_head? leads)), blankContext]
    obtain ⟨others, rfl⟩ := List.getLast?_eq_some_iff.mp closing
    rw [waitingColon?_closer closes]

end Blanks

/-- Behind `(b)` in `(a (b) )`, with a line break after the blank. -/
theorem blanks_behind_child : ∃ before run after first last closer,
    (parse 8 "(a (b) \n)").tree.tokenSites = before ++ run ++ after ∧ (∀ site ∈ run, IsSpace site.place) ∧
    run.head? = some first ∧ run.getLast? = some last ∧ first.place.start = 6 ∧ last.place.stop = 8 ∧
    before.getLast? = some closer ∧ closesConstruct closer = true ∧
    ∀ offset, 6 ≤ offset → offset ≤ 8 → classify (parse 8 "(a (b) \n)").tree offset = .child true (some "a") := by
  let tokens := (parse 8 "(a (b) \n)").tree.tokenSites
  let run := (tokens.drop 6).take 2
  have split : tokens = tokens.take 6 ++ run ++ tokens.drop 8 := by decide +kernel
  have space : ∀ site ∈ run, IsSpace site.place := by
    unfold IsSpace
    decide +kernel
  have found : ∃ first ∈ run, ∃ last ∈ run, ∃ closer ∈ tokens, run.head? = some first ∧ run.getLast? = some last ∧
      first.place.start = 6 ∧ last.place.stop = 8 ∧ (tokens.take 6).getLast? = some closer ∧
      closesConstruct closer = true := by decide +kernel
  obtain ⟨first, _, last, _, closer, _, leads, ends, begins, stops, closing, closes⟩ := found
  obtain ⟨context, inside, behind⟩ := blank_run_constant split space leads ends
  have known : classify (parse 8 "(a (b) \n)").tree 8 = .child true (some "a") := by decide +kernel
  have same : context = .child true (some "a") := (inside 8 (by omega) (by omega)).symm.trans known
  refine ⟨_, run, _, first, last, closer, split, space, leads, ends, begins, stops, closing, closes, fun offset low high => ?_⟩
  rcases Nat.eq_or_lt_of_le low with rfl | beyond
  · exact (begins ▸ behind closer closing closes).trans same
  · exact (inside offset (by omega) (by omega)).trans same

end TreeQuery.Completion
