import TreeQuery.Proofs.CaptureTokens
import TreeQuery.Proofs.FieldOwners
import TreeQuery.Proofs.LeadingWords
import TreeQuery.Proofs.TrailingBlanks

/-! What constructs begin and end with. They begin with words and end with words, so that their ranges are their own. Only
a predicate that is left off before its mark takes the trivia after it in, and with it whatever ends where it does. -/

namespace TreeQuery.Syntax
open Shape

/-- A predicate without its mark, of which nothing stands behind the trivia. -/
structure LeftOff (place : Placed) : Prop where
  made : place.kind = .node .predicate
  unmarked : place.predicateMark? = none
  trailing : ∃ before blank, place.tree.children = before ++ [.leaf blank, .node .parameters []] ∧ blank.isTrivia = true

/-- Whether a place ends with a predicate that is left off, be it that predicate itself. -/
def EndsLeftOff (root place : Placed) (above : List Placed) : Prop :=
  ∃ inner rest, Lineage root (inner :: rest) ∧ place :: above <:+ inner :: rest ∧ inner.stop = place.stop ∧ LeftOff inner

variable {limit : Nat} {source : String} {tree child : Tree} {root place holder inner : Placed} {above rest : List Placed}
  {kind : NodeKind} {front : List Tree} {last : Tree} {token : Token} {start : Nat}

section Ends

private theorem Tree.node_filled (kind : NodeKind) (front : List Tree) (filled : last.leaves ≠ []) :
    (Tree.node kind (front ++ [last])).leaves ≠ [] := by
  rw [leaves, leavesOf_append, leavesOf, leavesOf, List.append_nil]
  exact List.append_ne_nil_of_right_ne_nil _ filled

private theorem Neat.filled (neat : Neat tree) : tree.leaves ≠ [] := by
  induction neat with
  | token token => exact List.cons_ne_nil _ _
  | predicate heading filled =>
    rw [Tree.leaves, Tree.leavesOf_append, Tree.leavesOf_tokens]
    exact List.append_ne_nil_of_left_ne_nil filled _
  | @node kind children last inside ends solid ih =>
    obtain ⟨front, rfl⟩ := List.getLast?_eq_some_iff.mp ends
    exact Tree.node_filled kind front (ih last (by simp))

private theorem Placed.last_child (start : Nat) (front : List Tree) (last : Tree) :
    ⟨start + Tree.lengthOf front, last⟩ ∈ line start (front ++ [last]) := by
  induction front generalizing start with
  | nil => exact List.mem_cons_self
  | cons tree front ih =>
    rw [Tree.lengthOf, ← Nat.add_assoc]
    exact List.mem_cons_of_mem _ (ih (start + tree.length))

/-- The last of the trees in a node ends where the node does. -/
private theorem Placed.last_child_stop (start : Nat) (kind : NodeKind) (front : List Tree) (last : Tree) :
    Placed.stop ⟨start + Tree.lengthOf front, last⟩ = Placed.stop ⟨start, .node kind (front ++ [last])⟩ := by
  rw [Placed.stop, Placed.stop, Tree.length, Tree.lengthOf_append, Tree.lengthOf, Tree.lengthOf, Nat.add_zero, Nat.add_assoc]

private theorem Tree.node_last_leaf (kind : NodeKind) (front : List Tree) (filled : last.leaves ≠ []) :
    (Tree.node kind (front ++ [last])).leaves.getLast? = last.leaves.getLast? := by
  rw [leaves, leavesOf_append, leavesOf, leavesOf, List.append_nil, List.getLast?_append]
  cases ends : last.leaves.getLast? with
  | none => exact absurd (List.getLast?_eq_none_iff.mp ends) filled
  | some token => rfl

/-- A place that ends where one around it ends has the last of its tokens. -/
private theorem Lineage.last_leaves (lineage : Lineage ⟨0, (parse limit source).tree⟩ (inner :: rest))
    (inside : place :: above <:+ inner :: rest) (same : inner.stop = place.stop) :
    ∃ before, place.tree.leaves = before ++ inner.tree.leaves := by
  induction rest generalizing inner with
  | nil =>
    obtain ⟨rfl, _⟩ := List.cons.inj (List.IsSuffix.eq_of_length_le inside (by simp))
    exact ⟨[], rfl⟩
  | cons holder rest ih =>
    rcases List.suffix_cons_iff.mp inside with here | further
    · obtain ⟨rfl, _⟩ := List.cons.inj here
      exact ⟨[], rfl⟩
    · have holds := lineage.tail.within
      have bounds := Placed.child_within lineage.inside
      have outer : holder.stop ≤ place.stop := by
        rcases List.mem_cons.mp (further.subset List.mem_cons_self) with rfl | higher
        · exact Nat.le_refl _
        · exact (holds place higher).2
      have ends : inner.stop = holder.stop := by omega
      obtain ⟨before, own⟩ := ih lineage.tail further (by omega)
      obtain ⟨left, right, leaves, begins⟩ := Placed.child_leaves lineage.inside
      have none : right = [] := by
        obtain ⟨earlier, later, all, _⟩ := lineage.tail.leaves
        have size := Tree.length_eq_total_leaves holder.tree
        have part := Tree.length_eq_total_leaves inner.tree
        rw [leaves, Text.total_append, Text.total_append] at size
        rw [Placed.stop, Placed.stop] at ends
        cases right with
        | nil => rfl
        | cons token more =>
          have listed : token ∈ Token.ofText source := by
            rw [← parse_leaves limit, all, leaves]
            simp
          have wide := Token.length_pos (Token.ofText_filled listed)
          rw [Text.total_cons] at size
          omega
      exact ⟨before ++ left, by rw [own, leaves, none, List.append_nil, List.append_assoc]⟩

/-- A predicate with few words before its parameters has no mark. -/
private theorem unmarked_of_few {missing : Bool} {name : List Token} (few : (solidKinds name).length ≤ 3)
    (children : place.tree.children = name.map .leaf ++ [.node .parameters []])
    (fits : row place.tree.children ∈ (shape missing .predicate).matches') : place.predicateMark? = none := by
  have kinds : row place.tree.children = (solidKinds name).map .token ++ [.node .parameters] := by
    rw [children, row_append, row_tokens]
    rfl
  obtain ⟨_, rfl, _, ⟨_, rfl, _, ⟨named, written, _, ⟨_, rfl, closer, closed, rfl⟩, rfl⟩, rfl⟩, same⟩ := mem_seq.mp fits
  have short : named.length ≤ 1 := by
    have length := congrArg List.length (same.trans kinds)
    simp only [List.length_append, List.length_map, List.length_singleton] at length
    omega
  have plain : ∀ kind ∈ row place.tree.children, kind ≠ .token .question ∧ kind ≠ .token .bang := by
    have unnamed : ∀ kind ∈ named, kind ≠ .token .question ∧ kind ≠ .token .bang := by
      rcases mem_maybe.mp written with rfl | spelled
      · exact nofun
      · obtain ⟨_, rfl, mark, _, rfl⟩ := mem_seq.mp spelled
        obtain rfl : mark = [] := by simpa using short
        decide
    have outer : ∀ kind ∈ letters (maybe (token .parenClose)), kind ≠ .token .question ∧ kind ≠ .token .bang := by decide
    rw [← same]
    intro kind member
    simp only [List.cons_append, List.nil_append, List.mem_cons, List.mem_append] at member
    rcases member with rfl | rfl | inside | rfl | behind
    · decide
    · decide
    · exact unnamed kind inside
    · decide
    · exact outer kind (mem_letters closed kind behind)
  refine List.find?_eq_none.mpr fun child inside marked => ?_
  have among {mark : TokenKind} (shape : child.kind = .token mark) (solid : mark.isTrivia = false) :
      .token mark ∈ row place.tree.children :=
    shape ▸ mem_row (Placed.mem_line inside) (show child.kind.isTrivia = false by rw [shape]; exact solid)
  cases shape : child.kind with
  | node => simp [shape] at marked
  | token mark =>
    rw [shape] at marked
    have either : mark = .question ∨ mark = .bang := by simpa using marked
    rcases either with rfl | rfl
    · exact (plain _ (among shape rfl)).1 rfl
    · exact (plain _ (among shape rfl)).2 rfl

private theorem EndsLeftOff.outward
    (left : EndsLeftOff root ⟨start + Tree.lengthOf front, last⟩ (⟨start, .node kind (front ++ [last])⟩ :: above)) :
    EndsLeftOff root ⟨start, .node kind (front ++ [last])⟩ above := by
  obtain ⟨inner, rest, lineage, suffix, stop, off⟩ := left
  exact ⟨inner, rest, lineage, (List.suffix_cons _ _).trans suffix, stop.trans (Placed.last_child_stop start kind front last), off⟩

/-- A node ends as the last of the trees in it does. -/
private theorem EndsLeftOff.of_last {root : Tree} (filled : last.leaves ≠ [])
    (told : ∀ {start above}, Lineage ⟨0, root⟩ (⟨start, last⟩ :: above) → last.leaves.getLast? = some token →
      EndsLeftOff ⟨0, root⟩ ⟨start, last⟩ above)
    (lineage : Lineage ⟨0, root⟩ (⟨start, .node kind (front ++ [last])⟩ :: above))
    (ends : (Tree.node kind (front ++ [last])).leaves.getLast? = some token) :
    EndsLeftOff ⟨0, root⟩ ⟨start, .node kind (front ++ [last])⟩ above := by
  rw [Tree.node_last_leaf kind front filled] at ends
  exact (told (.child lineage (Placed.last_child start front last)) ends).outward

/-- A predicate of which only words are there that do not end in its mark is left off. -/
private theorem Heading.left_off {name : List Token} (heading : Heading name)
    (lineage : Lineage ⟨0, (parse limit source).tree⟩
      (⟨start, .node .predicate (name.map .leaf ++ [.node .parameters []])⟩ :: above))
    (ends : name.getLast? = some token) (blank : token.isTrivia = true) :
    LeftOff ⟨start, .node .predicate (name.map .leaf ++ [.node .parameters []])⟩ := by
  obtain ⟨before, rfl⟩ := List.getLast?_eq_some_iff.mp ends
  have few : (solidKinds (before ++ [token])).length ≤ 3 := by
    refine heading.resolve_left ?_
    rintro ⟨front, last, same, solid⟩
    obtain rfl : token = last := List.singleton_inj.mp (List.append_inj_right' same rfl)
    cases solid.symm.trans blank
  refine ⟨rfl, unmarked_of_few few rfl (parse_fits lineage.mem_sites rfl), ?_⟩
  exact ⟨before.map .leaf, token, by simp [Tree.children], blank⟩

/-- Where a neat tree ends in trivia it ends with a predicate that is left off. -/
private theorem Neat.left_off (neat : Neat tree) (lineage : Lineage ⟨0, (parse limit source).tree⟩ (⟨start, tree⟩ :: above))
    (solid : tree.kind.isTrivia = false) (ends : tree.leaves.getLast? = some token) (blank : token.isTrivia = true) :
    EndsLeftOff ⟨0, (parse limit source).tree⟩ ⟨start, tree⟩ above := by
  induction neat generalizing start above with
  | token other =>
    obtain rfl : other = token := by simpa [Tree.leaves] using ends
    cases solid.symm.trans blank
  | @node kind children last inside closes shape ih =>
    obtain ⟨front, rfl⟩ := List.getLast?_eq_some_iff.mp closes
    have listed : last ∈ front ++ [last] := by simp
    exact .of_last (inside last listed).filled (ih last listed · shape ·) lineage ends
  | @predicate name arguments closing heading filled argued argued_solid closed closed_solid ih ih' =>
    -- The last of a closer, of the arguments and of the words before them that is there.
    rcases List.eq_nil_or_concat' closing with rfl | ⟨front, last, rfl⟩
    · rcases List.eq_nil_or_concat' arguments with rfl | ⟨front, last, rfl⟩
      · have whole : (Tree.node .predicate (name.map .leaf ++ [.node .parameters []])).leaves = name := by
          simp [Tree.leaves, Tree.leavesOf_append, Tree.leavesOf_tokens, Tree.leavesOf]
        rw [whole] at ends
        exact ⟨_, _, lineage, List.suffix_refl _, rfl, heading.left_off lineage ends blank⟩
      · have listed : last ∈ front ++ [last] := by simp
        have words := (argued last listed).filled
        have solid := argued_solid last (by simp)
        exact .of_last (Tree.node_filled .parameters front words) (.of_last words (ih last listed · solid ·)) lineage ends
    · have listed : last ∈ front ++ [last] := by simp
      have same : name.map .leaf ++ .node .parameters arguments :: (front ++ [last]) =
          (name.map .leaf ++ .node .parameters arguments :: front) ++ [last] := by simp
      rw [same] at lineage ends ⊢
      exact .of_last (closed last listed).filled (ih' last listed · (closed_solid last (by simp)) ·) lineage ends

end Ends

private theorem Neat.inside (neat : Neat tree) (inside : child ∈ tree.children) :
    Neat child ∨ child.kind = .node .parameters ∧ ∀ argument ∈ child.children, Neat argument := by
  cases neat with
  | token => cases inside
  | node each => exact .inl (each child inside)
  | @predicate name arguments closing heading filled argued _ closed =>
    rcases List.mem_append.mp inside with word | behind
    · obtain ⟨token, _, rfl⟩ := List.mem_map.mp word
      exact .inl (.token token)
    · rcases List.mem_cons.mp behind with rfl | closer
      · exact .inr ⟨rfl, argued⟩
      · exact .inl (closed child closer)

/-- Only the query itself and the parameters of predicates may be empty or end in trivia of their own, and what they hold
is neat. -/
private theorem parse_neat (lineage : Lineage ⟨0, (parse limit source).tree⟩ (place :: above)) : Neat place.tree ∨
    (place.kind = .node .program ∨ place.kind = .node .parameters) ∧ ∀ child ∈ place.tree.children, Neat child := by
  induction above generalizing place with
  | nil =>
    obtain ⟨trees, blanks, whole, settled⟩ := parse_settled limit source
    cases lineage
    refine .inr ⟨.inl (congrArg Tree.kind whole), fun child inside => ?_⟩
    rw [whole] at inside
    rcases List.mem_append.mp inside with read | blank
    · exact settled.neat child read
    · obtain ⟨token, _, rfl⟩ := List.mem_map.mp blank
      exact .token token
  | cons holder above ih =>
    have inside : place.tree ∈ holder.tree.children := Placed.mem_line lineage.inside
    rcases ih lineage.tail with neat | ⟨_, holds⟩
    · exact (neat.inside inside).imp_right fun ⟨parameters, argued⟩ => ⟨.inr parameters, argued⟩
    · exact .inl (holds place.tree inside)

private theorem LeftOff.last_leaf (left : LeftOff place) :
    ∃ token, place.tree.leaves.getLast? = some token ∧ token.isTrivia = true := by
  obtain ⟨children, shape⟩ := Placed.of_kind left.made
  obtain ⟨before, blank, trailing, trivia⟩ := left.trailing
  obtain rfl : children = _ := (congrArg Tree.children shape).symm.trans trailing
  refine ⟨blank, ?_, trivia⟩
  rw [shape, Tree.leaves, Tree.leavesOf_append]
  simp [Tree.leavesOf, Tree.leaves]

/-- A construct begins with a word, and ends with one unless it ends with a predicate that is left off before its mark. -/
theorem construct_edges (limit : Nat) (source : String) (site : Site) (kind : NodeKind)
    (listed : site ∈ (parse limit source).tree.nodeSites) (made : site.place.kind = .node kind)
    (construct : kind ≠ .program ∧ kind ≠ .parameters) : ∃ first last,
      site.place.tree.leaves.head? = some first ∧ site.place.tree.leaves.getLast? = some last ∧ first.isTrivia = false ∧
        (last.isTrivia = true ↔ EndsLeftOff ⟨0, (parse limit source).tree⟩ site.place site.above) := by
  have lineage := (Tree.mem_nodeSites.mp listed).1
  have neat : Neat site.place.tree := by
    refine (parse_neat lineage).resolve_right ?_
    rintro ⟨other | other, _⟩
    · exact construct.1 (Kind.node.inj (made.symm.trans other))
    · exact construct.2 (Kind.node.inj (made.symm.trans other))
  obtain ⟨first, leads⟩ := Option.ne_none_iff_exists'.mp (mt List.head?_eq_none_iff.mp neat.filled)
  obtain ⟨last, ends⟩ := Option.ne_none_iff_exists'.mp (mt List.getLast?_eq_none_iff.mp neat.filled)
  refine ⟨first, last, leads, ends, ?_, ?_, ?_⟩
  · refine Bool.eq_false_iff.mpr fun blank => ?_
    rcases parse_front lineage made leads blank with rfl | rfl
    · exact construct.1 rfl
    · exact construct.2 rfl
  · have solid : site.place.tree.kind.isTrivia = false := by
      rw [show site.place.tree.kind = .node kind from made]
      rfl
    exact neat.left_off lineage solid ends
  · rintro ⟨inner, rest, deeper, suffix, stop, left⟩
    obtain ⟨token, closes, blank⟩ := left.last_leaf
    obtain ⟨before, whole⟩ := deeper.last_leaves suffix stop
    rw [whole, List.getLast?_append, closes] at ends
    exact Option.some.inj ends ▸ blank

/-- A list that is never closed ends with the predicate in it. -/
theorem list_ends_left_off : ∃ site ∈ (parse 8 "[(#eq ").tree.nodeSites, site.place.kind = .node .list ∧
    EndsLeftOff ⟨0, (parse 8 "[(#eq ").tree⟩ site.place site.above := by
  obtain ⟨site, listed, made, blank⟩ : ∃ site ∈ (parse 8 "[(#eq ").tree.nodeSites, site.place.kind = .node .list ∧
      site.place.tree.leaves.getLast? = some ⟨.whitespace, " "⟩ := by
    decide +kernel
  obtain ⟨_, last, _, ends, _, left⟩ := construct_edges 8 "[(#eq " site .list listed made (by decide)
  exact ⟨site, listed, made, left.mp (Option.some.inj (ends.symm.trans blank) ▸ rfl)⟩

/-- In `(#eq ` the blank is in the predicate, and is marked with it. In `(#eq? ` it is not. -/
theorem markless_ends_blank :
    (∃ site ∈ (parse 8 "(#eq ").tree.nodeSites, site.place.kind = .node .predicate ∧
      site.place.tree.leaves.getLast? = some ⟨.whitespace, " "⟩ ∧
      ∃ report ∈ Lint.run ⟨.empty, 2⟩ (parse 8 "(#eq ").tree, report.kind = .missingPredicateParameters ∧
        report.span = site.place.span) ∧
    ∃ site ∈ (parse 8 "(#eq? ").tree.nodeSites, site.place.kind = .node .predicate ∧
      site.place.tree.leaves.getLast? = some ⟨.question, "?"⟩ := by
  decide +kernel

end TreeQuery.Syntax
