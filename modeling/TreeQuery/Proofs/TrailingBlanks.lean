import TreeQuery.Proofs.CursorChains
import TreeQuery.Proofs.ReadingEnds

/-! A cursor after a blank. At the end of a text the blank belongs to the query as a whole, even if
constructs before it were left open, so that a cursor there enters them only when they are closed. -/

namespace TreeQuery.Syntax

namespace Tree

private theorem tokenSites_ne_nil {trees : List Tree} (filled : leavesOf trees ≠ []) (start : Nat) (above : List Placed) :
    (sitesOf start above trees).filter Site.isToken ≠ [] := by
  intro empty
  have same := sitesOf_tokens start above trees
  rw [Site.tokens, empty] at same
  cases leaves : leavesOf trees with
  | nil => exact filled leaves
  | cons token rest => simp [leaves, spanned] at same

private theorem last_token_append {start : Nat} {above : List Placed} {trees later : List Tree} {site : Site}
    (last : ((sitesOf (start + lengthOf trees) above later).filter Site.isToken).getLast? = some site) :
    ((sitesOf start above (trees ++ later)).filter Site.isToken).getLast? = some site := by
  rw [sitesOf_append, List.filter_append, List.getLast?_append, last]
  rfl

private theorem last_token_single {start : Nat} {above : List Placed} {tree : Tree} {site : Site}
    (last : ((tree.sites start above).filter Site.isToken).getLast? = some site) :
    ((sitesOf start above [tree]).filter Site.isToken).getLast? = some site := by
  rwa [sitesOf, sitesOf, List.append_nil]

end Tree

/-- The last token of a neat tree is no trivia, unless it is in a predicate. -/
private theorem Neat.last_token {tree : Tree} (neat : Neat tree) (solid : tree.kind.isTrivia = false) (start : Nat)
    (above : List Placed) : ∃ site, ((tree.sites start above).filter Site.isToken).getLast? = some site ∧
      (site.place.kind.isTrivia = false ∨ ∃ place ∈ site.above, place.isNode .predicate = true) := by
  induction neat generalizing start above with
  | token token => exact ⟨⟨⟨start, .leaf token⟩, above⟩, rfl, .inl solid⟩
  | @predicate name arguments closing heading filled =>
    let children : List Tree := name.map .leaf ++ .node .parameters arguments :: closing
    let whole : Placed := ⟨start, .node .predicate children⟩
    have worded : Tree.leavesOf children ≠ [] := by simp [children, Tree.leavesOf_append, Tree.leavesOf_tokens, filled]
    obtain ⟨site, last⟩ := Option.ne_none_iff_exists'.mp
      (mt List.getLast?_eq_none_iff.mp (Tree.tokenSites_ne_nil worded start (whole :: above)))
    have below := Tree.above_of_sitesOf _ _ children (List.mem_filter.mp (List.mem_of_getLast? last)).1
    exact ⟨site, last, .inr ⟨whole, below.subset List.mem_cons_self, rfl⟩⟩
  | @node kind children last inside ends shape ih =>
    obtain ⟨front, rfl⟩ := List.getLast?_eq_some_iff.mp ends
    obtain ⟨site, found, position⟩ := ih last (List.mem_append_right _ List.mem_cons_self) shape
      (start + Tree.lengthOf front) (⟨start, .node kind (front ++ [last])⟩ :: above)
    exact ⟨site, Tree.last_token_append (Tree.last_token_single found), position⟩

/-- The last blank of a text stands in the query itself, or in a predicate. -/
private theorem last_blank (limit : Nat) (source : String) {site : Site}
    (last : (parse limit source).tree.tokenSites.getLast? = some site) (blank : site.place.kind.isTrivia = true) :
    site.above = [⟨0, (parse limit source).tree⟩] ∨ ∃ place ∈ site.above, place.isNode .predicate = true := by
  obtain ⟨trees, blanks, whole, settled⟩ := parse_settled limit source
  rw [whole] at last ⊢
  let root : Placed := ⟨0, .node .program (trees ++ blanks.map .leaf)⟩
  change ((Tree.sitesOf 0 [root] (trees ++ blanks.map .leaf)).filter Site.isToken).getLast? = some site at last
  change site.above = [root] ∨ _
  rcases List.eq_nil_or_concat blanks with rfl | ⟨front, token, rfl⟩
  · right
    rcases List.eq_nil_or_concat trees with rfl | ⟨front, tree, rfl⟩
    · cases last
    · obtain ⟨other, found, position⟩ := (settled.neat tree (by simp)).last_token (settled.solid tree (by simp))
        (0 + Tree.lengthOf front) [root]
      rw [List.map_nil, List.append_nil, List.concat_eq_append,
        Tree.last_token_append (Tree.last_token_single found)] at last
      obtain rfl := Option.some.inj last
      exact position.resolve_left (by simp [blank])
  · left
    let start := 0 + Tree.lengthOf (trees ++ front.map .leaf)
    have found : (((Tree.leaf token).sites start [root]).filter Site.isToken).getLast? =
      some ⟨⟨start, .leaf token⟩, [root]⟩ := rfl
    rw [List.concat_eq_append, List.map_append, List.map_singleton, ← List.append_assoc,
      Tree.last_token_append (Tree.last_token_single found)] at last
    exact congrArg Site.above (Option.some.inj last).symm

end TreeQuery.Syntax

namespace TreeQuery.Completion
open Syntax

section Space

variable {limit offset : Nat} {source : String} {site : Site} {blank root named : Placed} {above : List Placed}

def IsSpace (place : Placed) : Prop := place.kind = .token .whitespace ∨ place.kind = .token .newline

theorem IsSpace.plain (space : IsSpace site.place) :
    site.place.kind.isTrivia = true ∧ site.place.kind ≠ .token .comment ∧ closesConstruct site = false := by
  obtain space | space := space <;> simp [space, closesConstruct, Kind.isTrivia, TokenKind.isTrivia]

/-- A blank does not tell a context, only what it is in. -/
theorem contextOf_space (space : IsSpace blank) : contextOf (blank :: above) = contextOf above := by
  obtain space | space := space <;> simp [contextOf, isTerminal, isEnclosing, Placed.isNode, space]

private theorem contextOf_query (space : IsSpace blank) (shape : root.isNode .program = true) :
    contextOf [blank, root] = .node true none := by
  have whole : root.kind = .node .program := of_decide_eq_true shape
  rw [contextOf_space space]
  simp [contextOf, contextIn, isTerminal, isEnclosing, Placed.isNode, whole]

private theorem contextOf_named (space : IsSpace blank) (shape : named.isNode .namedNode = true)
    (nodes : ∀ place ∈ above, ∃ kind, place.kind = .node kind)
    (outside : ∀ place ∈ above, place.isNode .predicate = false) :
    contextOf (blank :: named :: above) = .child true (kindOf? named) := by
  have held : named.kind = .node .namedNode := of_decide_eq_true shape
  have silent : above.any (·.kind = .token .comment) = false := by
    apply List.any_eq_false.mpr
    intro place member
    obtain ⟨kind, node⟩ := nodes place member
    simp [node]
  have free : above.any (·.isNode .predicate) = false := by
    apply List.any_eq_false.mpr
    intro place member
    simp [outside place member]
  rw [contextOf_space space, contextOf, List.any_cons, List.any_cons, silent, free]
  simp [contextIn, isTerminal, isEnclosing, Placed.isNode, held]

/-- A cursor behind some of a blank is in what the blank is in, or in a field before it that waits for its value. -/
theorem classify_within (member : site ∈ (parse limit source).tree.tokenSites) (space : IsSpace site.place)
    (begins : site.place.start < offset) (ends : offset ≤ site.place.stop) :
    classify (parse limit source).tree offset =
      match danglingColon? (parse limit source).tree site.place with
      | some colon => contextOf (colon.place :: colon.above)
      | none => contextOf (site.place :: site.above) := by
  have told : tokenBefore? (parse limit source).tree offset = some site := tokenBefore?_parse member begins ends
  have within : site.place.stop ≤ (parse limit source).tree.length :=
    parse_length limit source ▸ parse_token_within member
  rw [classify, if_neg (by omega), if_neg (by omega)]
  cases colon : danglingColon? (parse limit source).tree site.place <;>
    simp [chainAt?, told, space.plain, colon]

private theorem classify_space (member : site ∈ (parse limit source).tree.tokenSites) (space : IsSpace site.place) :
    classify (parse limit source).tree site.place.stop =
      match danglingColon? (parse limit source).tree site.place with
      | some colon => contextOf (colon.place :: colon.above)
      | none => contextOf (site.place :: site.above) :=
  classify_within member space (parse_token_wide member) (Nat.le_refl _)

/-- A cursor after the last blank of a text is in the query itself, whatever was left open before
the blank. Only a field that waits for its value is seen there. -/
private theorem classify_after_blank (last : (parse limit source).tree.tokenSites.getLast? = some site)
    (space : IsSpace site.place) (outside : ∀ place ∈ site.above, place.isNode .predicate = false) :
    classify (parse limit source).tree source.utf8ByteSize =
      match danglingColon? (parse limit source).tree site.place with
      | some colon => contextOf (colon.place :: colon.above)
      | none => .node true none := by
  have above : site.above = [⟨0, (parse limit source).tree⟩] := by
    apply (last_blank limit source last space.plain.1).resolve_right
    rintro ⟨place, member, inside⟩
    simp [outside place member] at inside
  obtain ⟨children, whole⟩ := parse_program limit source
  have shape : Placed.isNode ⟨0, (parse limit source).tree⟩ .program = true := decide_eq_true (congrArg Tree.kind whole)
  rw [← last_token_stop limit source last, classify_space (List.mem_of_getLast? last) space, above,
    contextOf_query space shape]

/-- The closer of a named node takes the cursor before it from the query into the node. -/
theorem closer_moves_cursor (last : (parse limit source).tree.tokenSites.getLast? = some site)
    (space : IsSpace site.place) (outside : ∀ place ∈ site.above, place.isNode .predicate = false)
    (settled : danglingColon? (parse limit source).tree site.place = none)
    (held : ⟨site.place, named :: above⟩ ∈ (parse limit (source ++ ")")).tree.tokenSites)
    (shape : named.isNode .namedNode = true) (plain : ∀ place ∈ above, place.isNode .predicate = false)
    (waits : danglingColon? (parse limit (source ++ ")")).tree site.place = none) :
    classify (parse limit source).tree source.utf8ByteSize = .node true none ∧
      classify (parse limit (source ++ ")")).tree source.utf8ByteSize = .child true (kindOf? named) := by
  constructor
  · rw [classify_after_blank last space outside, settled]
  · have lineage := (Tree.mem_sites_iff _).mp (List.mem_filter.mp held).1
    have nodes (place : Placed) (member : place ∈ above) := lineage.above_nodes place (List.mem_cons_of_mem named member)
    have inside := contextOf_named space shape nodes plain
    rw [← last_token_stop limit source last]
    -- The blank ends at the same place in both texts.
    change classify _ (Site.mk site.place (named :: above)).place.stop = _
    rw [classify_space held space, waits, inside]

end Space

theorem call_closer_moves_cursor : ∃ site named above,
    (parse Parser.defaultLimit "(call_expression ").tree.tokenSites.getLast? = some site ∧
    ⟨site.place, named :: above⟩ ∈ (parse Parser.defaultLimit ("(call_expression " ++ ")")).tree.tokenSites ∧
    kindOf? named = some "call_expression" ∧
    classify (parse Parser.defaultLimit "(call_expression ").tree "(call_expression ".utf8ByteSize = .node true none ∧
    classify (parse Parser.defaultLimit ("(call_expression " ++ ")")).tree "(call_expression ".utf8ByteSize =
      .child true (kindOf? named) := by
  let opened : List Tree := [.leaf ⟨.parenOpen, "("⟩, .leaf ⟨.identifier, "call_expression"⟩]
  let blank : Tree := .leaf ⟨.whitespace, " "⟩
  let named : Placed := ⟨0, .node .namedNode (opened ++ [blank, .leaf ⟨.parenClose, ")"⟩])⟩
  let site : Site := ⟨⟨16, blank⟩, [⟨0, .node .program [.node .namedNode opened, blank]⟩]⟩
  have last : (parse Parser.defaultLimit "(call_expression ").tree.tokenSites.getLast? = some site := by
    decide +kernel
  have held : ⟨site.place, [named, ⟨0, .node .program [named.tree]⟩]⟩ ∈
      (parse Parser.defaultLimit ("(call_expression " ++ ")")).tree.tokenSites := by
    decide +kernel
  exact ⟨site, named, _, last, held, by decide +kernel, closer_moves_cursor last (.inl rfl) (by decide +kernel)
    (by decide +kernel) held rfl (by decide +kernel) (by decide +kernel)⟩

/-- In `(call_expression ` nothing is offered as a child before the closer is there. -/
theorem unclosed_not_entered :
    classify (parse Parser.defaultLimit "(call_expression ").tree 17 = .node true none ∧
    classify (parse Parser.defaultLimit ("(call_expression " ++ ")")).tree 17 = .child true (some "call_expression") := by
  decide +kernel

end TreeQuery.Completion
