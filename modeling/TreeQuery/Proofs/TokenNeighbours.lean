import Mathlib.Data.List.Chain
import TreeQuery.Proofs.TreeSites

/-! Tokens next to each other in a tree. Between one token and the next some nodes end and some begin:
those that end do so with the first token, and the last of those that begin does so with the next one. -/

namespace TreeQuery.Syntax

/-- The nodes above a site, up to others that are above it too, all end where it does. -/
def Leaves (site : Site) (above : List Placed) : Prop :=
  ∃ left, site.above = left ++ above ∧ ∀ place ∈ left, place.stop = site.place.stop

private theorem Leaves.outward {site : Site} {whole : Placed} {above : List Placed} (leaves : Leaves site (whole :: above))
    (ends : whole.stop = site.place.stop) : Leaves site above := by
  obtain ⟨left, split, leave⟩ := leaves
  refine ⟨left ++ [whole], by rw [split, List.append_assoc]; rfl, fun place member => ?_⟩
  rcases List.mem_append.mp member with inner | last
  · exact leave place inner
  · exact List.mem_singleton.mp last ▸ ends

/-- The node right above a token begins with it. -/
def Leads (site : Site) : Prop :=
  ∃ holder above, site.above = holder :: above ∧ holder.start = site.place.start ∧
    holder.tree.leaves.head?.map Tree.leaf = some site.place.tree

/-- The next token stands in a node that the one before it is in, or a node begins with it. -/
def Follows (site next : Site) : Prop := Leaves site next.above ∨ Leads next

namespace Tree

/-- To show something of trees that stand side by side, go from the first to the others, and from a
node to its children. -/
private theorem forest_induction {motive : List Tree → Prop} (nil : motive [])
    (leaf : ∀ token rest, motive rest → motive (.leaf token :: rest))
    (node : ∀ kind children rest, motive children → motive rest → motive (.node kind children :: rest)) :
    (trees : List Tree) → motive trees
  | [] => nil
  | .leaf token :: rest => leaf token rest (forest_induction nil leaf node rest)
  | .node kind children :: rest =>
    node kind children rest (forest_induction nil leaf node children) (forest_induction nil leaf node rest)

/-- The tokens of trees that stand side by side. -/
def tokensOf (start : Nat) (above : List Placed) (trees : List Tree) : List Site :=
  (sitesOf start above trees).filter Site.isToken

variable {start : Nat} {above : List Placed} {trees : List Tree} {site : Site}

theorem tokensOf_leaf (start : Nat) (above : List Placed) (token : Token) (rest : List Tree) :
    tokensOf start above (.leaf token :: rest) =
      ⟨⟨start, .leaf token⟩, above⟩ :: tokensOf (start + token.length) above rest := rfl

theorem tokensOf_node (start : Nat) (above : List Placed) (kind : NodeKind) (children rest : List Tree) :
    tokensOf start above (.node kind children :: rest) =
      tokensOf start (⟨start, .node kind children⟩ :: above) children ++
        tokensOf (start + lengthOf children) above rest := List.filter_append ..

theorem tokensOf_trees (start : Nat) (above : List Placed) (trees : List Tree) :
    (tokensOf start above trees).map (·.place.tree) = (leavesOf trees).map leaf := by
  induction trees using forest_induction generalizing start above with
  | nil => rfl
  | leaf token rest ih => rw [tokensOf_leaf, List.map_cons, ih]; rfl
  | node kind children rest inside ih =>
    rw [tokensOf_node, List.map_append, inside, ih, ← List.map_append]
    rfl

theorem tokensOf_append (start : Nat) (above : List Placed) (trees later : List Tree) :
    tokensOf start above (trees ++ later) = tokensOf start above trees ++ tokensOf (start + lengthOf trees) above later := by
  rw [tokensOf, sitesOf_append, List.filter_append]
  rfl

/-- Tokens that stand by themselves. -/
theorem tokensOf_leaves {tokens : List Token} (member : site ∈ tokensOf start above (tokens.map leaf)) :
    site.above = above := by
  induction tokens generalizing start with
  | nil => cases member
  | cons token rest ih =>
    rcases List.mem_cons.mp member with rfl | later
    · rfl
    · exact ih later

theorem first_leaf (first : (tokensOf start above trees).head? = some site) :
    (leavesOf trees).head?.map leaf = some site.place.tree := by
  have leaves := congrArg List.head? (tokensOf_trees start above trees)
  rwa [List.head?_map, List.head?_map, first, eq_comm] at leaves

theorem last_leaf (last : (tokensOf start above trees).getLast? = some site) :
    (leavesOf trees).getLast?.map leaf = some site.place.tree := by
  have leaves := congrArg List.getLast? (tokensOf_trees start above trees)
  rwa [List.getLast?_map, List.getLast?_map, last, eq_comm] at leaves

private theorem tokensOf_nil (empty : tokensOf start above trees = []) : lengthOf trees = 0 := by
  have leaves := tokensOf_trees start above trees
  rw [empty] at leaves
  rw [lengthOf_eq_total_leavesOf, List.map_eq_nil_iff.mp leaves.symm]
  rfl

/-- The first of some tokens begins where all of them do. It stands among them by itself, or a node begins with it. -/
private theorem first_leads (first : (tokensOf start above trees).head? = some site) :
    site.place.start = start ∧ (site.above = above ∨ Leads site) := by
  induction trees using forest_induction generalizing start above with
  | nil => cases first
  | leaf token rest =>
    obtain rfl := Option.some.inj first
    exact ⟨rfl, .inl rfl⟩
  | node kind children rest inside ih =>
    rw [tokensOf_node, List.head?_append] at first
    cases held : (tokensOf start (⟨start, .node kind children⟩ :: above) children).head? with
    | none =>
      rw [held, tokensOf_nil (List.head?_eq_none_iff.mp held)] at first
      exact ih first
    | some token =>
      rw [held] at first
      obtain rfl := Option.some.inj first
      obtain ⟨begins, own | leads⟩ := inside held
      · exact ⟨begins, .inr ⟨_, above, own, begins.symm, first_leaf held⟩⟩
      · exact ⟨begins, .inr leads⟩

/-- The last of some tokens ends where all of them do, as do the nodes among them that it is in. -/
private theorem last_leaves (last : (tokensOf start above trees).getLast? = some site) :
    site.place.stop = start + lengthOf trees ∧ Leaves site above := by
  induction trees using forest_induction generalizing start above with
  | nil => cases last
  | leaf token rest ih =>
    rw [tokensOf_leaf, List.getLast?_cons] at last
    rw [lengthOf, ← Nat.add_assoc]
    cases held : (tokensOf (start + token.length) above rest).getLast? with
    | none =>
      rw [held] at last
      obtain rfl := Option.some.inj last
      rw [tokensOf_nil (List.getLast?_eq_none_iff.mp held)]
      exact ⟨rfl, [], rfl, nofun⟩
    | some token =>
      rw [held] at last
      obtain rfl := Option.some.inj last
      exact ih held
  | node kind children rest inside ih =>
    rw [tokensOf_node, List.getLast?_append] at last
    rw [lengthOf, ← Nat.add_assoc]
    cases held : (tokensOf (start + lengthOf children) above rest).getLast? with
    | none =>
      rw [held] at last
      obtain ⟨ends, leaves⟩ := inside last
      rw [tokensOf_nil (List.getLast?_eq_none_iff.mp held)]
      exact ⟨ends, leaves.outward ends.symm⟩
    | some token =>
      rw [held] at last
      obtain rfl := Option.some.inj last
      exact ih held

private theorem tokensOf_follow (start : Nat) (above : List Placed) (trees : List Tree) :
    (tokensOf start above trees).IsChain Follows := by
  induction trees using forest_induction generalizing start above with
  | nil => exact .nil
  | leaf token rest ih =>
    rw [tokensOf_leaf]
    refine List.isChain_append.mpr ⟨.singleton _, ih _ above, fun site last next first => ?_⟩
    obtain rfl := Option.some.inj last
    rcases (first_leads first).2 with same | leads
    · exact .inl ⟨[], same.symm, nofun⟩
    · exact .inr leads
  | node kind children rest inside ih =>
    rw [tokensOf_node]
    refine List.isChain_append.mpr ⟨inside _ _, ih _ above, fun site last next first => ?_⟩
    rcases (first_leads first).2 with same | leads
    · obtain ⟨ends, leaves⟩ := last_leaves last
      rw [Follows, same]
      exact .inl (leaves.outward ends.symm)
    · exact .inr leads

theorem tokenSites_eq (tree : Tree) : tree.tokenSites = tokensOf 0 [] [tree] := by
  rw [tokensOf, sitesOf, sitesOf, List.append_nil]
  rfl

/-- Every token of a tree follows the one before it. -/
theorem tokenSites_follow (tree : Tree) : tree.tokenSites.IsChain Follows :=
  tree.tokenSites_eq ▸ tokensOf_follow 0 [] [tree]

end Tree

private theorem Tiles.meet {start stop : Nat} {spans : List Text.Span} (tiles : Tiles start stop spans) :
    spans.IsChain fun span next => span.stop = next.start := by
  induction tiles with
  | none => exact .nil
  | next wide further ih =>
    cases further with
    | none => exact .singleton _
    | next => exact .cons_cons rfl ih

/-- Every token of a text begins where the one before it ends. -/
theorem parse_tokens_meet (limit : Nat) (source : String) :
    (parse limit source).tree.tokenSites.IsChain fun site next => site.place.stop = next.place.start :=
  (List.isChain_map _).mp (parse_tokens_tile limit source).meet

/-- So do trees that stand side by side. -/
theorem Placed.line_meet (start : Nat) (trees : List Tree) :
    (line start trees).IsChain fun place next => place.stop = next.start := by
  induction trees generalizing start with
  | nil => exact .nil
  | cons tree rest ih =>
    cases rest with
    | nil => exact .singleton _
    | cons => exact .cons_cons rfl (ih _)

end TreeQuery.Syntax
