import TreeQuery.Proofs.ParserLeaves

/-! Where the parts of a tree stand. A site is reached from the root by going from a node to one of
its children, and the tokens of a parsed text stand apart, so that a place in the text tells them. -/

namespace TreeQuery.Syntax

/-- A place in a tree, then the nodes above it up to the root. -/
inductive Lineage (root : Placed) : List Placed → Prop
  | root : Lineage root [root]
  | child {child holder : Placed} {above : List Placed} (lineage : Lineage root (holder :: above))
    (inside : child ∈ holder.children) : Lineage root (child :: holder :: above)

namespace Tree

variable {root : Placed} {site : Site} {child : Placed}

private theorem self_mem_sites (start : Nat) (above : List Placed) (tree : Tree) :
    ⟨⟨start, tree⟩, above⟩ ∈ tree.sites start above := by
  cases tree with
  | leaf => exact List.mem_singleton.mpr rfl
  | node => exact List.mem_cons_self

theorem line_mem_sitesOf (start : Nat) (above : List Placed) (trees : List Tree) (member : child ∈ Placed.line start trees) :
    ⟨child, above⟩ ∈ sitesOf start above trees := by
  induction trees generalizing start with
  | nil => cases member
  | cons tree rest ih =>
    rcases List.mem_cons.mp member with rfl | later
    · exact List.mem_append_left _ (self_mem_sites start above tree)
    · exact List.mem_append_right _ (ih _ later)

mutual

theorem sites_child (start : Nat) (above : List Placed) (inside : child ∈ site.place.children) : (tree : Tree) →
    site ∈ tree.sites start above → ⟨child, site.place :: site.above⟩ ∈ tree.sites start above
  | leaf _, member => by
    obtain rfl := List.mem_singleton.mp member
    cases inside
  | node kind children, member => by
    rcases List.mem_cons.mp member with rfl | below
    · exact List.mem_cons_of_mem _ (line_mem_sitesOf start _ children inside)
    · exact List.mem_cons_of_mem _ (sitesOf_child start _ inside children below)

private theorem sitesOf_child (start : Nat) (above : List Placed) (inside : child ∈ site.place.children) : (trees : List Tree) →
    site ∈ sitesOf start above trees → ⟨child, site.place :: site.above⟩ ∈ sitesOf start above trees
  | [], member => nomatch member
  | tree :: rest, member => by
    rcases List.mem_append.mp member with first | later
    · exact List.mem_append_left _ (sites_child start above inside tree first)
    · exact List.mem_append_right _ (sitesOf_child _ above inside rest later)

end

mutual

private theorem sites_lineage (start : Nat) (above : List Placed) : (tree : Tree) → Lineage root (⟨start, tree⟩ :: above) →
    site ∈ tree.sites start above → Lineage root (site.place :: site.above)
  | leaf _, lineage, member => by
    obtain rfl := List.mem_singleton.mp member
    exact lineage
  | node kind children, lineage, member => by
    rcases List.mem_cons.mp member with rfl | below
    · exact lineage
    · exact sitesOf_lineage start _ children (fun _ => .child lineage) below

private theorem sitesOf_lineage (start : Nat) (above : List Placed) : (trees : List Tree) →
    (∀ child ∈ Placed.line start trees, Lineage root (child :: above)) → site ∈ sitesOf start above trees →
    Lineage root (site.place :: site.above)
  | [], _, member => nomatch member
  | tree :: rest, lineages, member => by
    rcases List.mem_append.mp member with first | later
    · exact sites_lineage start above tree (lineages _ List.mem_cons_self) first
    · exact sitesOf_lineage _ above rest (fun child inside => lineages child (List.mem_cons_of_mem _ inside)) later

end

theorem sitesOf_append (start : Nat) (above : List Placed) (trees later : List Tree) :
    sitesOf start above (trees ++ later) = sitesOf start above trees ++ sitesOf (start + lengthOf trees) above later := by
  induction trees generalizing start with
  | nil => rfl
  | cons tree rest ih => simp only [List.cons_append, sitesOf, lengthOf, ih, List.append_assoc, Nat.add_assoc]

mutual

private theorem above_of_sites (start : Nat) (above : List Placed) : (tree : Tree) → site ∈ tree.sites start above →
    above <:+ site.above
  | leaf _, member => by
    obtain rfl := List.mem_singleton.mp member
    exact List.suffix_refl _
  | node kind children, member => by
    rcases List.mem_cons.mp member with rfl | below
    · exact List.suffix_refl _
    · exact (List.suffix_cons _ above).trans (above_of_sitesOf start _ children below)

theorem above_of_sitesOf (start : Nat) (above : List Placed) : (trees : List Tree) → site ∈ sitesOf start above trees →
    above <:+ site.above
  | [], member => nomatch member
  | tree :: rest, member => by
    rcases List.mem_append.mp member with first | later
    · exact above_of_sites start above tree first
    · exact above_of_sitesOf _ above rest later

end

theorem mem_sites_iff (tree : Tree) : site ∈ tree.sites 0 [] ↔ Lineage ⟨0, tree⟩ (site.place :: site.above) := by
  constructor
  · exact sites_lineage 0 [] tree .root
  · intro lineage
    obtain ⟨place, above⟩ := site
    induction above generalizing place with
    | nil =>
      cases lineage
      exact self_mem_sites 0 [] tree
    | cons holder above ih =>
      cases lineage with
      | child lineage inside => exact sites_child 0 [] inside tree (ih holder lineage)

end Tree

variable {root child holder : Placed} {above : List Placed}

theorem Placed.mem_line {start : Nat} {trees : List Tree} (member : child ∈ line start trees) : child.tree ∈ trees := by
  induction trees generalizing start with
  | nil => cases member
  | cons tree rest ih =>
    rcases List.mem_cons.mp member with rfl | later
    · exact List.mem_cons_self
    · exact List.mem_cons_of_mem _ (ih later)

private theorem Placed.line_leaves {start : Nat} {trees : List Tree} (member : child ∈ line start trees) :
    ∃ before after, Tree.leavesOf trees = before ++ (child.tree.leaves ++ after) ∧
      child.start = start + Text.total Token.length before := by
  induction trees generalizing start with
  | nil => cases member
  | cons tree rest ih =>
    rcases List.mem_cons.mp member with rfl | later
    · exact ⟨[], Tree.leavesOf rest, rfl, rfl⟩
    · obtain ⟨before, after, leaves, begins⟩ := ih later
      refine ⟨tree.leaves ++ before, after, ?_, ?_⟩
      · rw [Tree.leavesOf, leaves, List.append_assoc]
      · rw [begins, Text.total_append, ← Tree.length_eq_total_leaves, Nat.add_assoc]

theorem Placed.child_leaves (inside : child ∈ holder.children) :
    ∃ before after, holder.tree.leaves = before ++ (child.tree.leaves ++ after) ∧
      child.start = holder.start + Text.total Token.length before := by
  obtain ⟨start, tree⟩ := holder
  cases tree with
  | leaf => cases inside
  | node => exact line_leaves inside

private theorem Placed.child_smaller (inside : child ∈ holder.children) : sizeOf child.tree < sizeOf holder.tree := by
  obtain ⟨start, tree⟩ := holder
  cases tree with
  | leaf => cases inside
  | node kind children =>
    have smaller : sizeOf child.tree < sizeOf children := List.sizeOf_lt_of_mem (Placed.mem_line inside)
    simp only [Tree.node.sizeOf_spec]
    omega

namespace Lineage

private theorem smaller (lineage : Lineage root (child :: above)) : ∀ place ∈ above, sizeOf child.tree < sizeOf place.tree := by
  induction above generalizing child with
  | nil => exact nofun
  | cons holder above ih =>
    cases lineage with
    | child lineage inside =>
      have below := Placed.child_smaller inside
      intro place member
      rcases List.mem_cons.mp member with rfl | further
      · exact below
      · exact Nat.lt_trans below (ih lineage place further)

/-- A place is not among the nodes above it. -/
theorem not_mem_above (lineage : Lineage root (child :: above)) : child ∉ above :=
  fun member => Nat.lt_irrefl _ (lineage.smaller child member)

/-- Only the innermost place can be a token. -/
theorem above_nodes (lineage : Lineage root (child :: above)) : ∀ place ∈ above, ∃ kind, place.kind = .node kind := by
  induction above generalizing child with
  | nil => exact nofun
  | cons holder above ih =>
    cases lineage with
    | child lineage inside =>
      intro place member
      rcases List.mem_cons.mp member with rfl | further
      · obtain ⟨start, tree⟩ := place
        cases tree with
        | leaf => cases inside
        | node kind => exact ⟨kind, rfl⟩
      · exact ih lineage place further

/-- The tokens of a place stand together among those of the root, and it begins where they do. -/
theorem leaves (lineage : Lineage root (child :: above)) : ∃ before after,
    root.tree.leaves = before ++ (child.tree.leaves ++ after) ∧
      child.start = root.start + Text.total Token.length before := by
  induction above generalizing child with
  | nil =>
    cases lineage
    exact ⟨[], [], (List.append_nil _).symm, rfl⟩
  | cons holder above ih =>
    cases lineage with
    | child lineage inside =>
      obtain ⟨before, after, holders, begins⟩ := ih lineage
      obtain ⟨left, right, leaves, offset⟩ := Placed.child_leaves inside
      rw [leaves] at holders
      refine ⟨before ++ left, right ++ after, by simp only [holders, List.append_assoc], ?_⟩
      rw [offset, begins, Text.total_append, Nat.add_assoc]

/-- A place begins and ends between tokens. -/
theorem cuts {tree : Tree} (lineage : Lineage ⟨0, tree⟩ (child :: above)) :
    Cut tree.leaves child.start ∧ Cut tree.leaves child.stop := by
  obtain ⟨before, after, leaves, begins⟩ := lineage.leaves
  rw [Nat.zero_add] at begins
  refine ⟨⟨before, _, leaves, begins⟩, before ++ child.tree.leaves, after, by rw [leaves, List.append_assoc], ?_⟩
  rw [Placed.stop, begins, Text.total_append, Tree.length_eq_total_leaves]

theorem tail (lineage : Lineage root (child :: holder :: above)) : Lineage root (holder :: above) := by
  cases lineage with
  | child lineage => exact lineage

theorem inside (lineage : Lineage root (child :: holder :: above)) : child ∈ holder.children := by
  cases lineage with
  | child _ inside => exact inside

theorem of_suffix {places : List Placed} (lineage : Lineage root places) (suffix : child :: above <:+ places) :
    Lineage root (child :: above) := by
  induction lineage with
  | root =>
    have same := List.suffix_cons_iff.mp suffix
    simp only [List.suffix_nil, reduceCtorEq, or_false] at same
    rw [same]
    exact .root
  | child lineage inside ih =>
    rcases List.suffix_cons_iff.mp suffix with same | within
    · rw [same]
      exact .child lineage inside
    · exact ih within

theorem last {places : List Placed} (lineage : Lineage root places) : places.getLast? = some root := by
  induction lineage with
  | root => rfl
  | child _ _ ih => rwa [List.getLast?_cons_cons]

theorem mem_sites {tree : Tree} (lineage : Lineage ⟨0, tree⟩ (child :: above)) : ⟨child, above⟩ ∈ tree.sites 0 [] :=
  (Tree.mem_sites_iff tree).mpr lineage

end Lineage

namespace Tree

variable {tree : Tree} {site : Site} {place : Placed} (member : site ∈ tree.tokenSites)
include member

theorem token_lineage : Lineage ⟨0, tree⟩ (site.place :: site.above) :=
  (mem_sites_iff tree).mp (List.mem_filter.mp member).1

theorem node_above_token {kind : NodeKind} (inside : place ∈ site.place :: site.above) (made : place.kind = .node kind) :
    place ∈ site.above := by
  rcases List.mem_cons.mp inside with rfl | above
  · have isToken := (List.mem_filter.mp member).2
    simp [Site.isToken, made] at isToken
  · exact above

theorem token_below_nodes {kind : TokenKind} (inside : place ∈ site.place :: site.above) (word : place.kind = .token kind) :
    place = site.place := by
  rcases List.mem_cons.mp inside with here | above
  · exact here
  · obtain ⟨other, shape⟩ := (token_lineage member).above_nodes place above
    rw [word] at shape
    cases shape

end Tree

theorem Tiles.ordered {start stop : Nat} {spans : List Text.Span} (tiles : Tiles start stop spans) :
    (∀ span ∈ spans, start ≤ span.start ∧ span.start < span.stop) ∧
      spans.Pairwise fun left right => left.stop ≤ right.start := by
  induction tiles with
  | none => exact ⟨nofun, .nil⟩
  | @next start middle stop rest wide further ih =>
    obtain ⟨within, apart⟩ := ih
    refine ⟨fun span member => ?_, .cons (fun span member => (within span member).1) apart⟩
    rcases List.mem_cons.mp member with rfl | later
    · exact ⟨Nat.le_refl _, wide⟩
    · have bounds := within span later
      omega

theorem Tiles.stop_le {start stop : Nat} {spans : List Text.Span} (tiles : Tiles start stop spans) :
    start ≤ stop ∧ ∀ span ∈ spans, span.stop ≤ stop := by
  induction tiles with
  | none => exact ⟨Nat.le_refl _, nofun⟩
  | next wide further ih =>
    obtain ⟨least, within⟩ := ih
    refine ⟨by omega, fun span member => ?_⟩
    rcases List.mem_cons.mp member with rfl | later
    · exact least
    · exact within span later

private theorem Tiles.last_stop {start stop : Nat} {spans : List Text.Span} {span : Text.Span} (tiles : Tiles start stop spans)
    (last : spans.getLast? = some span) : span.stop = stop := by
  induction tiles with
  | none => cases last
  | next wide further ih =>
    cases further with
    | none => cases last; rfl
    | next wider onward => exact ih (by rwa [List.getLast?_cons_cons] at last)

section Tokens

variable {limit : Nat} {source : String} {site other : Site}

theorem parse_tokens_tile (limit : Nat) (source : String) :
    Tiles 0 source.utf8ByteSize ((parse limit source).tree.tokenSites.map (·.place.span)) := by
  have tokens := Tree.sites_tokens 0 [] (parse limit source).tree
  rw [parse_leaves] at tokens
  have spans := congrArg (List.map Prod.snd) tokens
  simp only [Site.tokens, List.map_map, Function.comp_def] at spans
  rw [Tree.tokenSites, spans]
  exact Token.ofText_tiles source

theorem parse_token_wide (member : site ∈ (parse limit source).tree.tokenSites) : site.place.start < site.place.stop :=
  ((parse_tokens_tile limit source).ordered.1 _ (List.mem_map_of_mem member)).2

theorem parse_token_within (member : site ∈ (parse limit source).tree.tokenSites) :
    site.place.stop ≤ source.utf8ByteSize :=
  (parse_tokens_tile limit source).stop_le.2 _ (List.mem_map_of_mem member)

theorem parse_tokens_apart (limit : Nat) (source : String) :
    (parse limit source).tree.tokenSites.Pairwise fun left right => left.place.stop ≤ right.place.start :=
  List.pairwise_map.mp (parse_tokens_tile limit source).ordered.2

theorem parse_length (limit : Nat) (source : String) : (parse limit source).tree.length = source.utf8ByteSize := by
  rw [Tree.length_eq_total_leaves, ← Token.length_join, parse_leaves]
  exact congrArg String.utf8ByteSize (Token.ofText_joins source)

/-- The last token of a text ends where the text does. -/
theorem last_token_stop (limit : Nat) (source : String) {site : Site}
    (last : (parse limit source).tree.tokenSites.getLast? = some site) : site.place.stop = source.utf8ByteSize := by
  have spans := congrArg (Option.map (·.place.span)) last
  rw [← List.getLast?_map] at spans
  exact (parse_tokens_tile limit source).last_stop spans

end Tokens

end TreeQuery.Syntax
