import TreeQuery.Proofs.UnhandledContexts

/-! Fields that wait for their value. From the colon of such a field up to the next word the cursor is at
the colon, whatever the blank space between them belongs to. -/

namespace TreeQuery.Syntax

/-- Every place in what is tiled is in one of the tiles. -/
private theorem Tiles.covers {start stop offset : Nat} {spans : List Text.Span} (tiles : Tiles start stop spans)
    (after : start < offset) (within : offset ≤ stop) : ∃ span ∈ spans, span.start < offset ∧ offset ≤ span.stop := by
  induction tiles with
  | none => omega
  | @next start middle stop rest wide further ih =>
    by_cases inside : offset ≤ middle
    · exact ⟨⟨start, middle⟩, List.mem_cons_self, after, inside⟩
    · obtain ⟨span, member, bounds⟩ := ih (by omega) within
      exact ⟨span, List.mem_cons_of_mem _ member, bounds⟩

end TreeQuery.Syntax

namespace TreeQuery.Completion
open Syntax

section Colons

variable {root : Tree} {before blanks : List Site} {token : Placed}

/-- The colon that is the last word of some tokens, if its field has no value. -/
def waitingColon? (before : List Site) : Option Site := do
  let colon ← (before.reverse.dropWhile (·.place.kind.isTrivia)).head?
  let field ← colon.above.head?
  if colon.place.kind = .token .colon && field.isNode .fieldDefinition && field.value?.isNone then some colon
  else Option.none

private theorem danglingColon?_eq (root : Tree) (token : Placed) :
    danglingColon? root token = waitingColon? (root.tokenSites.takeWhile (·.place.start < token.start)) := rfl

theorem waitingColon?_blanks (blank : ∀ site ∈ blanks, site.place.kind.isTrivia = true) :
    waitingColon? (before ++ blanks) = waitingColon? before := by
  have passed : ∀ site ∈ blanks.reverse, site.place.kind.isTrivia = true := fun site member =>
    blank site (List.mem_reverse.mp member)
  rw [waitingColon?, waitingColon?, List.reverse_append, List.dropWhile_append_of_pos passed]

theorem last_word {word : Site} (solid : word.place.kind.isTrivia = false) :
    (before ++ [word]).reverse.dropWhile (·.place.kind.isTrivia) = word :: before.reverse := by
  rw [List.reverse_append, List.reverse_singleton, List.singleton_append]
  exact List.dropWhile_cons_of_neg (by simp [solid])

private theorem waitingColon?_colon {colon : Site} {field : Placed} {above : List Placed}
    (mark : colon.place.kind = .token .colon)
    (own : colon.above = field :: above) (shape : field.isNode .fieldDefinition = true) (waits : field.value? = none) :
    waitingColon? (before ++ [colon]) = some colon := by
  rw [waitingColon?, last_word (by rw [mark]; rfl)]
  simp [own, mark, shape, waits]

theorem closesConstruct_blank {site : Site} (blank : site.place.kind.isTrivia = true) : closesConstruct site = false := by
  unfold closesConstruct
  split
  all_goals first
    | rfl
    | next shape =>
      rw [shape] at blank
      cases blank

end Colons

section Parsed

variable {limit offset : Nat} {source : String} {site colon : Site} {place holder field : Placed} {above : List Placed}
  {before after : List Site}

theorem parse_token_covers (limit : Nat) (after : 0 < offset) (within : offset ≤ source.utf8ByteSize) :
    ∃ site ∈ (parse limit source).tree.tokenSites, site.place.start < offset ∧ offset ≤ site.place.stop := by
  obtain ⟨span, member, bounds⟩ := (parse_tokens_tile limit source).covers after within
  obtain ⟨site, among, rfl⟩ := List.mem_map.mp member
  exact ⟨site, among, bounds⟩

/-- The tokens on both sides of one, told by where they stand. -/
theorem parse_split (split : (parse limit source).tree.tokenSites = before ++ site :: after) :
    (∀ earlier ∈ before, earlier.place.start < site.place.start ∧ earlier.place.stop ≤ site.place.start) ∧
      ∀ later ∈ after, site.place.stop ≤ later.place.start := by
  have apart := parse_tokens_apart limit source
  rw [split, List.pairwise_append, List.pairwise_cons] at apart
  refine ⟨fun earlier member => ?_, apart.2.1.1⟩
  have among : earlier ∈ (parse limit source).tree.tokenSites := split ▸ List.mem_append_left _ member
  have wide := parse_token_wide among
  have ordered := apart.2.2 earlier member site List.mem_cons_self
  exact ⟨by omega, ordered⟩

theorem danglingColon?_parse (split : (parse limit source).tree.tokenSites = before ++ site :: after) :
    danglingColon? (parse limit source).tree site.place = waitingColon? before := by
  have earlier : ∀ other ∈ before, decide (other.place.start < site.place.start) = true := fun other member =>
    decide_eq_true ((parse_split split).1 other member).1
  have ends : List.takeWhile (fun other : Site => decide (other.place.start < site.place.start)) (site :: after) = [] :=
    List.takeWhile_cons_of_neg (by simp)
  rw [danglingColon?_eq, split, List.takeWhile_append_of_pos earlier, ends, List.append_nil]

private theorem nests_parts {kind inner : NodeKind} (nests : inner.nests = true) (part : .node inner ∈ kind.parts) :
    kind.nests = true ∨ kind = .program := by
  revert part
  cases inner with
  | namedNode | grouping | list | fieldDefinition => cases kind <;> decide
  | _ => cases nests

/-- What nests patterns stands in the query itself or in something that nests patterns too. -/
theorem above_nesting (lineage : Lineage ⟨0, (parse limit source).tree⟩ (place :: above))
    (nests : place.kind.nests = true) (inside : holder ∈ above) : holder.kind.nests = true ∨ holder.kind = .node .program := by
  induction above generalizing place with
  | nil => cases inside
  | cons first rest ih =>
    obtain ⟨kind, made⟩ := lineage.above_nodes first List.mem_cons_self
    cases shape : place.kind with
    | token word => rw [shape] at nests; cases nests
    | node inner =>
      rw [shape] at nests
      have part := parse_parts lineage made (by rw [shape]; rfl)
      rw [shape] at part
      rcases nests_parts nests part with around | rfl
      · rcases List.mem_cons.mp inside with rfl | further
        · exact .inl (by rw [made]; exact around)
        · exact ih lineage.tail (by rw [made]; exact around) further
      · rw [program_last lineage.tail made, List.mem_singleton] at inside
        exact .inr (inside ▸ made)

/-- A cursor at the colon of a field is where its value goes. -/
private theorem contextOf_colon (lineage : Lineage ⟨0, (parse limit source).tree⟩ (place :: field :: above))
    (mark : place.kind = .token .colon) (shape : field.kind = .node .fieldDefinition) :
    contextOf (place :: field :: above) = fieldValueIn true field above := by
  have nests : field.kind.nests = true := by rw [shape]; rfl
  have silent : (place :: field :: above).any (·.kind = .token .comment) = false := by
    simp only [List.any_eq_false, List.mem_cons, decide_eq_true_eq]
    rintro other (rfl | inside) comment
    · rw [mark] at comment
      cases comment
    · obtain ⟨kind, made⟩ := lineage.above_nodes other (List.mem_cons.mpr inside)
      rw [made] at comment
      cases comment
  have outside : (place :: field :: above).any (·.isNode .predicate) = false := by
    simp only [List.any_eq_false, List.mem_cons, Placed.isNode, decide_eq_true_eq]
    rintro other (rfl | rfl | inside) invokes
    · rw [mark] at invokes
      cases invokes
    · rw [shape] at invokes
      cases invokes
    · rcases above_nesting lineage.tail nests inside with around | whole
      · rw [invokes] at around
        cases around
      · rw [invokes] at whole
        cases whole
  have dispatched : Dispatched (place :: field :: above) field above place (field :: above) := by
    refine ⟨silent, ?_, ?_, ?_, ?_⟩
    · exact List.dropWhile_cons_of_neg (by simp [mark, isTerminal])
    · simp [mark, shape, isEnclosing]
    · simp [mark]
    · rw [outside]
      rfl
  rw [dispatched.contextOf_eq]
  simp [contextIn, mark, shape]

/-- A cursor right after such a colon, or in blank space after it, is at the colon. -/
private theorem chainAt?_waiting (member : colon ∈ (parse limit source).tree.tokenSites) (mark : colon.place.kind = .token .colon)
    (own : colon.above = field :: above) (shape : field.isNode .fieldDefinition = true) (waits : field.value? = none)
    (after : colon.place.stop ≤ offset) (within : offset ≤ source.utf8ByteSize)
    (before : ∀ token ∈ (parse limit source).tree.tokenSites, colon.place.stop ≤ token.place.start →
      token.place.kind.isTrivia = false → offset ≤ token.place.start)
    (plain : ∀ token ∈ (parse limit source).tree.tokenSites, token.place.kind = .token .comment →
      ¬ (token.place.start < offset ∧ offset ≤ token.place.stop)) :
    chainAt? (parse limit source).tree offset = some (colon.place :: colon.above) := by
  have wide := parse_token_wide member
  by_cases here : offset = colon.place.stop
  · have told := tokenBefore?_parse member (by omega) (Nat.le_of_eq here)
    simp [chainAt?, told, closesConstruct, mark, Kind.isTrivia, TokenKind.isTrivia]
  · obtain ⟨site, among, begins, ends⟩ := parse_token_covers limit (by omega) within
    have told := tokenBefore?_parse among begins ends
    obtain ⟨front, later, split⟩ := List.append_of_mem member
    have order := parse_split split
    have between : site ∈ later := by
      rw [split, List.mem_append, List.mem_cons] at among
      rcases among with earlier | rfl | later
      · have ended := (order.1 site earlier).2
        omega
      · omega
      · exact later
    have spot := order.2 site between
    have blank : site.place.kind.isTrivia = true := by
      by_contra solid
      have bound := before site among spot (Bool.eq_false_iff.mpr solid)
      omega
    have wordless : site.place.kind ≠ .token .comment := fun comment => plain site among comment ⟨begins, ends⟩
    obtain ⟨blanks, rest, split'⟩ := List.append_of_mem between
    have whole : (parse limit source).tree.tokenSites = ((front ++ [colon]) ++ blanks) ++ site :: rest := by
      simp [split, split']
    have trivia : ∀ token ∈ blanks, token.place.kind.isTrivia = true := by
      intro token inside
      by_contra solid
      have known : token ∈ later := split' ▸ List.mem_append_left _ inside
      have listed : token ∈ (parse limit source).tree.tokenSites := by simp [split, known]
      have bound := before token listed (order.2 token known) (Bool.eq_false_iff.mpr solid)
      have ordered := (parse_split whole).1 token (List.mem_append_right _ inside)
      omega
    have found : danglingColon? (parse limit source).tree site.place = some colon := by
      rw [danglingColon?_parse whole, waitingColon?_blanks trivia, waitingColon?_colon mark own shape waits]
    simp [chainAt?, told, closesConstruct_blank blank, blank, wordless, found]

private theorem parentKind?_find (above : List Placed) : parentKind? above =
    (above.find? (·.isNode .namedNode)).bind fun named =>
      if named.isWildcard then none else named.kindName?.map Placed.text := by
  rw [parentKind?_eq, nearestNamed?]
  cases found : above.find? (·.isNode .namedNode) with
  | none => rfl
  | some named => simp [kindOf?, List.find?_some found]

/-- From the colon of a field without a value up to the next word, comments apart, the value of that field is
offered, in the nearest named node above it. -/
theorem waiting_field_recognised (member : site ∈ (parse limit source).tree.nodeSites)
    (shape : site.place.isNode .fieldDefinition = true) (waits : site.place.value? = none) :
    ∃ name, site.place.identifier? = some name ∧ (∃ colon ∈ site.place.children, colon.kind = .token .colon) ∧
      ∀ colon ∈ site.place.children, colon.kind = .token .colon → ∀ offset, colon.stop ≤ offset →
        offset ≤ source.utf8ByteSize →
        (∀ token ∈ (parse limit source).tree.tokenSites, colon.stop ≤ token.place.start →
          token.place.kind.isTrivia = false → offset ≤ token.place.start) →
        (∀ token ∈ (parse limit source).tree.tokenSites, token.place.kind = .token .comment →
          ¬ (token.place.start < offset ∧ offset ≤ token.place.stop)) →
        classify (parse limit source).tree offset = .fieldValue true name.text
          ((site.above.find? (·.isNode .namedNode)).bind fun named =>
            if named.isWildcard then none else named.kindName?.map Placed.text) := by
  have inside := (List.mem_filter.mp member).1
  have fits := parse_fits inside (of_decide_eq_true shape)
  obtain ⟨name, named⟩ := Option.isSome_iff_exists.mp (fieldName?_isSome fits)
  refine ⟨name, named, ?_, fun colon own mark offset after within before plain => ?_⟩
  · obtain ⟨_, rfl, _, ⟨_, rfl, _, _, rfl⟩, same⟩ := Shape.mem_seq.mp fits
    exact Placed.child_of_row (same ▸ by simp)
  · have held : ⟨colon, site.place :: site.above⟩ ∈ (parse limit source).tree.tokenSites :=
      List.mem_filter.mpr ⟨Tree.sites_child 0 [] own _ inside, by simp [Site.isToken, mark]⟩
    have wide : colon.start < colon.stop := parse_token_wide held
    have located := chainAt?_waiting held mark rfl shape waits after within before plain
    rw [classify, if_neg (by omega), if_neg (by rw [parse_length]; omega), located]
    change contextOf (colon :: site.place :: site.above) = _
    rw [contextOf_colon (Tree.token_lineage held) mark (of_decide_eq_true shape), fieldValueIn, named, parentKind?_find]

end Parsed

/-- In `(a b: ;x` with a line break and a blank after it, before the closer of the node. -/
theorem value_after_comment : ∃ site ∈ (parse 8 "(a b: ;x\n )").tree.nodeSites, ∃ colon ∈ site.place.children,
    site.place.isNode .fieldDefinition = true ∧ site.place.value? = none ∧ colon.kind = .token .colon ∧ colon.stop = 5 ∧
      ∃ name, site.place.identifier? = some name ∧ classify (parse 8 "(a b: ;x\n )").tree 10 = .fieldValue true name.text
        ((site.above.find? (·.isNode .namedNode)).bind fun named =>
          if named.isWildcard then none else named.kindName?.map Placed.text) := by
  have found : ∃ site ∈ (parse 8 "(a b: ;x\n )").tree.nodeSites, ∃ colon ∈ site.place.children,
      site.place.isNode .fieldDefinition = true ∧ site.place.value? = none ∧ colon.kind = .token .colon ∧ colon.stop = 5 := by
    decide +kernel
  obtain ⟨site, member, colon, own, shape, waits, mark, ends⟩ := found
  obtain ⟨name, named, _, recognised⟩ := waiting_field_recognised member shape waits
  refine ⟨site, member, colon, own, shape, waits, mark, ends, name, named, ?_⟩
  refine recognised colon own mark 10 (by omega) (by decide) ?_ (by decide +kernel)
  rw [ends]
  decide +kernel

end TreeQuery.Completion
