import TreeQuery.Proofs.ParserShapes
import TreeQuery.Proofs.TreeSites

/-! Every node of a parsed text has the shape declared for its kind, however broken the text is and
wherever parsing stopped. What a construct has to have is therefore always there to be read off. -/

namespace TreeQuery.Syntax
open Shape

def Kind.nests : Kind → Bool
  | .node kind => kind.nests
  | .token _ => false

/-- How deep patterns nest around a place. -/
def nesting (above : List Placed) : Nat := above.countP (·.kind.nests)

/-- Whether a site is an error in place of a pattern that would nest deeper than the limit. -/
def cutOff (limit : Nat) (site : Site) : Bool :=
  site.place.isNode .error && nesting site.above == limit && opensPattern site.place.tree.children

variable {stray deep : Prop} {room start limit : Nat} {above : List Placed} {trees children : List Tree} {kind : NodeKind}
  {site other : Site} {place : Placed}

private theorem nesting_cons (above : List Placed) :
    nesting (place :: above) = nesting above + if place.kind.nests then 1 else 0 :=
  List.countP_cons

/-- A level that a node takes is one less for its children. -/
private theorem nesting_inside (start : Nat) (levels : kind.nests = true → 0 < room) :
    kind.inside room + nesting (⟨start, .node kind children⟩ :: above) = room + nesting above := by
  have counted : nesting (⟨start, .node kind children⟩ :: above) = nesting above + if kind.nests then 1 else 0 :=
    nesting_cons above
  rw [counted, NodeKind.inside]
  by_cases nests : kind.nests = true
  · have level := levels nests
    simp only [nests, if_true]
    omega
  · simp [nests]

namespace Tree

mutual

theorem sites_within (start : Nat) (above : List Placed) : (tree : Tree) → site ∈ tree.sites start above →
    start ≤ site.place.start ∧ site.place.stop ≤ start + tree.length
  | leaf _, member => by
    obtain rfl := List.mem_singleton.mp member
    exact ⟨Nat.le_refl _, Nat.le_refl _⟩
  | node kind children, member => by
    rcases List.mem_cons.mp member with rfl | below
    · exact ⟨Nat.le_refl _, Nat.le_refl _⟩
    · exact sitesOf_within start _ children below

theorem sitesOf_within (start : Nat) (above : List Placed) : (trees : List Tree) → site ∈ sitesOf start above trees →
    start ≤ site.place.start ∧ site.place.stop ≤ start + lengthOf trees
  | [], member => nomatch member
  | tree :: rest, member => by
    rw [lengthOf]
    rcases List.mem_append.mp member with first | later
    · have bounds := sites_within start above tree first
      omega
    · have bounds := sitesOf_within _ above rest later
      omega

end

private theorem sitesOf_blank (blank : row trees = []) (member : site ∈ sitesOf start above trees) :
    site.place.kind.isTrivia = true := by
  rw [row_eq_nil] at blank
  induction trees generalizing start with
  | nil => cases member
  | cons tree rest ih =>
    rcases List.mem_append.mp member with first | later
    · have trivia := blank tree List.mem_cons_self
      cases tree with
      | leaf token =>
        obtain rfl := List.mem_singleton.mp first
        exact trivia
      | node kind children => cases trivia
    · exact ih (fun tree inside => blank tree (List.mem_cons_of_mem _ inside)) later

end Tree

/-- Nothing but trivia ends after a site. -/
def LastAmong (sites : List Site) (site : Site) : Prop :=
  ∀ token ∈ sites, token.isToken = true → site.place.stop < token.place.stop → token.place.kind.isTrivia = true

namespace LastAmong

variable {sites more : List Site}

private theorem of_ended (ended : ∀ token ∈ sites, token.place.stop ≤ site.place.stop) : LastAmong sites site :=
  fun token member _ after => absurd after (Nat.not_lt_of_le (ended token member))

private theorem of_before {tree : Tree} {rest : List Tree} (later : site ∈ Tree.sitesOf (start + tree.length) above rest) :
    LastAmong (tree.sites start above) site := by
  apply of_ended
  intro other among
  have ended := Tree.sites_within _ _ _ among
  have begins := Tree.sitesOf_within _ _ _ later
  simp only [Placed.stop] at ended ⊢
  omega

private theorem append (before : LastAmong sites site) (after : LastAmong more site) : LastAmong (sites ++ more) site := by
  intro token member
  rcases List.mem_append.mp member with first | later
  · exact before token first
  · exact after token later

private theorem cons_node (node : other.isToken = false) (after : LastAmong sites site) : LastAmong (other :: sites) site := by
  intro token member isToken
  rcases List.mem_cons.mp member with rfl | later
  · cases node.symm.trans isToken
  · exact after token later isToken

end LastAmong

/-- What is said of a node among others, with the levels left at its place. What is deep comes last. -/
private theorem Formed.of_site (formed : Formed stray room deep trees) (member : site ∈ Tree.sitesOf start above trees)
    (made : site.place.tree = .node kind children) : ∃ left, left + nesting site.above = room + nesting above ∧
      Wellmade stray left (deep ∧ LastAmong (Tree.sitesOf start above trees) site) kind children := by
  induction formed generalizing start above with
  | nil => cases member
  | leaf token after ih =>
    rcases List.mem_append.mp member with here | later
    · obtain rfl := List.mem_singleton.mp here
      cases made
    · obtain ⟨left, levels, wellmade⟩ := ih later
      exact ⟨left, levels, wellmade.weaken id fun ⟨reached, last⟩ => ⟨reached, (LastAmong.of_before later).append last⟩⟩
  | @node room deep holder inner rest wellmade inside after within beyond =>
    have blank (ends : deep ∧ row rest = []) :
        LastAmong (Tree.sitesOf (start + (Tree.node holder inner).length) above rest) site :=
      fun other among _ _ => Tree.sitesOf_blank ends.2 among
    rcases List.mem_append.mp member with first | later
    · rcases List.mem_cons.mp first with rfl | below
      · cases made
        refine ⟨room, rfl, wellmade.weaken id fun ends => ⟨ends.1, .append (.of_ended ?_) (blank ends)⟩⟩
        intro other among
        exact (Tree.sites_within _ _ _ among).2
      · obtain ⟨left, levels, made⟩ := within below
        refine ⟨left, levels.trans (nesting_inside start wellmade.nests), made.weaken id fun ⟨ends, last⟩ => ?_⟩
        exact ⟨ends.1, .append (.cons_node rfl last) (blank ends)⟩
    · obtain ⟨left, levels, made⟩ := beyond later
      exact ⟨left, levels, made.weaken id fun ⟨reached, last⟩ => ⟨reached, (LastAmong.of_before later).append last⟩⟩

private theorem error_leaves {missing : Bool} (fits : row children ∈ (shape missing .error).matches') :
    ∀ child ∈ children, ∃ token, child = .leaf token := by
  intro child member
  cases child with
  | leaf token => exact ⟨token, rfl⟩
  | node kind inside =>
    have known : .node kind ∈ NodeKind.parts .error := mem_parts fits member rfl
    cases kind <;> exact absurd known (by decide)

private theorem isToken_of_trivia (trivia : site.place.kind.isTrivia = true) : site.isToken = true := by
  unfold Site.isToken
  cases shape : site.place.kind with
  | token kind => rfl
  | node kind => rw [shape] at trivia; cases trivia

private theorem cutOff_iff (made : site.place.tree = .node kind children) : cutOff limit site = true ↔
    kind = .error ∧ nesting site.above = limit ∧ opensPattern children = true := by
  simp [cutOff, Placed.isNode, Placed.kind, made, Tree.kind, Tree.children, and_assoc]

private theorem cutOff_token (token : site.isToken = true) : cutOff limit site = false := by
  have other : site.place.isNode .error = false := by
    cases shape : site.place.kind with
    | token kind => simp [Placed.isNode, shape]
    | node kind => simp [Site.isToken, shape] at token
  rw [cutOff, other]
  rfl

theorem Tree.sitesOf_leaves (leaves : ∀ tree ∈ trees, ∃ token, tree = .leaf token)
    (member : site ∈ Tree.sitesOf start above trees) : site.isToken = true := by
  induction trees generalizing start with
  | nil => cases member
  | cons tree rest ih =>
    rcases List.mem_append.mp member with first | later
    · obtain ⟨token, rfl⟩ := leaves tree List.mem_cons_self
      obtain rfl := List.mem_singleton.mp first
      rfl
    · exact ih (fun tree inside => leaves tree (List.mem_cons_of_mem _ inside)) later

private theorem cutOff_none (tokens : ∀ site ∈ Tree.sitesOf start above trees, site.isToken = true) :
    (Tree.sitesOf start above trees).countP (cutOff limit) = 0 := by
  apply List.countP_eq_zero.mpr
  intro site member
  rw [cutOff_token (tokens site member)]
  exact Bool.false_ne_true

/-- Parsing stops once: there is one error at the limit, and only if something is deep. -/
private theorem Formed.cutOff_once (formed : Formed stray room deep trees) (level : room + nesting above = limit) :
    (Tree.sitesOf start above trees).countP (cutOff limit) ≤ 1 ∧
      (¬ deep → (Tree.sitesOf start above trees).countP (cutOff limit) = 0) := by
  induction formed generalizing start above with
  | nil => exact ⟨Nat.zero_le 1, fun _ => rfl⟩
  | @leaf room deep rest token after ih =>
    have skipped : (Tree.sitesOf start above (.leaf token :: rest)).countP (cutOff limit) =
        (Tree.sitesOf (start + (Tree.leaf token).length) above rest).countP (cutOff limit) :=
      List.countP_cons_of_neg (by rw [cutOff_token rfl]; exact Bool.false_ne_true)
    rw [skipped]
    exact ih level
  | @node room deep holder inner rest wellmade inside after within beyond =>
    let self : Placed := ⟨start, .node holder inner⟩
    let inside := (Tree.sitesOf start (self :: above) inner).countP (cutOff limit)
    let later := (Tree.sitesOf (start + self.tree.length) above rest).countP (cutOff limit)
    have counted : (Tree.sitesOf start above (.node holder inner :: rest)).countP (cutOff limit) =
        inside + (if cutOff limit ⟨self, above⟩ then 1 else 0) + later :=
      List.countP_append.trans (congrArg (· + later) List.countP_cons)
    obtain ⟨once, deeper⟩ : inside ≤ 1 ∧ (¬ (deep ∧ row rest = []) → inside = 0) :=
      within ((nesting_inside start wellmade.nests).trans level)
    obtain ⟨again, further⟩ : later ≤ 1 ∧ (¬ deep → later = 0) := beyond level
    have blank (none : row rest = []) : later = 0 :=
      cutOff_none fun site member => isToken_of_trivia (Tree.sitesOf_blank none member)
    have reached (here : cutOff limit ⟨self, above⟩ = true) : (deep ∧ row rest = []) ∧ inside = 0 := by
      obtain ⟨rfl, depth, opens⟩ := (cutOff_iff rfl).mp here
      have last : room = 0 := by
        simp only at depth
        omega
      have ends := (wellmade.error rfl).resolve_right fun stray => stray.1 ⟨last, opens⟩
      exact ⟨ends.2, cutOff_none fun site member => Tree.sitesOf_leaves (error_leaves wellmade.fits) member⟩
    rw [counted]
    -- What is cut off is this node, or in it, or after it, and each of these leaves nothing for the others.
    by_cases here : cutOff limit ⟨self, above⟩ = true
    · obtain ⟨ends, leaves⟩ := reached here
      have none := blank ends.2
      rw [if_pos here, leaves, none]
      exact ⟨Nat.le_refl 1, fun shallow => absurd ends.1 shallow⟩
    · rw [if_neg here]
      by_cases none : row rest = []
      · rw [blank none]
        exact ⟨once, fun shallow => deeper fun ends => shallow ends.1⟩
      · rw [deeper fun ends => none ends.2]
        exact ⟨by omega, fun shallow => by rw [further shallow]⟩

section Parsed

variable {source : String}

/-- The nodes of a parsed text, each with the levels left at its place. -/
theorem parse_wellmade (member : site ∈ (parse limit source).tree.sites 0 []) (made : site.place.tree = .node kind children) :
    ∃ left, left + nesting site.above = limit ∧ Wellmade ((parse limit source).reports ≠ []) left
      ((parse limit source).reports ≠ [] ∧ LastAmong ((parse limit source).tree.sites 0 []) site) kind children := by
  have whole : Tree.sitesOf 0 [] [(parse limit source).tree] = (parse limit source).tree.sites 0 [] := List.append_nil _
  rw [← whole] at member ⊢
  exact (parse_formed limit source).of_site member made

private theorem parse_cutOff_once (limit : Nat) (source : String) :
    (parse limit source).tree.nodeSites.countP (cutOff limit) ≤ 1 := by
  have whole : Tree.sitesOf 0 [] [(parse limit source).tree] = (parse limit source).tree.sites 0 [] := List.append_nil _
  have once : (Tree.sitesOf 0 [] [(parse limit source).tree]).countP (cutOff limit) ≤ 1 :=
    ((parse_formed limit source).cutOff_once rfl).1
  rw [whole] at once
  exact Nat.le_trans List.filter_sublist.countP_le once

end Parsed

namespace Placed

theorem of_kind (made : place.kind = .node kind) : ∃ children, place.tree = .node kind children := by
  cases tree : place.tree with
  | leaf token => simp [Placed.kind, tree, Tree.kind] at made
  | node other children =>
    obtain rfl : other = kind := by simpa [Placed.kind, tree, Tree.kind] using made
    exact ⟨children, rfl⟩

/-- The children that are not trivia. -/
def solids (place : Placed) : List Placed := place.children.filter (!·.kind.isTrivia)

theorem line_kinds (start : Nat) (trees : List Tree) : (line start trees).map Placed.kind = trees.map Tree.kind := by
  induction trees generalizing start with
  | nil => rfl
  | cons tree rest ih => exact congrArg (tree.kind :: ·) (ih _)

theorem solids_kinds (place : Placed) : place.solids.map Placed.kind = row place.tree.children := by
  rw [row, ← line_kinds place.start, List.filter_map]
  rfl

theorem child_of_row {kind : Kind} (listed : kind ∈ row place.tree.children) : ∃ child ∈ place.children, child.kind = kind := by
  rw [← solids_kinds] at listed
  obtain ⟨child, member, same⟩ := List.mem_map.mp listed
  exact ⟨child, (List.mem_filter.mp member).1, same⟩

private theorem firstToken?_isSome {wanted : TokenKind → Bool} {kind : TokenKind} (listed : .token kind ∈ row place.tree.children)
    (fits : wanted kind = true) : (place.firstToken? wanted).isSome = true := by
  obtain ⟨child, member, same⟩ := child_of_row listed
  refine List.find?_isSome.mpr ⟨child, member, ?_⟩
  rw [same]
  exact fits

private theorem firstNode?_isSome {kind : NodeKind} (listed : .node kind ∈ row place.tree.children) :
    (place.firstNode? kind).isSome = true := by
  obtain ⟨child, member, same⟩ := child_of_row listed
  exact List.find?_isSome.mpr ⟨child, member, decide_eq_true same⟩

private theorem find?_line (wanted : Tree → Bool) (start : Nat) (trees : List Tree) :
    ((line start trees).find? (wanted ·.tree)).map Placed.tree = trees.find? wanted := by
  induction trees generalizing start with
  | nil => rfl
  | cons tree rest ih =>
    cases fits : wanted tree with
    | true => simp [line, fits]
    | false => simpa [line, fits] using ih _

private theorem kindName?_missing (place : Placed) :
    place.kindName?.any (·.text = "MISSING") = readsMissing place.tree.children := by
  have name : place.kindName? = (line place.start place.tree.children).find? fun child =>
      child.tree.kind = .token .identifier || child.tree.kind = .token .underscore := by
    apply congrArg (place.children.find? ·)
    funext child
    cases shape : child.tree.kind <;> simp [Placed.kind, shape]
  rw [name, readsMissing, ← find?_line _ place.start, Option.any_map]
  rfl

private theorem subtype?_solids (place : Placed) : place.subtype? =
    (place.solids.dropWhile (·.kind ≠ .token .slash)).find? (·.kind = .token .identifier) := by
  have skips : (fun child : Placed => !!child.kind.isTrivia || decide (child.kind ≠ .token .slash)) =
      fun child => decide (child.kind ≠ .token .slash) := by
    funext child
    by_cases divides : child.kind = .token .slash <;> simp [divides, Kind.isTrivia, TokenKind.isTrivia]
  have names : (fun child : Placed => decide ((!child.kind.isTrivia) = true ∧ decide (child.kind = .token .identifier) = true)) =
      fun child => decide (child.kind = .token .identifier) := by
    funext child
    by_cases named : child.kind = .token .identifier <;> simp [named, Kind.isTrivia, TokenKind.isTrivia]
  rw [solids, List.dropWhile_filter, List.find?_filter, skips, names]
  rfl

end Placed

section Parts

variable {missing : Bool}

private theorem kindName?_isSome (fits : row place.tree.children ∈ (shape missing .namedNode).matches') :
    place.kindName?.isSome = true := by
  obtain ⟨_, rfl, _, ⟨_, named, _, _, rfl⟩, same⟩ := mem_seq.mp fits
  obtain ⟨kind, known, rfl⟩ := mem_oneOf.mp named
  have listed : kind ∈ row place.tree.children := same ▸ List.mem_cons_of_mem _ List.mem_cons_self
  obtain rfl | rfl : kind = .token .identifier ∨ kind = .token .underscore := by simpa using known
  · exact Placed.firstToken?_isSome listed rfl
  · exact Placed.firstToken?_isSome listed rfl

theorem fieldName?_isSome (fits : row place.tree.children ∈ (shape missing .fieldDefinition).matches') :
    place.identifier?.isSome = true := by
  obtain ⟨_, rfl, _, _, same⟩ := mem_seq.mp fits
  have listed : .token .identifier ∈ row place.tree.children := same ▸ List.mem_cons_self
  exact Placed.firstToken?_isSome listed rfl

private theorem parameters?_isSome (fits : row place.tree.children ∈ (shape missing .predicate).matches') :
    place.parameters?.isSome = true := by
  obtain ⟨_, rfl, _, ⟨_, rfl, _, ⟨_, _, _, ⟨_, rfl, _, _, rfl⟩, rfl⟩, rfl⟩, same⟩ := mem_seq.mp fits
  apply Placed.firstNode?_isSome
  rw [← same]
  simp

/-- There is one slash at most, and a name after it comes right after it. -/
private theorem after_slash {word before after : List Kind} (fits : word ∈ (shape missing .namedNode).matches')
    (split : word = before ++ .token .slash :: after) :
    .token .slash ∉ before ∧ (after.head? = some (.token .identifier) ∨ .token .identifier ∉ after) := by
  obtain ⟨_, rfl, _, ⟨_, named, _, ⟨detail, detailed, body, items, rfl⟩, rfl⟩, rfl⟩ := mem_seq.mp fits
  obtain ⟨name, known, rfl⟩ := mem_oneOf.mp named
  have bare : .token .slash ∉ body ∧ .token .identifier ∉ body := by
    have letters := mem_letters items
    exact ⟨fun inside => absurd (letters _ inside) (by decide), fun inside => absurd (letters _ inside) (by decide)⟩
  have opening : .token .slash ∉ [Kind.token .parenOpen, name] := by
    intro inside
    rcases List.mem_pair.mp inside with here | rfl
    · cases here
    · exact absurd known (by decide)
  have undivided (whole : .token .slash ∉ detail) : False := by
    have inside : .token .slash ∈ [Kind.token .parenOpen, name] ++ (detail ++ body) :=
      split ▸ List.mem_append_right before List.mem_cons_self
    rcases List.mem_append.mp inside with inside | inside
    · exact opening inside
    · exact (List.mem_append.mp inside).elim whole bare.1
  cases missing with
  | true => exact (undivided fun inside => absurd (mem_letters detailed _ inside) (by decide)).elim
  | false =>
    rcases mem_maybe.mp detailed with rfl | divided
    · exact (undivided List.not_mem_nil).elim
    obtain ⟨_, rfl, subtype, named, rfl⟩ := mem_seq.mp divided
    have rest : .token .slash ∉ subtype ++ body := by
      intro inside
      rcases List.mem_append.mp inside with inside | inside
      · exact absurd (mem_letters named _ inside) (by decide)
      · exact bare.1 inside
    obtain ⟨rfl, -, rfl⟩ := (List.append_cons_inj_of_notMem opening rest).mp split
    refine ⟨opening, ?_⟩
    rcases mem_maybe.mp named with rfl | rfl
    · exact .inr bare.2
    · exact .inl rfl

/-- The subtype is the name right after the slash. -/
private theorem subtype?_iff (fits : row place.tree.children ∈ (shape missing .namedNode).matches') (token : Placed) :
    place.subtype? = some token ↔ ∃ slash, [slash, token] <:+: place.solids ∧
      slash.kind = .token .slash ∧ token.kind = .token .identifier := by
  rw [Placed.subtype?_solids]
  rw [← Placed.solids_kinds] at fits
  constructor
  · intro found
    have split : place.solids.takeWhile (·.kind ≠ .token .slash) ++ place.solids.dropWhile (·.kind ≠ .token .slash) =
        place.solids := List.takeWhile_append_dropWhile
    have ends := List.head?_dropWhile_not (fun child : Placed => child.kind ≠ .token .slash) place.solids
    generalize place.solids.takeWhile (·.kind ≠ .token .slash) = before at split
    cases left : place.solids.dropWhile (·.kind ≠ .token .slash) with
    | nil => rw [left] at found; cases found
    | cons slash rest =>
      rw [left] at found split ends
      have divides : slash.kind = .token .slash := by simpa using ends
      rw [← split, List.map_append, List.map_cons, divides] at fits
      have later : rest.find? (·.kind = .token .identifier) = some token := by simpa [divides] using found
      have names : token.kind = .token .identifier := by simpa using List.find?_some later
      rcases (after_slash fits rfl).2 with first | none
      · obtain ⟨name, others, rfl⟩ : ∃ name others, rest = name :: others := by
          cases rest with
          | nil => cases first
          | cons name others => exact ⟨name, others, rfl⟩
        have named : name.kind = .token .identifier := by simpa using first
        obtain rfl : name = token := by simpa [named] using later
        exact ⟨slash, ⟨before, others, by rw [← split]; simp⟩, divides, names⟩
      · exact absurd (List.mem_map.mpr ⟨token, List.mem_of_find?_eq_some later, names⟩) none
  · intro ⟨slash, ⟨before, after, split⟩, divides, names⟩
    have kinds : place.solids.map Placed.kind = before.map Placed.kind ++ .token .slash :: (token :: after).map Placed.kind := by
      rw [← split, ← divides]
      simp
    have apart : ∀ child ∈ before, decide (child.kind ≠ .token .slash) = true := by
      intro child member
      refine decide_eq_true fun same => (after_slash fits kinds).1 ?_
      exact List.mem_map.mpr ⟨child, member, same⟩
    rw [← split, List.append_assoc, List.dropWhile_append_of_pos apart]
    simp [divides, names]

end Parts

/-- What is declared of a node in a tree whose patterns nest up to a limit. -/
structure Declared (limit : Nat) (root : Tree) (site : Site) : Prop where
  fits : ∀ kind, site.place.kind = .node kind →
    row site.place.tree.children ∈ (shape (site.place.kindName?.any (·.text = "MISSING")) kind).matches'
  /-- An error holds one token, or stands at the limit. -/
  single : site.place.isNode .error = true → cutOff limit site = false → (row site.place.tree.children).length = 1
  /-- At the limit it holds all tokens that are left. -/
  last : cutOff limit site = true → ∀ token ∈ root.tokenSites, site.place.stop < token.place.stop →
    token.place.kind.isTrivia = true
  /-- In place of a field's value an error stands at the limit only. -/
  value : site.place.isNode .error = true → site.above.head?.any (·.isNode .fieldDefinition) = true →
    cutOff limit site = true
  named : site.place.isNode .namedNode = true → site.place.kindName?.isSome = true
  subtype : site.place.isNode .namedNode = true → ∀ token, site.place.subtype? = some token ↔
    ∃ slash, [slash, token] <:+: site.place.solids ∧ slash.kind = .token .slash ∧ token.kind = .token .identifier
  field : site.place.isNode .fieldDefinition = true → site.place.identifier?.isSome = true
  predicate : site.place.isNode .predicate = true → site.place.parameters?.isSome = true

section Parsed

variable {source : String}

theorem parse_fits (member : site ∈ (parse limit source).tree.sites 0 []) (made : site.place.kind = .node kind) :
    row site.place.tree.children ∈ (shape (site.place.kindName?.any (·.text = "MISSING")) kind).matches' := by
  obtain ⟨children, tree⟩ := Placed.of_kind made
  obtain ⟨_, _, wellmade⟩ := parse_wellmade member tree
  rw [Placed.kindName?_missing, tree]
  exact wellmade.fits

/-- Errors are not silent. At the limit they come last, and elsewhere they hold one token. -/
theorem parse_error (member : site ∈ (parse limit source).tree.sites 0 []) (error : site.place.isNode .error = true) :
    (parse limit source).reports ≠ [] ∧
      (cutOff limit site = true → LastAmong ((parse limit source).tree.sites 0 []) site) ∧
      (cutOff limit site = false → (row site.place.tree.children).length = 1) := by
  obtain ⟨children, tree⟩ := Placed.of_kind (of_decide_eq_true error)
  obtain ⟨left, levels, wellmade⟩ := parse_wellmade member tree
  have limited : cutOff limit site = true ↔ left = 0 ∧ opensPattern children = true := by
    rw [cutOff_iff tree]
    constructor
    · intro ⟨_, depth, opens⟩
      exact ⟨by omega, opens⟩
    · intro ⟨zero, opens⟩
      exact ⟨rfl, by omega, opens⟩
  rw [tree]
  rcases wellmade.error rfl with ⟨here, told, last⟩ | ⟨elsewhere, told, single⟩
  · exact ⟨told, fun _ => last, fun other => by rw [limited.mpr here] at other; cases other⟩
  · exact ⟨told, fun cut => absurd (limited.mp cut) elsewhere, fun _ => single⟩

/-- The value of a field is no error unless nesting goes too deep there. -/
private theorem parse_value {holder : Placed} (member : site ∈ (parse limit source).tree.sites 0 [])
    (error : site.place.isNode .error = true) (inside : site.above = holder :: above)
    (field : holder.isNode .fieldDefinition = true) : cutOff limit site = true := by
  have lineage := (Tree.mem_sites_iff _).mp member
  rw [inside] at lineage
  have around : ⟨holder, above⟩ ∈ (parse limit source).tree.sites 0 [] := (Tree.mem_sites_iff _).mpr lineage.tail
  obtain ⟨children, tree⟩ := Placed.of_kind (of_decide_eq_true error)
  obtain ⟨siblings, whole⟩ := Placed.of_kind (of_decide_eq_true field)
  obtain ⟨left, levels, wellmade⟩ := parse_wellmade around whole
  have among : .node .error children ∈ siblings := by
    have held := Placed.mem_line lineage.inside
    rwa [tree, whole] at held
  obtain ⟨rfl, opens⟩ := wellmade.value rfl children among
  have deeper : nesting (holder :: above) = nesting above + 1 := by
    have nests : holder.kind.nests = true := by rw [of_decide_eq_true field]; rfl
    rw [nesting_cons, nests]
    rfl
  refine (cutOff_iff tree).mpr ⟨rfl, ?_, opens⟩
  rw [inside, deeper]
  simp only at levels
  omega

end Parsed

/-- However malformed a text is and wherever parsing stops, all nodes are as declared, and it stops once. -/
theorem parse_declared (limit : Nat) (source : String) :
    (∀ site ∈ (parse limit source).tree.nodeSites, Declared limit (parse limit source).tree site) ∧
      (parse limit source).tree.nodeSites.countP (cutOff limit) ≤ 1 := by
  refine ⟨fun site member => ?_, parse_cutOff_once limit source⟩
  have inside : site ∈ (parse limit source).tree.sites 0 [] := (List.mem_filter.mp member).1
  have fits {kind : NodeKind} (made : site.place.isNode kind = true) := parse_fits inside (of_decide_eq_true made)
  constructor
  case fits => exact fun kind made => parse_fits inside made
  case single => exact fun error => (parse_error inside error).2.2
  case last =>
    intro cut token among after
    have error : site.place.isNode .error = true := by
      rw [cutOff, Bool.and_eq_true, Bool.and_eq_true] at cut
      exact cut.1.1
    obtain ⟨known, isToken⟩ := List.mem_filter.mp among
    exact (parse_error inside error).2.1 cut token known isToken after
  case value =>
    intro error within
    obtain ⟨holder, first, field⟩ := (Option.any_eq_true _ _).mp within
    obtain ⟨above, split⟩ := List.head?_eq_some_iff.mp first
    exact parse_value inside error split field
  case named => exact fun made => kindName?_isSome (fits made)
  case subtype => exact fun made => subtype?_iff (fits made)
  case field => exact fun made => fieldName?_isSome (fits made)
  case predicate => exact fun made => parameters?_isSome (fits made)

end TreeQuery.Syntax
