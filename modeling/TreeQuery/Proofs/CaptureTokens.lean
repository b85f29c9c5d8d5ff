import TreeQuery.Proofs.DistinctFindings
import TreeQuery.Proofs.WholeReading

/-! Captures against the tokens of a text. A scan of the tokens finds the signs and the names right after them,
and these are the captures of the tree in the same order: no sign is read by anything else, unless nesting went
too deep. -/

namespace TreeQuery.Syntax
open Text (Span)
open Diagnostic (Report)

/-- The signs among some tokens, each with the name right after it. -/
def signs : List (Token × Span) → List (Span × Option (Token × Span))
  | [] => []
  | (token, span) :: rest =>
    if token.kind = .atSign then (span, rest.head?.filter (·.1.kind = .identifier)) :: signs rest else signs rest

/-- The names right after signs. -/
def signedNames (tokens : List (Token × Span)) : List (Token × Span) := (signs tokens).filterMap (·.2)

/-- Where signs without a name right after them stand. -/
def hangingSigns (tokens : List (Token × Span)) : List Span := ((signs tokens).filter (·.2.isNone)).map (·.1)

/-- The signs of the captures among some sites. -/
def capturedSigns (sites : List Site) : List (Span × Option (Token × Span)) :=
  sites.flatMap fun site =>
    if site.place.isNode .capture then signs (spanned site.place.start site.place.tree.leaves) else []

namespace Tree

mutual

/-- All tokens of a kind are in nodes of a kind, errors left out. -/
def Confined (mark : TokenKind) (holder : NodeKind) : Tree → Prop
  | leaf token => token.kind ≠ mark
  | node kind children => kind = holder ∨ kind = .error ∨ ConfinedAll mark holder children

def ConfinedAll (mark : TokenKind) (holder : NodeKind) : List Tree → Prop
  | [] => True
  | tree :: rest => Confined mark holder tree ∧ ConfinedAll mark holder rest

end

theorem confinedAll_iff {mark : TokenKind} {holder : NodeKind} {trees : List Tree} :
    ConfinedAll mark holder trees ↔ ∀ tree ∈ trees, tree.Confined mark holder := by
  induction trees with
  | nil => simp [ConfinedAll]
  | cons tree rest ih => simp [ConfinedAll, ih]

theorem confinedAll_append {mark : TokenKind} {holder : NodeKind} {trees later : List Tree} :
    ConfinedAll mark holder (trees ++ later) ↔ ConfinedAll mark holder trees ∧ ConfinedAll mark holder later := by
  simp only [confinedAll_iff, List.forall_mem_append]

theorem lengthOf_append (trees later : List Tree) : lengthOf (trees ++ later) = lengthOf trees + lengthOf later := by
  rw [lengthOf_eq_total_leavesOf, lengthOf_eq_total_leavesOf, lengthOf_eq_total_leavesOf, leavesOf_append, Text.total_append]

theorem lengthOf_tokens (tokens : List Token) : lengthOf (tokens.map .leaf) = Text.total Token.length tokens := by
  rw [lengthOf_eq_total_leavesOf, leavesOf_tokens]

end Tree

open TreeQuery.Syntax.Tree (ConfinedAll confinedAll_iff confinedAll_append sitesOf sitesOf_append lengthOf lengthOf_append
  lengthOf_tokens)

section Scan

variable {token sign name : Token} {tokens rest : List Token} {start : Nat}

private theorem signs_plain (plain : ∀ token ∈ tokens, token.kind ≠ .atSign) (rest : List Token) (start : Nat) :
    signs (spanned start (tokens ++ rest)) = signs (spanned (start + Text.total Token.length tokens) rest) := by
  induction tokens generalizing start with
  | nil => rfl
  | cons token tokens ih =>
    obtain ⟨other, plain⟩ := List.forall_mem_cons.mp plain
    rw [List.cons_append, spanned, signs, if_neg other, ih plain, Text.total_cons, Nat.add_assoc]

private theorem signs_nameless (sigil : sign.kind = .atSign) (nameless : rest.head?.map Token.kind ≠ some .identifier)
    (start : Nat) : signs (spanned start (sign :: rest)) =
      (⟨start, start + sign.length⟩, none) :: signs (spanned (start + sign.length) rest) := by
  rw [spanned, signs, if_pos sigil]
  cases rest with
  | nil => rfl
  | cons token rest =>
    have other : token.kind ≠ .identifier := fun same => nameless (congrArg some same)
    simp [spanned, other]

private theorem signs_named (sigil : sign.kind = .atSign) (identifier : name.kind = .identifier) (rest : List Token)
    (start : Nat) :
    signs (spanned start (sign :: name :: rest)) =
      (⟨start, start + sign.length⟩, some (name, ⟨start + sign.length, start + sign.length + name.length⟩)) ::
        signs (spanned (start + sign.length + name.length) rest) := by
  have plain : name.kind ≠ .atSign := by simp [identifier]
  simp [spanned, signs, sigil, identifier]

end Scan

private theorem capturedSigns_cons (site : Site) (sites : List Site) :
    capturedSigns (site :: sites) =
      (if site.place.isNode .capture then signs (spanned site.place.start site.place.tree.leaves) else []) ++
        capturedSigns sites := rfl

private theorem capturedSigns_append (sites more : List Site) :
    capturedSigns (sites ++ more) = capturedSigns sites ++ capturedSigns more := List.flatMap_append

private theorem capturedSigns_tokens (tokens : List Token) (start : Nat) (above : List Placed) :
    capturedSigns (sitesOf start above (tokens.map .leaf)) = [] := by
  induction tokens generalizing start with
  | nil => rfl
  | cons token rest ih =>
    rw [List.map_cons, Tree.sitesOf, capturedSigns_append, ih]
    rfl

private theorem capturedSigns_node {kind : NodeKind} (other : kind ≠ .capture) (children : List Tree) (start : Nat)
    (above : List Placed) :
    capturedSigns (sitesOf start above [.node kind children]) =
      capturedSigns (sitesOf start (⟨start, .node kind children⟩ :: above) children) := by
  simp [Tree.sitesOf, Tree.sites, capturedSigns, Placed.isNode, Placed.kind, Tree.kind, other]

private theorem capturedSigns_capture (tokens : List Token) (start : Nat) (above : List Placed) :
    capturedSigns (sitesOf start above [.node .capture (tokens.map .leaf)]) = signs (spanned start tokens) := by
  rw [Tree.sitesOf, Tree.sitesOf, List.append_nil, Tree.sites, capturedSigns_cons, capturedSigns_tokens, List.append_nil]
  exact congrArg (fun leaves => signs (spanned start leaves)) (Tree.leavesOf_tokens tokens)

/-- What is read has just the signs of its captures. -/
def ReadsSigns (cursor : Cursor) (trees : List Tree) (_ : List Report) (next : Cursor) : Prop :=
  next.exhausted = false → cursor.exhausted = false ∧ (ConfinedAll .atSign .capture trees → ∀ start above,
    signs (spanned start (cursor.waiting ++ cursor.rest)) = capturedSigns (sitesOf start above trees) ++
      signs (spanned (start + lengthOf trees) (next.waiting ++ next.rest)))

private theorem readsSigns : WholeLaw ReadsSigns where
  stay cursor awake := ⟨awake, fun _ _ _ => rfl⟩
  chain {_ _ _ trees later _ _} first second := by
    intro awake
    obtain ⟨between, after⟩ := second awake
    obtain ⟨awake, before⟩ := first between
    refine ⟨awake, fun signed start above => ?_⟩
    rw [confinedAll_append] at signed
    rw [before signed.1 start above, after signed.2 _ above, sitesOf_append, capturedSigns_append, List.append_assoc,
      lengthOf_append, Nat.add_assoc]
  note cursor looks fault awake := ⟨awake, fun _ _ _ => rfl⟩
  skip cursor awake := by
    refine ⟨awake, fun _ start above => ?_⟩
    have kept : cursor.waiting ++ cursor.rest = cursor.skip.waiting ++ cursor.skip.rest := keeps.skip cursor
    rw [kept]
    rfl
  place cursor awake := by
    refine ⟨awake, fun signed start above => ?_⟩
    have plain : ∀ token ∈ cursor.waiting, token.kind ≠ .atSign := fun token member =>
      confinedAll_iff.mp signed (.leaf token) (List.mem_map_of_mem member)
    rw [signs_plain plain, capturedSigns_tokens, lengthOf_tokens]
    rfl
  token cursor token rest unplaced left awake := by
    refine ⟨awake, fun signed start above => ?_⟩
    have plain : ∀ other ∈ [token], other.kind ≠ .atSign := List.forall_mem_singleton.mpr signed.1
    rw [unplaced, left]
    exact signs_plain plain rest start
  around cursor kind trees reports next plain _ sound unplaced inside awake := by
    obtain ⟨awake, scan⟩ := inside awake
    refine ⟨awake, fun signed start above => ?_⟩
    have signed := (signed.1.resolve_left plain).resolve_left sound
    rw [scan signed start (⟨start, .node kind trees⟩ :: above), capturedSigns_node plain]
    rfl
  stray cursor token rest unplaced left other _ awake := by
    refine ⟨awake, fun _ start above => ?_⟩
    have plain : ∀ other ∈ [token], other.kind ≠ .atSign := List.forall_mem_singleton.mpr other
    rw [unplaced, left, capturedSigns_node (by decide)]
    exact signs_plain plain rest start
  named cursor sign name rest unplaced left sigil identifier awake := by
    refine ⟨awake, fun _ start above => ?_⟩
    have own := capturedSigns_capture [sign, name] start above
    rw [unplaced, left, List.nil_append, signs_named sigil identifier]
    rw [List.map_cons, List.map_cons, List.map_nil, signs_named sigil identifier] at own
    rw [own, Nat.add_assoc]
    rfl
  nameless cursor sign rest unplaced left sigil nameless awake := by
    refine ⟨awake, fun _ start above => ?_⟩
    have own := capturedSigns_capture [sign] start above
    rw [List.map_cons, List.map_nil, signs_nameless sigil (by simp)] at own
    rw [unplaced, left, List.nil_append, signs_nameless sigil nameless, own]
    rfl
  quoted cursor quote rest unplaced left mark awake := by
    refine ⟨awake, fun _ start above => ?_⟩
    have plain : ∀ token ∈ quote :: insideString rest, token.kind ≠ .atSign := by
      refine List.forall_mem_cons.mpr ⟨by simp [mark], fun token member sigil => ?_⟩
      rcases List.mem_append.mp member with content | closer
      · simpa [sigil] using (List.mem_filter.mp content).2
      · simpa [sigil] using (List.mem_filter.mp closer).2
    have split : cursor.rest = (quote :: insideString rest) ++ (cursor.beyond (quote :: insideString rest)).rest := by
      rw [Cursor.beyond, left]
      exact congrArg (quote :: ·) (insideString_append rest).symm
    rw [unplaced, List.nil_append, split, capturedSigns_node (by decide), capturedSigns_tokens, signs_plain plain]
    simp only [Cursor.beyond, unplaced, List.nil_append, lengthOf, Tree.length, lengthOf_tokens, Nat.add_zero]
  found cursor report awake := ⟨awake, fun _ _ _ => rfl⟩
  last cursor report _ _ _ awake := by
    have worse := worsens.repeatWhile worsens.swallow { cursor with exhausted := true }
    rw [worse.exhausted rfl] at awake
    cases awake

/-- Nesting goes too deep only where it is reported. -/
theorem deepens : Law fun cursor _ reports next =>
    next.exhausted = true → cursor.exhausted = true ∨ ∃ report ∈ reports, IsDeep report where
  stay _ := .inl
  chain first second deep := by
    rcases second deep with before | ⟨report, member, is⟩
    · rcases first before with before | ⟨report, member, is⟩
      · exact .inl before
      · exact .inr ⟨report, List.mem_append_left _ member, is⟩
    · exact .inr ⟨report, List.mem_append_right _ member, is⟩
  note _ _ _ _ := .inl
  skip _ := .inl
  place _ := .inl
  token _ _ _ _ _ _ := .inl
  around _ _ _ _ _ _ inside := inside
  found _ _ _ _ := .inl
  last _ report _ deep _ := .inr ⟨report, List.mem_singleton.mpr rfl, deep⟩

/-- The nodes that a token of a kind has its place in, where that is one kind of nodes only. -/
def TokenKind.holder? : TokenKind → Option NodeKind
  | .atSign => some .capture
  | .doubleQuote => some .string
  | _ => none

private theorem TokenKind.holder?_solid {mark : TokenKind} {holder : NodeKind} (own : mark.holder? = some holder) :
    mark.isTrivia = false := by
  cases mark with
  | atSign | doubleQuote => rfl
  | _ => cases own

private theorem foreign_parts {mark : TokenKind} {holder kind : NodeKind} (own : mark.holder? = some holder)
    (other : kind ≠ holder)
    (sound : kind ≠ .error) : .token mark ∉ kind.parts := by
  cases mark with
  | atSign | doubleQuote =>
    cases own
    cases kind <;> first | exact absurd rfl other | exact absurd rfl sound | decide
  | _ => cases own

/-- A token that has its place in one kind of nodes only is in such nodes. -/
theorem Formed.confined {mark : TokenKind} {holder : NodeKind} (own : mark.holder? = some holder) {stray deep : Prop}
    {room : Nat} {trees : List Tree} (formed : Formed stray room deep trees) (plain : .token mark ∉ row trees) :
    ConfinedAll mark holder trees := by
  have solid := TokenKind.holder?_solid own
  induction formed with
  | nil => trivial
  | @leaf _ _ rest token after ih =>
    have split := row_append [.leaf token] rest
    refine ⟨fun same => plain ?_, ih fun member => plain ?_⟩
    · have shown : token.isTrivia = false := (congrArg TokenKind.isTrivia same).trans solid
      exact split ▸ List.mem_append_left _ (by simp [row_solid shown, same])
    · exact split ▸ List.mem_append_right _ member
  | @node _ _ kind children rest made inside after within beyond =>
    have split := row_append [.node kind children] rest
    refine ⟨?_, beyond fun member => plain (split ▸ List.mem_append_right _ member)⟩
    by_cases holds : kind = holder
    · exact .inl holds
    by_cases error : kind = .error
    · exact .inr (.inl error)
    · refine .inr (.inr (within fun member => ?_))
      obtain ⟨tree, among, same⟩ := List.mem_map.mp (List.mem_filter.mp member).1
      have part := mem_parts made.fits among (by rw [same]; exact solid)
      exact foreign_parts own holds error (same ▸ part)

section Parsed

variable {limit : Nat} {source : String} {site : Site}

private theorem parse_signs (shallow : ∀ report ∈ (parse limit source).reports, report.kind ≠ .nestingTooDeep) :
    signs (spanned 0 (Token.ofText source)) = capturedSigns ((parse limit source).tree.sites 0 []) := by
  have single : (Parser.program limit (.start (Token.ofText source))).trees = [(parse limit source).tree] := rfl
  obtain ⟨_, ended, placed⟩ := Parser.program_ends limit (Token.ofText source)
  have awake : (Parser.program limit (.start (Token.ofText source))).next.exhausted = false := by
    apply Bool.eq_false_iff.mpr
    intro deep
    rcases deepens.program limit _ deep with before | ⟨report, member, is⟩
    · cases before
    · exact shallow report member is
  have root : .token .atSign ∉ row [(parse limit source).tree] := by
    change _ ∉ [Kind.node .program]
    decide
  have signed : ConfinedAll .atSign .capture [(parse limit source).tree] :=
    (parse_formed limit source).confined rfl root
  have scan := ((readsSigns.program limit (.start (Token.ofText source))) awake).2 (single ▸ signed) 0 []
  rw [single, ended, placed] at scan
  simpa [Cursor.start, Tree.sitesOf, spanned, signs] using scan

/-- A capture is a sign, with or without a name. -/
theorem Wellmade.capture {stray deep : Prop} {room : Nat} {children : List Tree}
    (made : Wellmade stray room deep .capture children) :
    (∃ sign, children = [.leaf sign] ∧ sign.kind = .atSign) ∨
      ∃ sign name, children = [.leaf sign, .leaf name] ∧ sign.kind = .atSign ∧ name.kind = .identifier := by
  have all : row children = children.map Tree.kind := by
    refine List.filter_eq_self.mpr fun kind member => ?_
    obtain ⟨child, among, rfl⟩ := List.mem_map.mp member
    rw [made.tight rfl child among]
    rfl
  have leaf {tree : Tree} {kind : TokenKind} (word : tree.kind = .token kind) :
      ∃ token, tree = .leaf token ∧ token.kind = kind := by
    cases tree with
    | leaf token => exact ⟨token, rfl, Kind.token.inj word⟩
    | node => cases word
  obtain ⟨before, rfl, after, named, split⟩ := Shape.mem_seq.mp made.fits
  rw [all] at split
  obtain ⟨first, rest, rfl, word, ends⟩ := List.map_eq_cons_iff.mp split.symm
  obtain ⟨sign, rfl, sigil⟩ := leaf word
  rcases Shape.mem_maybe.mp named with rfl | rfl
  · obtain rfl := List.map_eq_nil_iff.mp ends
    exact .inl ⟨sign, rfl, sigil⟩
  · obtain ⟨second, none, rfl, word, last⟩ := List.map_eq_cons_iff.mp ends
    obtain ⟨name, rfl, identifier⟩ := leaf word
    obtain rfl := List.map_eq_nil_iff.mp last
    exact .inr ⟨sign, name, rfl, sigil, identifier⟩

/-- The place of a token. -/
def placedToken (token : Token × Span) : Placed := ⟨token.2.start, .leaf token.1⟩

private theorem mem_of_signs {tokens : List (Token × Span)} {name : Token × Span} {span : Span}
    (member : (span, some name) ∈ signs tokens) : name ∈ tokens := by
  induction tokens with
  | nil => cases member
  | cons token rest ih =>
    rw [signs] at member
    split at member
    · rcases List.mem_cons.mp member with first | later
      · have found : rest.head?.filter (·.1.kind = .identifier) = some name := (congrArg Prod.snd first).symm
        exact List.mem_cons_of_mem _ (List.mem_of_mem_head? (Option.filter_eq_some_iff.mp found).1)
      · exact List.mem_cons_of_mem _ (ih later)
    · exact List.mem_cons_of_mem _ (ih member)

private theorem spanned_width {tokens : List Token} {token : Token × Span} {start : Nat} (member : token ∈ spanned start tokens) :
    token.2 = ⟨token.2.start, token.2.start + token.1.length⟩ := by
  induction tokens generalizing start with
  | nil => cases member
  | cons first rest ih =>
    rcases List.mem_cons.mp member with rfl | later
    · rfl
    · exact ih later

theorem signedNames_placed {tokens : List Token} {name : Token × Span} {start : Nat}
    (member : name ∈ signedNames (spanned start tokens)) :
    (placedToken name).text = name.1.text ∧ (placedToken name).span = name.2 := by
  obtain ⟨⟨span, second⟩, among, rfl⟩ := List.mem_filterMap.mp member
  refine ⟨?_, (spanned_width (mem_of_signs among)).symm⟩
  simp [placedToken, Placed.text, Tree.text, Tree.leaves]

/-- What the sign of a capture tells is what is read off the capture. -/
private theorem capture_signs (member : site ∈ (parse limit source).tree.sites 0 [])
    (capture : site.place.isNode .capture = true) :
    ((signs (spanned site.place.start site.place.tree.leaves)).filterMap (·.2)).map placedToken = site.place.identifier?.toList ∧
      ((signs (spanned site.place.start site.place.tree.leaves)).filter (·.2.isNone)).map (·.1) =
        if site.place.identifier?.isNone then [site.place.span] else [] := by
  obtain ⟨children, shape⟩ := Placed.of_kind (of_decide_eq_true capture)
  obtain ⟨_, _, made⟩ := parse_wellmade member shape
  obtain ⟨⟨start, tree⟩, above⟩ := site
  obtain rfl : tree = .node .capture children := shape
  rcases made.capture with ⟨sign, rfl, sigil⟩ | ⟨sign, name, rfl, sigil, identifier⟩
  · have scan : signs (spanned start [sign]) = _ := signs_nameless sigil (by simp) start
    have none : Placed.identifier? ⟨start, .node .capture [.leaf sign]⟩ = none := by
      simp [Placed.identifier?, Placed.firstToken?, Placed.children, Tree.children, Placed.line, Placed.kind, Tree.kind, sigil]
    change (List.filterMap _ (signs (spanned start [sign]))).map _ = _ ∧ (List.filter _ (signs (spanned start [sign]))).map _ = _
    rw [scan, none]
    exact ⟨rfl, rfl⟩
  · have scan := signs_named sigil identifier [] start
    have found : Placed.identifier? ⟨start, .node .capture [.leaf sign, .leaf name]⟩ = some ⟨start + sign.length, .leaf name⟩ := by
      simp [Placed.identifier?, Placed.firstToken?, Placed.children, Tree.children, Placed.line, Placed.kind, Tree.kind, sigil,
        identifier, Tree.length]
    change (List.filterMap _ (signs (spanned start [sign, name]))).map _ = _ ∧
      (List.filter _ (signs (spanned start [sign, name]))).map _ = _
    rw [scan, found]
    exact ⟨rfl, rfl⟩

theorem nameTokens_tokens (shallow : ∀ report ∈ (parse limit source).reports, report.kind ≠ .nestingTooDeep) :
    CaptureIndex.nameTokens (parse limit source).tree =
      (signedNames (spanned 0 (Token.ofText source))).map placedToken := by
  rw [signedNames, parse_signs shallow, capturedSigns, List.filterMap_flatMap, List.map_flatMap, CaptureIndex.nameTokens,
    Tree.nodeSites, List.filterMap_filter, List.filterMap_eq_flatMap_toList]
  refine List.flatMap_congr fun site member => ?_
  cases capture : site.place.isNode .capture with
  | true =>
    have node : site.isToken = false := by simp [Site.isToken, of_decide_eq_true capture]
    simp [node, (capture_signs member capture).1]
  | false => simp

theorem hangingSigns_tokens (shallow : ∀ report ∈ (parse limit source).reports, report.kind ≠ .nestingTooDeep) :
    hangingSigns (spanned 0 (Token.ofText source)) = (parse limit source).tree.nodeSites.filterMap fun site =>
      if site.place.isNode .capture && site.place.identifier?.isNone then some site.place.span else none := by
  rw [hangingSigns, parse_signs shallow, capturedSigns, List.filter_flatMap, List.map_flatMap, Tree.nodeSites,
    List.filterMap_filter, List.filterMap_eq_flatMap_toList]
  refine List.flatMap_congr fun site member => ?_
  cases capture : site.place.isNode .capture with
  | true =>
    have node : site.isToken = false := by simp [Site.isToken, of_decide_eq_true capture]
    simp only [if_true, (capture_signs member capture).2, node, Bool.not_false, Bool.true_and]
    split <;> rfl
  | false => simp

end Parsed

end TreeQuery.Syntax
