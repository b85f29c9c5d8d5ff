import TreeQuery.Completion.Offer
import TreeQuery.Proofs.DeclaredShapes
import TreeQuery.Proofs.ItemPools
import TreeQuery.Proofs.LineColumns
import TreeQuery.Proofs.QueryAcceptance
import TreeQuery.Proofs.WrittenConstructs

/-! What a literal reads as where it is written in a query. Quoted, it always reads as itself; put as it
is between quotes that are typed already, it does so only if none of its characters has to be escaped. -/

namespace TreeQuery.Text

/-- Whether a character can stand for itself between quotes. -/
def standsBare (c : Char) : Bool := c ≠ '"' && c ≠ '\\' && c ≠ '\n'

private theorem standsBare_iff {c : Char} : standsBare c = true ↔ c ≠ '"' ∧ c ≠ '\\' ∧ c ≠ '\n' := by
  simp [standsBare, and_assoc]

private theorem unescapeChars_append {text : List Char} (bare : ∀ c ∈ text, standsBare c = true) (rest : List Char) :
    unescapeChars (text ++ rest) = text ++ unescapeChars rest := by
  induction text with
  | nil => rfl
  | cons c later ih =>
    obtain ⟨first, further⟩ := List.forall_mem_cons.mp bare
    rw [List.cons_append, unescapeChars_plain (standsBare_iff.mp first).2.1, ih further, List.cons_append]

private theorem unescapeChars_bare {text : List Char} (bare : ∀ c ∈ text, standsBare c = true) : unescapeChars text = text := by
  simpa [unescapeChars] using unescapeChars_append bare []

private theorem utf8Size_escapedChar (c : Char) : (escapedChar c).utf8Size ≤ c.utf8Size := by
  unfold escapedChar
  split
  next => decide
  next => decide
  next => decide
  next => decide
  next => exact Nat.le_refl _

private theorem unescapeChars_le (text : List Char) : utf8Length (unescapeChars text) ≤ utf8Length text := by
  fun_induction unescapeChars text with
  | case1 => exact Nat.le_refl _
  | case2 => exact Nat.le_refl _
  | case3 c rest ih =>
    have first := utf8Size_escapedChar c
    simp only [utf8Length_cons]
    omega
  | case4 c rest _ _ ih => exact Nat.add_le_add_left ih _

/-- What resolving escapes makes no shorter it leaves as it is. -/
private theorem unescapeChars_same (text : List Char) (same : utf8Length text ≤ utf8Length (unescapeChars text)) :
    unescapeChars text = text := by
  fun_induction unescapeChars text with
  | case1 => rfl
  | case2 => rfl
  | case3 c rest ih =>
    have first := utf8Size_escapedChar c
    have later := unescapeChars_le rest
    simp only [utf8Length_cons, show Char.utf8Size '\\' = 1 from rfl] at same
    omega
  | case4 c rest _ _ ih =>
    rw [ih (Nat.le_of_add_le_add_left same)]

/-- What resolving escapes leaves as it is has no backslash, but for one at the very end. -/
theorem unescapeChars_eq_self_iff (text : List Char) : unescapeChars text = text ↔ '\\' ∉ text.dropLast := by
  fun_induction unescapeChars text with
  | case1 => simp
  | case2 => simp
  | case3 c rest ih =>
    refine iff_of_false (fun same => ?_) (fun none => none List.mem_cons_self)
    have first := utf8Size_escapedChar c
    have later := unescapeChars_le rest
    have sizes := congrArg utf8Length same
    simp only [utf8Length_cons, show Char.utf8Size '\\' = 1 from rfl] at sizes
    omega
  | case4 c rest single pair ih =>
    have plain : '\\' ≠ c := (Syntax.Token.not_backslash single pair).symm
    cases rest with
    | nil => simp [unescapeChars]
    | cons next rest => rw [List.cons_inj_right, ih, List.dropLast_cons_cons, List.mem_cons, or_iff_right plain]

end TreeQuery.Text

namespace TreeQuery.Syntax
open Text

namespace Token

private theorem stringLength_bare {content : List Char} (bare : ∀ c ∈ content, standsBare c = true) (rest : List Char) :
    stringLength (content ++ rest) = content.length + stringLength rest := by
  induction content with
  | nil => exact (Nat.zero_add _).symm
  | cons c later ih =>
    obtain ⟨first, further⟩ := List.forall_mem_cons.mp bare
    obtain ⟨quote, escape, line⟩ := standsBare_iff.mp first
    rw [List.cons_append, stringLength_plain quote escape line, ih further, List.length_cons]
    omega

variable {content rest literal : List Char} {opening closing : Token}

section
variable (bare : ∀ c ∈ content, standsBare c = true)
include bare

private theorem backslashes_bare : content.reverse.takeWhile (· == '\\') = [] := by
  rw [List.takeWhile_eq_nil_iff]
  intro some
  have plain := standsBare_iff.mp (bare _ (List.mem_reverse.mp (List.getElem_mem some)))
  simpa using plain.2.1

private theorem isClosed_bare : isClosed (content ++ ['"']) = true := by
  simp [isClosed, backslashes_bare bare]

private theorem ofText_bare : ofText (String.ofList ('"' :: (content ++ ['"']))) =
    quoteMark :: (contentTokens content ++ [quoteMark]) := by
  refine ofText_closed ?_ (isClosed_bare bare)
  rw [stringLength_bare bare, List.length_append]
  rfl

/-- A string holds at least the characters up to the first that needs an escape. -/
private theorem ofText_string : ofText (String.ofList ('"' :: (content ++ rest))) =
    splitString (content ++ rest.take (stringLength rest)) ++ (scan (rest.drop (stringLength rest))).flatMap ofScanned := by
  have begins : longest? '"' (content ++ rest) = some (.stringLiteral, stringLength (content ++ rest)) := rfl
  rw [ofText, String.toList_ofList, scan_token begins, List.flatMap_cons, stringLength_bare bare,
    List.take_length_add_append, List.drop_length_add_append]
  rfl

private theorem ofText_quote_inside : ofText (String.ofList ('"' :: (content ++ '"' :: rest))) =
    quoteMark :: (contentTokens content ++ quoteMark :: (scan rest).flatMap ofScanned) := by
  have one : stringLength ('"' :: rest) = 1 := by cases rest <;> simp [stringLength]
  rw [ofText_string bare, one]
  simp [splitString, isClosed_bare bare]

private theorem ofText_line_inside : ofText (String.ofList ('"' :: (content ++ '\n' :: rest))) =
    quoteMark :: (contentTokens content ++ ⟨.newline, "\n"⟩ :: (scan rest).flatMap ofScanned) := by
  have none : stringLength ('\n' :: rest) = 0 := by cases rest <;> simp [stringLength]
  have broken : isClosed content = false := by
    cases last : content.getLast? with
    | none => simp [isClosed, last]
    | some c =>
      have plain := standsBare_iff.mp (bare c (List.mem_of_getLast? last))
      simp [isClosed, last, plain.1]
  have begins : longest? '\n' rest = some (.newline, 0) := rfl
  rw [ofText_string bare, none]
  simp [splitString, broken, scan_token begins, ofScanned]

private theorem ofText_escape_last : ofText (String.ofList ('"' :: (content ++ ['\\', '"']))) =
    [quoteMark, ⟨.stringContent, String.ofList (content ++ ['\\', '"'])⟩] := by
  have two : stringLength ['\\', '"'] = 2 := rfl
  have escaped : isClosed (content ++ ['\\', '"']) = false := by
    simp [isClosed, backslashes_bare bare]
  rw [ofText_string bare, two]
  simp [splitString, escaped, contentTokens, scan]

end

/-- Where a string breaks off, what it held is not all there was. -/
private theorem contentTokens_stops {others : List Token} (further : rest ≠ [])
    (other : ∀ text, others.head? ≠ some ⟨.stringContent, text⟩) :
    contentTokens content ++ others ≠ [⟨.stringContent, String.ofList (content ++ rest)⟩, closing] := by
  intro same
  cases content with
  | nil => exact other _ (congrArg List.head? same)
  | cons c content =>
    have whole := String.ofList_injective (Token.mk.inj (List.cons.inj same).1).2
    exact further (List.append_cancel_left (whole.symm.trans (List.append_nil _).symm))

/-- If the text between two quotes is cut as one content that resolves to itself, nothing in it needs an escape. -/
private theorem bare_of_cut
    (cut : ofText (String.ofList ('"' :: (literal ++ ['"']))) = [opening, ⟨.stringContent, String.ofList literal⟩, closing])
    (resolved : unescapeChars literal = literal) : ∀ c ∈ literal, standsBare c = true := by
  by_contra special
  -- The first character that needs one decides how the text is cut.
  obtain ⟨c, found⟩ : ∃ c, literal.find? (!standsBare ·) = some c := by
    rw [← Option.isSome_iff_exists, List.find?_isSome]
    simpa using special
  obtain ⟨marked, front, back, rfl, before⟩ := List.find?_eq_some_iff_append.mp found
  have bare : ∀ c ∈ front, standsBare c = true := fun c member => by simpa using before c member
  rw [List.append_assoc, List.cons_append] at cut
  by_cases quote : c = '"'
  · subst quote
    rw [ofText_quote_inside bare] at cut
    exact contentTokens_stops (List.cons_ne_nil _ _) (by simp [quoteMark]) (List.cons.inj cut).2
  by_cases line : c = '\n'
  · subst line
    rw [ofText_line_inside bare] at cut
    exact contentTokens_stops (List.cons_ne_nil _ _) (by simp) (List.cons.inj cut).2
  obtain rfl : c = '\\' := by
    by_contra escape
    simp [standsBare_iff.mpr ⟨quote, escape, line⟩] at marked
  cases back with
  | cons c rest => exact (unescapeChars_eq_self_iff _).mp resolved (by simp)
  | nil =>
    rw [List.nil_append, ofText_escape_last bare] at cut
    exact absurd (congrArg List.length cut) (by simp)

end Token

open Token (quoteMark contentTokens)
open Shape (mem_seq mem_maybe mem_char)

/-- A text is read, without a report, as one closed literal that stands for `value`. -/
structure ReadsAs (limit : Nat) (text value : String) : Prop where
  silent : (parse limit text).reports = []
  literal : ∃ node string, (parse limit text).tree.placed.items = [node] ∧ node.kind = .node .anonymousNode ∧
    node.string? = some string ∧ string.isTerminated = true ∧ string.stringValue = value

section
variable {source : String} {content : List Char}

open Phrase in
private theorem derives_closed (room : Nat) (cut : Token.ofText source = quoteMark :: (contentTokens content ++ [quoteMark])) :
    Derives true (room + 1) (words (Token.ofText source)) := by
  have bare : Suffix true [] [] := .parts (.omitted fun _ => rfl) ⟨.refl, fun _ => rfl⟩
  have quoted : Quoted (words (Token.ofText source)) [] := by
    rw [cut]
    cases content with
    | nil => exact .empty rfl rfl rfl
    | cons c rest => exact .filled rfl rfl rfl rfl rfl
  exact .single (.pattern (.string quoted bare))

private theorem readsAs_closed (room : Nat) (cut : Token.ofText source = quoteMark :: (contentTokens content ++ [quoteMark])) :
    ReadsAs (room + 1) source (String.ofList (unescapeChars content)) := by
  refine ⟨(parse_silent_iff _ _).mpr (derives_closed room cut), ?_⟩
  rw [parse_closed (Nat.succ_pos room) cut]
  obtain ⟨string, stringed, terminated, value⟩ := stringTree_read 0 content
  exact ⟨_, string, rfl, rfl, stringed, terminated, value⟩

private theorem readsAs_quote (room : Nat) (literal : String) : ReadsAs (room + 1) (quote literal) literal := by
  have reads := readsAs_closed room (Token.ofText_quote literal)
  rwa [unescapeChars_escaped, String.ofList_toList] at reads

private theorem between_quotes (literal : String) :
    "\"" ++ literal ++ "\"" = String.ofList ('"' :: (literal.toList ++ ['"'])) := by
  apply String.toList_inj.mp
  simp

private theorem readsAs_bare (room : Nat) {literal : String} (bare : ∀ c ∈ literal.toList, standsBare c = true) :
    ReadsAs (room + 1) ("\"" ++ literal ++ "\"") literal := by
  have reads := readsAs_closed room (Token.ofText_bare bare)
  rwa [unescapeChars_bare bare, String.ofList_toList, ← between_quotes] at reads

end

section
variable {tokens more : List Token}

private theorem total_sublist (part : tokens.Sublist more) : total Token.length tokens ≤ total Token.length more := by
  induction part with
  | slnil => exact Nat.le_refl _
  | cons token _ ih => exact Nat.le_trans ih (Nat.le_add_left ..)
  | cons_cons token _ ih => exact Nat.add_le_add_left ih _

/-- Some of the tokens that are as long as all of them are all of them. -/
private theorem eq_of_sublist_total (part : tokens.Sublist more) (filled : ∀ token ∈ more, 0 < token.length)
    (long : total Token.length more ≤ total Token.length tokens) : tokens = more := by
  induction part with
  | slnil => rfl
  | @cons _ _ token part ih =>
    have shorter := total_sublist part
    have wide := filled token List.mem_cons_self
    rw [total_cons] at long
    omega
  | cons_cons token _ ih =>
    rw [ih (fun later member => filled later (List.mem_cons_of_mem _ member)) (Nat.le_of_add_le_add_left long)]

private theorem leavesOf_sublist {trees others : List Tree} (part : trees.Sublist others) :
    (Tree.leavesOf trees).Sublist (Tree.leavesOf others) := by
  induction part with
  | slnil => exact .slnil
  | cons tree _ ih => exact ih.trans (List.sublist_append_right ..)
  | cons_cons tree _ ih => exact ih.append_left _

end

section
variable {string : Placed} {missing : Bool}

/-- A closed string has, apart from trivia, its quotes and at most one content between them. -/
private theorem solids_terminated (fits : row string.tree.children ∈ (shape missing .string).matches')
    (terminated : string.isTerminated = true) :
    row string.tree.children = [.token .doubleQuote, .token .doubleQuote] ∨
      row string.tree.children = [.token .doubleQuote, .token .stringContent, .token .doubleQuote] := by
  have quotes : (row string.tree.children).count (.token .doubleQuote) = 2 := by
    have counted : string.children.countP (·.kind = .token .doubleQuote) = 2 := beq_iff_eq.mp terminated
    rw [← Placed.solids_kinds, List.count_eq_countP, List.countP_map, Placed.solids, List.countP_filter, ← counted]
    apply List.countP_congr
    intro child _
    by_cases quote : child.kind = .token .doubleQuote <;> simp [quote, Kind.isTrivia, TokenKind.isTrivia]
  obtain ⟨_, rfl, _, ⟨inside, content, closer, closing, rfl⟩, same⟩ := mem_seq.mp fits
  rw [← same] at quotes ⊢
  rcases mem_maybe.mp content with rfl | filled <;> rcases mem_maybe.mp closing with rfl | closed
  · simp at quotes
  · cases mem_char.mp closed
    exact .inl rfl
  · cases mem_char.mp filled
    simp at quotes
  · cases mem_char.mp filled
    cases mem_char.mp closed
    exact .inr rfl

private theorem content?_solids (place : Placed) : place.content? = place.solids.find? (·.kind = .token .stringContent) := by
  rw [Placed.solids, List.find?_filter]
  apply congrArg (place.children.find? ·)
  funext child
  cases tagged : child.kind with
  | node => simp
  | token kind => cases kind <;> simp [Kind.isTrivia, TokenKind.isTrivia]

private theorem token_of_kind {place : Placed} {kind : TokenKind} (made : place.kind = .token kind) :
    ∃ token, place.tree = .leaf token := by
  obtain ⟨start, tree⟩ := place
  cases tree with
  | leaf token => exact ⟨token, rfl⟩
  | node => cases made

theorem line_trees (start : Nat) (trees : List Tree) : (Placed.line start trees).map Placed.tree = trees := by
  induction trees generalizing start with
  | nil => rfl
  | cons tree rest ih => exact congrArg (tree :: ·) (ih _)

/-- The quotes of a closed string and what it holds are among its tokens, in that order. -/
private theorem terminated_tokens (fits : row string.tree.children ∈ (shape missing .string).matches')
    (terminated : string.isTerminated = true) : string.stringValue = "" ∨ ∃ opening inside closing,
      [opening, inside, closing].Sublist (Tree.leavesOf string.tree.children) ∧
        inside.kind = .stringContent ∧ string.stringValue = unescape inside.text := by
  have solids := string.solids_kinds
  rcases solids_terminated fits terminated with empty | filled
  · rw [empty] at solids
    obtain ⟨opening, _, listed, opens, solids⟩ := List.map_eq_cons_iff.mp solids
    obtain ⟨closing, _, rfl, closes, solids⟩ := List.map_eq_cons_iff.mp solids
    cases List.map_eq_nil_iff.mp solids
    have none : string.content? = none := by
      rw [content?_solids, listed]
      simp [opens, closes]
    exact .inl (by rw [Placed.stringValue, none]; rfl)
  · rw [filled] at solids
    obtain ⟨opening, _, listed, opens, solids⟩ := List.map_eq_cons_iff.mp solids
    obtain ⟨content, _, rfl, inside, solids⟩ := List.map_eq_cons_iff.mp solids
    obtain ⟨closing, _, rfl, closes, solids⟩ := List.map_eq_cons_iff.mp solids
    cases List.map_eq_nil_iff.mp solids
    obtain ⟨first, opener⟩ := token_of_kind opens
    obtain ⟨middle, held⟩ := token_of_kind inside
    obtain ⟨last, closer⟩ := token_of_kind closes
    have found : string.content? = some content := by
      rw [content?_solids, listed]
      simp [opens, inside]
    have among : (string.solids.map Placed.tree).Sublist string.tree.children := by
      rw [← line_trees string.start string.tree.children]
      exact List.filter_sublist.map _
    rw [listed] at among
    simp only [List.map_cons, List.map_nil, opener, held, closer] at among
    refine .inr ⟨first, middle, last, leavesOf_sublist among, ?_, ?_⟩
    · simpa [Placed.kind, held, Tree.kind] using inside
    · simp [Placed.stringValue, found, Placed.text, held, Tree.text, Tree.leaves]

end

private theorem ReadsAs.cut {limit : Nat} {source value : String} (reads : ReadsAs limit source value) :
    value = "" ∨ ∃ opening inside closing, [opening, inside, closing].Sublist (Token.ofText source) ∧
      inside.kind = .stringContent ∧ value = unescape inside.text := by
  obtain ⟨node, string, items, _, stringed, terminated, rfl⟩ := reads.literal
  have placed : node ∈ (parse limit source).tree.placed.children :=
    List.mem_of_mem_filter (items ▸ List.mem_singleton.mpr rfl)
  have lineage : Lineage (parse limit source).tree.placed [string, node, _] :=
    .child (.child .root placed) (List.mem_of_find?_eq_some stringed)
  have kind : string.kind = .node .string := by simpa [Placed.isNode] using List.find?_some stringed
  have fits : row string.tree.children ∈ (shape _ .string).matches' := parse_fits lineage.mem_sites kind
  refine (terminated_tokens fits terminated).imp_right ?_
  rintro ⟨opening, inside, closing, among, rest⟩
  obtain ⟨children, shape⟩ := Placed.of_kind kind
  obtain ⟨before, after, leaves, _⟩ := lineage.leaves
  have whole : (parse limit source).tree.placed.tree.leaves = Token.ofText source := parse_leaves limit source
  rw [whole, shape, Tree.leaves] at leaves
  rw [shape] at among
  refine ⟨opening, inside, closing, ?_, rest⟩
  rw [leaves]
  exact among.trans ((List.sublist_append_left ..).trans (List.sublist_append_right ..))

/-- What is put between two quotes reads as itself exactly if nothing in it has to be escaped. -/
private theorem readsAs_bare_iff (room : Nat) (literal : String) :
    ReadsAs (room + 1) ("\"" ++ literal ++ "\"") literal ↔ ∀ c ∈ literal.toList, standsBare c = true := by
  refine ⟨fun reads => ?_, readsAs_bare room⟩
  rcases reads.cut with rfl | ⟨opening, inside, closing, among, held, value⟩
  · exact nofun
  have filled (token : Token) (member : token ∈ Token.ofText ("\"" ++ literal ++ "\"")) : 0 < token.length :=
    Token.length_pos (Token.ofText_filled member)
  have opened := filled opening (among.subset (by simp))
  have closed := filled closing (among.subset (by simp))
  have whole : total Token.length (Token.ofText ("\"" ++ literal ++ "\"")) = literal.utf8ByteSize + 2 := by
    rw [← Token.length_join, Token.ofText_joins, String.utf8ByteSize_append, String.utf8ByteSize_append,
      show "\"".utf8ByteSize = 1 from rfl]
    omega
  have read : literal.toList = unescapeChars inside.text.toList := by rw [value, unescape, String.toList_ofList]
  -- Reading makes nothing longer, so the content is all that stands between the quotes.
  have shorter := unescapeChars_le inside.text.toList
  have parts := total_sublist among
  rw [← read, utf8Length_toList, utf8Length_toList] at shorter
  simp only [total_cons, total_nil, whole] at parts
  have content : inside.length = inside.text.utf8ByteSize := rfl
  have cut := eq_of_sublist_total among filled (by simp only [total_cons, total_nil, whole]; omega)
  have resolved : unescapeChars inside.text.toList = inside.text.toList := by
    apply unescapeChars_same
    rw [← read, utf8Length_toList, utf8Length_toList]
    omega
  obtain rfl : inside.text = literal := String.toList_inj.mp (resolved.symm.trans read.symm)
  have kept : [opening, inside, closing] = [opening, ⟨.stringContent, String.ofList inside.text.toList⟩, closing] := by
    rw [String.ofList_toList, ← held]
  rw [between_quotes] at cut
  exact Token.bare_of_cut (cut.symm.trans kept) resolved

end TreeQuery.Syntax

namespace TreeQuery.Completion
open Grammar Syntax Text

/-- A quoted literal is cut as one string, and a text of nothing else reads as that literal without a report. -/
theorem quoted_literal_reads (literal : String) : (literalRendition literal).wrapped.label = quote literal ∧
    (∃ content, Token.ofText (quote literal) = Token.quoteMark :: (content ++ [Token.quoteMark]) ∧
      content.length ≤ 1 ∧ ∀ token ∈ content, token.kind = .stringContent) ∧
    ∀ room, ReadsAs (room + 1) (quote literal) literal := by
  refine ⟨rfl, ⟨_, Token.ofText_quote literal, ?_⟩, fun room => readsAs_quote room literal⟩
  unfold Token.contentTokens
  split <;> simp

variable {env : Environment} {literal : String} {item : Item}

private theorem stringContents_bare {parent field : Option String}
    (offered : item ∈ stringContents env (.ofEnvironment env) parent field) : item.text = item.label := by
  have within (types : FlatTypes) (member : item ∈ literalsWithin (.ofEnvironment env) false types) :
      item.text = item.label := by
    obtain ⟨name, rendition, entry, _, rfl⟩ := mem_itemsWhere.mp member
    obtain ⟨_, rfl⟩ := mem_literals entry
    rfl
  unfold stringContents at offered
  split at offered
  next => exact within _ offered
  next =>
    split at offered
    next => exact within _ offered
    next =>
      obtain ⟨rendition, among, rfl⟩ := List.mem_map.mp offered
      obtain ⟨⟨name, held⟩, entry, rfl⟩ := List.mem_map.mp among
      obtain ⟨_, rfl⟩ := mem_literals entry
      rfl

/-- Between quotes that are typed already literals are offered as they are. One that is accepted there
reads as itself exactly if nothing in it has to be escaped. -/
theorem typed_literal_reads_iff (room : Nat) (captures : Option CaptureIndex) (known : literal ∈ env.literals) :
    .plain .literal literal ∈ offer env (.ofEnvironment env) captures (.stringContent none none) ∧
    ∀ parent field, ∀ item ∈ offer env (.ofEnvironment env) captures (.stringContent parent field), item.label = literal →
      (ReadsAs (room + 1) ("\"" ++ item.text ++ "\"") literal ↔ ∀ c ∈ literal.toList, standsBare c = true) := by
  constructor
  · have entry := literals_has known
    exact List.mem_map.mpr ⟨_, List.mem_map.mpr ⟨_, entry, rfl⟩, rfl⟩
  · rintro parent field item offered rfl
    rw [stringContents_bare offered]
    exact readsAs_bare_iff room item.label

def operators : Environment := .ofDeclarations [.literal "\\" ⟨false, false⟩, .literal "->" ⟨false, false⟩]

theorem arrow_reads : "->" ∈ operators.literals ∧ ReadsAs 512 ("\"" ++ "->" ++ "\"") "->" := by
  have known : "->" ∈ operators.literals := by decide
  obtain ⟨offered, reads⟩ := typed_literal_reads_iff 511 none known
  exact ⟨known, (reads none none _ offered rfl).mpr (by simp [standsBare])⟩

/-- A backslash takes the closing quote for the character that it escapes. -/
theorem backslash_misread : "\\" ∈ operators.literals ∧
    ∃ item ∈ offer operators (.ofEnvironment operators) none (.stringContent none none),
      item.label = "\\" ∧ ¬ ReadsAs 512 ("\"" ++ item.text ++ "\"") "\\" := by
  refine ⟨by decide, .plain .literal "\\", by decide, rfl, fun reads => ?_⟩
  have reported : (parse 512 "\"\\\"").reports ≠ [] := by decide +kernel
  exact reported reads.silent

end TreeQuery.Completion
