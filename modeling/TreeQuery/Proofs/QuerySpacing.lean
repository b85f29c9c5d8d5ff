import TreeQuery.Proofs.ParserPairs
import TreeQuery.Proofs.ParserShapes
import TreeQuery.Proofs.NestingCutoff
import TreeQuery.Proofs.QueryPhrases
import TreeQuery.Proofs.ReadingAcceptance

/-! Blank space, line breaks and comments do not change how a text is parsed: two texts with the same tokens
apart from these have the same tree apart from these, and the same reports, each at the same tokens. -/

namespace TreeQuery.Syntax
open Text (Span)
open Diagnostic (Report)

/-- The spans of the tokens that are no trivia, the first of all tokens beginning at `start`. -/
def solidSpans (start : Nat) : List Token → List Span
  | [] => []
  | token :: rest =>
    if token.isTrivia then solidSpans (start + token.length) rest
    else ⟨start, start + token.length⟩ :: solidSpans (start + token.length) rest

/-- One edge of each token that is no trivia, and the end of the text. -/
def borders (edge : Span → Nat) (source : String) : List Nat :=
  (solidSpans 0 (Token.ofText source)).map edge ++ [source.utf8ByteSize]

/-- The edges are those of one token in both texts, or the ends of the texts. -/
def SameBorder (edge : Span → Nat) (source other : String) (offset twin : Nat) : Prop :=
  ∃ n : Nat, (borders edge source)[n]? = some offset ∧ (borders edge other)[n]? = some twin

structure Corresponds (source other : String) (span twin : Span) : Prop where
  start : SameBorder Span.start source other span.start twin.start
  stop : SameBorder Span.stop source other span.stop twin.stop

/-- Two reports that say the same about corresponding places. -/
structure Twins (source other : String) (report twin : Report) : Prop where
  same : twin = { report with span := twin.span }
  places : Corresponds source other report.span twin.span

/-- The same word. Whether the next one follows at once counts only after a sign, a quote or the content of a string. -/
structure Word.Agrees (word twin : Word) : Prop where
  kind : word.kind = twin.kind
  text : word.text = twin.text
  joined : word.kind.joins = true → word.joined = twin.joined

def Word.token (word : Word) : Token := ⟨word.kind, word.text⟩

private theorem words_tokens (tokens : List Token) : (words tokens).map Word.token = solids tokens := by
  unfold solids
  induction tokens with
  | nil => rfl
  | cons token rest ih => cases blank : token.isTrivia <;> simp_all [words, Word.token]

namespace Tree

mutual

/-- A tree without the trivia in it. -/
def bare : Tree → Tree
  | leaf token => leaf token
  | node kind children => node kind (bareOf children)

def bareOf : List Tree → List Tree
  | [] => []
  | tree :: rest => if tree.kind.isTrivia then bareOf rest else tree.bare :: bareOf rest

end

private theorem bareOf_append (trees later : List Tree) : bareOf (trees ++ later) = bareOf trees ++ bareOf later := by
  induction trees with
  | nil => rfl
  | cons tree rest ih =>
    rw [List.cons_append, bareOf, bareOf, ih]
    split <;> rfl

private theorem bareOf_tokens (tokens : List Token) : bareOf (tokens.map .leaf) = (solids tokens).map .leaf := by
  induction tokens with
  | nil => rfl
  | cons token rest ih =>
    rw [List.map_cons, bareOf, ih]
    have same : (leaf token).kind.isTrivia = token.isTrivia := rfl
    rw [same]
    unfold solids
    rw [List.filter_cons]
    cases token.isTrivia <;> rfl

private theorem bareOf_after {blanks : List Token} (blank : ∀ token ∈ blanks, token.isTrivia = true) (trees : List Tree) :
    bareOf (blanks.map .leaf ++ trees) = bareOf trees := by
  rw [bareOf_append, bareOf_tokens, solids_blank blank]
  rfl

end Tree

variable {start : Nat} {tokens : List Token}

private theorem solidSpans_skip (start : Nat) (tokens : List Token) :
    solidSpans (start + Text.total Token.length (tokens.takeWhile Token.isTrivia)) (tokens.dropWhile Token.isTrivia) =
      solidSpans start tokens := by
  induction tokens generalizing start with
  | nil => rfl
  | cons token rest ih =>
    cases blank : token.isTrivia with
    | true =>
      rw [List.takeWhile_cons_of_pos blank, List.dropWhile_cons_of_pos blank, Text.total_cons, ← Nat.add_assoc, ih,
        solidSpans, if_pos blank]
    | false =>
      have solid : ¬ token.isTrivia = true := by simp [blank]
      rw [List.takeWhile_cons_of_neg solid, List.dropWhile_cons_of_neg solid]
      rfl

private theorem solidSpans_length (start : Nat) (tokens : List Token) :
    (solidSpans start tokens).length = (words tokens).length := by
  induction tokens generalizing start with
  | nil => rfl
  | cons token rest ih =>
    rw [solidSpans, words]
    split
    · exact ih _
    · rw [List.length_cons, List.length_cons, ih]

private theorem solidSpans_within (filled : ∀ token ∈ tokens, 0 < token.length) :
    ∀ span ∈ solidSpans start tokens, start ≤ span.start ∧ span.start < start + Text.total Token.length tokens := by
  induction tokens generalizing start with
  | nil => exact nofun
  | cons token rest ih =>
    intro span member
    have first := filled token List.mem_cons_self
    have later := @ih (start + token.length) fun other inside => filled other (List.mem_cons_of_mem _ inside)
    rw [Text.total_cons]
    rw [solidSpans] at member
    split at member
    · have within := later span member
      omega
    · rcases List.mem_cons.mp member with rfl | member
      · exact ⟨Nat.le_refl _, by dsimp; omega⟩
      · have within := later span member
        omega

private theorem solidSpans_starts (filled : ∀ token ∈ tokens, 0 < token.length) :
    ((solidSpans start tokens).map Span.start).Pairwise (· < ·) := by
  induction tokens generalizing start with
  | nil => exact .nil
  | cons token rest ih =>
    have first := filled token List.mem_cons_self
    have others : ∀ other ∈ rest, 0 < other.length := fun other inside => filled other (List.mem_cons_of_mem _ inside)
    rw [solidSpans]
    split
    · exact ih others
    · rw [List.map_cons]
      refine .cons (fun later member => ?_) (ih others)
      obtain ⟨span, among, rfl⟩ := List.mem_map.mp member
      have within := (solidSpans_within others span among).1
      dsimp
      omega

private theorem total_ofText (source : String) : Text.total Token.length (Token.ofText source) = source.utf8ByteSize := by
  rw [← Token.length_join, Token.ofText_joins]

/-- No two tokens begin at one place, nor does one at the end. -/
private theorem borders_start_nodup (source : String) : (borders Span.start source).Nodup := by
  have filled : ∀ token ∈ Token.ofText source, 0 < token.length := fun token member =>
    Token.length_pos (Token.ofText_filled member)
  have increasing : (borders Span.start source).Pairwise (· < ·) := by
    refine List.pairwise_append.mpr ⟨solidSpans_starts filled, List.pairwise_singleton _ _, ?_⟩
    intro first member last final
    obtain ⟨span, among, rfl⟩ := List.mem_map.mp member
    rw [List.mem_singleton.mp final, ← total_ofText]
    simpa using (solidSpans_within filled span among).2
  exact increasing.imp Nat.ne_of_lt

private theorem SameBorder.iff {source other : String} {first second twin last : Nat}
    (one : SameBorder Span.start source other first twin) (two : SameBorder Span.start source other second last) :
    first = second ↔ twin = last := by
  obtain ⟨n, here, there⟩ := one
  obtain ⟨m, here', there'⟩ := two
  have inside {source : String} {n offset : Nat} (found : (borders Span.start source)[n]? = some offset) :
      n < (borders Span.start source).length := (List.getElem?_eq_some_iff.mp found).1
  constructor
  · rintro rfl
    have same : n = m := (List.getElem?_inj (inside here) (borders_start_nodup source)).mp (here.trans here'.symm)
    exact Option.some.inj (there.symm.trans (same ▸ there'))
  · rintro rfl
    have same : n = m := (List.getElem?_inj (inside there) (borders_start_nodup other)).mp (there.trans there'.symm)
    exact Option.some.inj (here.symm.trans (same ▸ here'))

namespace Respaced

/-- A place in the tokens of a text, only trivia waiting. -/
structure Follows (source : String) (cursor : Cursor) : Prop where
  spans : solidSpans cursor.offset cursor.rest <:+ solidSpans 0 (Token.ofText source)
  stop : cursor.stop = source.utf8ByteSize
  blank : ∀ token ∈ cursor.waiting, token.isTrivia = true

/-- The same words are ahead, and what was reported last began at the same place. -/
structure Abreast (source other : String) (here there : Cursor) : Prop where
  first : Follows source here
  second : Follows other there
  words : List.Forall₂ Word.Agrees (words here.rest) (words there.rest)
  deep : here.exhausted = there.exhausted
  spent : here.exhausted = true → Syntax.words there.rest = []
  reported : Option.Rel (SameBorder Span.start source other) here.reported there.reported

structure Alike (source other : String) (part mate : Stretch) : Prop where
  trees : Tree.bareOf part.trees = Tree.bareOf mate.trees
  reports : List.Forall₂ (Twins source other) part.reports mate.reports
  abreast : Abreast source other part.after mate.after

variable {source other : String} {here there : Cursor} {part mate later last : Stretch}

private theorem Follows.skip {cursor : Cursor} (follows : Follows source cursor) : Follows source cursor.skip where
  spans := solidSpans_skip cursor.offset cursor.rest ▸ follows.spans
  stop := (stops.skip cursor).trans follows.stop
  blank := Cursor.skip_blank follows.blank

private theorem Follows.take {cursor : Cursor} {token : Token} {rest : List Token} (follows : Follows source cursor)
    (left : cursor.skip.rest = token :: rest) : Follows source (Reading.take cursor).next := by
  have spans := follows.skip.spans
  have stop := (stops.take cursor).trans follows.stop
  rw [left, solidSpans, if_neg (by simp [Cursor.skip_solid left])] at spans
  rw [Reading.take_token left] at stop ⊢
  exact ⟨(List.suffix_cons _ _).trans spans, stop, nofun⟩

private theorem Follows.noted {cursor : Cursor} (follows : Follows source cursor) (looks : Nat) (fault : Option Fault) :
    Follows source { cursor with looks, fault } := ⟨follows.spans, follows.stop, follows.blank⟩

private theorem Abreast.noted (abreast : Abreast source other here there) (looks more : Nat) (fault twin : Option Fault) :
    Abreast source other { here with looks, fault } { there with looks := more, fault := twin } :=
  ⟨abreast.first.noted looks fault, abreast.second.noted more twin, abreast.words, abreast.deep, abreast.spent,
    abreast.reported⟩

private theorem Abreast.look (abreast : Abreast source other here there) : Abreast source other here.look there.look := by
  obtain ⟨fault, look⟩ := here.look_eq
  obtain ⟨twin, look'⟩ := there.look_eq
  rw [look, look']
  exact abreast.noted _ _ fault twin

private theorem Abreast.skip (abreast : Abreast source other here there) : Abreast source other here.skip there.skip where
  first := abreast.first.skip
  second := abreast.second.skip
  words := by
    change List.Forall₂ Word.Agrees (Syntax.words (here.rest.dropWhile _)) (Syntax.words (there.rest.dropWhile _))
    rw [words_dropWhile, words_dropWhile]
    exact abreast.words
  deep := abreast.deep
  spent deep := (words_dropWhile _).trans (abreast.spent deep)
  reported := abreast.reported

private theorem Abreast.unplaced (abreast : Abreast source other here there) :
    Abreast source other here.unplaced there.unplaced :=
  ⟨⟨abreast.first.spans, abreast.first.stop, List.forall_mem_nil _⟩,
    ⟨abreast.second.spans, abreast.second.stop, List.forall_mem_nil _⟩, abreast.words,
    abreast.deep, abreast.spent, abreast.reported⟩

/-- The same token is next, or both texts end. -/
inductive Next (here there : Cursor) : Prop
  | ended (here : here.skip.rest = []) (there : there.skip.rest = [])
  | token {token : Token} {rest rest' : List Token} (here : here.skip.rest = token :: rest)
    (there : there.skip.rest = token :: rest') (words : List.Forall₂ Word.Agrees (words rest) (words rest'))
    (joined : token.kind.joins = true → rest.head?.any (!·.isTrivia) = rest'.head?.any (!·.isTrivia))

private theorem Abreast.next (abreast : Abreast source other here there) : Next here there := by
  have same := abreast.skip.words
  cases left : here.skip.rest with
  | nil =>
    rw [left] at same
    refine .ended left ?_
    cases left' : there.skip.rest with
    | nil => rfl
    | cons token rest =>
      rw [left', words_solid (Cursor.skip_solid left')] at same
      cases same
  | cons token rest =>
    rw [left, words_solid (Cursor.skip_solid left)] at same
    cases left' : there.skip.rest with
    | nil =>
      rw [left'] at same
      cases same
    | cons twin rest' =>
      rw [left', words_solid (Cursor.skip_solid left')] at same
      obtain ⟨agrees, others⟩ := List.forall₂_cons.mp same
      obtain rfl : token = twin := by
        cases token
        cases twin
        exact congrArg₂ Token.mk agrees.kind agrees.text
      exact .token left left' others agrees.joined

private theorem agree_tokens {ahead twin : List Word} (agree : List.Forall₂ Word.Agrees ahead twin) :
    ahead.map Word.token = twin.map Word.token := by
  induction agree with
  | nil => rfl
  | cons agrees _ ih => rw [List.map_cons, List.map_cons, Word.token, agrees.kind, agrees.text, ih]; rfl

private theorem agree_kinds {ahead twin : List Word} (agree : List.Forall₂ Word.Agrees ahead twin) :
    ahead.map Word.kind = twin.map Word.kind := by
  induction agree with
  | nil => rfl
  | cons agrees _ ih => rw [List.map_cons, List.map_cons, agrees.kind, ih]

private theorem Abreast.beside {token : Token} {rest : List Token} (abreast : Abreast source other here there)
    (left : here.skip.rest = token :: rest) (joins : token.kind.joins = true) :
    Beside (Reading.take here).next (Reading.take there).next := by
  cases abreast.next with
  | ended ended => cases ended.symm.trans left
  | @token token rest rest' left₁ left' words joined =>
    obtain ⟨rfl, rfl⟩ := List.cons.inj (left₁.symm.trans left)
    intro kind solid
    have first := congrArg List.head? (agree_kinds words)
    rw [List.head?_map, List.head?_map] at first
    rw [Reading.take_token left, Reading.take_token left']
    change rest.head?.map Token.kind = some kind ↔ rest'.head?.map Token.kind = some kind
    rw [words_adjoin solid, words_adjoin solid, joined joins, ← head?_kind_iff, ← head?_kind_iff, first]

/-- As many tokens are left to one text as to the other. -/
private theorem Follows.border {cursor twin : Cursor} (follows : Follows source cursor) (mirrors : Follows other twin)
    (whole : (solidSpans 0 (Token.ofText source)).length = (solidSpans 0 (Token.ofText other)).length)
    {ahead ahead' : List Span} (spans : solidSpans cursor.offset cursor.rest = ahead)
    (spans' : solidSpans twin.offset twin.rest = ahead') (left : ahead.length = ahead'.length) (edge : Span → Nat) :
    SameBorder edge source other ((ahead.head?.map edge).getD source.utf8ByteSize)
      ((ahead'.head?.map edge).getD other.utf8ByteSize) := by
  obtain ⟨before, split⟩ := follows.spans
  obtain ⟨before', split'⟩ := mirrors.spans
  rw [spans] at split
  rw [spans'] at split'
  have passed : before.length = before'.length := by
    rw [← split, ← split', List.length_append, List.length_append] at whole
    omega
  have found {source : String} {before ahead : List Span}
      (split : before ++ ahead = solidSpans 0 (Token.ofText source)) :
      (borders edge source)[before.length]? = some ((ahead.head?.map edge).getD source.utf8ByteSize) := by
    rw [borders, ← split, List.map_append, List.append_assoc, List.getElem?_append_right (by simp)]
    cases ahead <;> simp
  exact ⟨before.length, found split, passed ▸ found split'⟩

/-- The span at a cursor is that of the next token, empty at the end of the text. -/
private theorem Follows.span {cursor : Cursor} (follows : Follows source cursor) :
    cursor.skip.span =
      ⟨((solidSpans cursor.skip.offset cursor.skip.rest).head?.map Span.start).getD source.utf8ByteSize,
        ((solidSpans cursor.skip.offset cursor.skip.rest).head?.map Span.stop).getD source.utf8ByteSize⟩ := by
  have stop := follows.skip.stop
  rw [Cursor.stop] at stop
  rw [Cursor.span]
  cases left : cursor.skip.rest with
  | nil =>
    rw [left] at stop
    simpa [solidSpans] using stop
  | cons token rest =>
    rw [solidSpans, if_neg (by simp [Cursor.skip_solid left])]
    rfl

section Corresponding

variable (whole : (solidSpans 0 (Token.ofText source)).length = (solidSpans 0 (Token.ofText other)).length)
include whole

private theorem Abreast.span (abreast : Abreast source other here there) :
    Corresponds source other here.skip.span there.skip.span := by
  have left : (solidSpans here.skip.offset here.skip.rest).length = (solidSpans there.skip.offset there.skip.rest).length := by
    rw [solidSpans_length, solidSpans_length, abreast.skip.words.length_eq]
  have border := abreast.first.skip.border abreast.second.skip whole rfl rfl left
  rw [abreast.first.span, abreast.second.span]
  exact ⟨border Span.start, border Span.stop⟩

private theorem sameEnd (edge : Span → Nat) : SameBorder edge source other source.utf8ByteSize other.utf8ByteSize := by
  refine ⟨(solidSpans 0 (Token.ofText source)).length, ?_, ?_⟩
  · simp [borders]
  · rw [whole]
    simp [borders]

end Corresponding

private theorem Alike.still (abreast : Abreast source other here there) : Alike source other (.still here) (.still there) :=
  ⟨rfl, .nil, abreast⟩

private theorem Alike.chain (alike : Alike source other part mate) (further : Alike source other later last) :
    Alike source other (part.extend later) (mate.extend last) := by
  refine ⟨?_, List.rel_append alike.reports further.reports, further.abreast⟩
  rw [Stretch.extend, Stretch.extend, Tree.bareOf_append, Tree.bareOf_append, alike.trees, further.trees]

private theorem Alike.take (abreast : Abreast source other here there) (ahead : Ahead here) :
    Alike source other (Reading.take.stretch here) (Reading.take.stretch there) := by
  cases abreast.next with
  | ended left => exact absurd left ahead
  | @token token rest rest' left left' words _ =>
    have first := abreast.first.take left
    have second := abreast.second.take left'
    have awake : here.exhausted = true → False := by
      intro deep
      have none := (words_dropWhile there.rest).trans (abreast.spent deep)
      change Syntax.words there.skip.rest = [] at none
      rw [left', words_solid (Cursor.skip_solid left')] at none
      cases none
    have placed {cursor : Cursor} (blank : ∀ token ∈ cursor.skip.waiting, token.isTrivia = true) :
        Tree.bareOf ((cursor.skip.waiting ++ [token]).map .leaf) = Tree.bareOf [.leaf token] := by
      rw [List.map_append]
      exact Tree.bareOf_after blank _
    unfold Reading.stretch
    rw [Reading.take_token left] at first ⊢
    rw [Reading.take_token left'] at second ⊢
    refine ⟨?_, .nil, ⟨first, second, words, abreast.deep, fun deep => (awake deep).elim, abreast.reported⟩⟩
    exact (placed abreast.first.skip.blank).trans (placed abreast.second.skip.blank).symm

private theorem Alike.around (kind : NodeKind) (abreast : Abreast source other here there)
    (alike : Alike source other part mate) :
    Alike source other (.around here kind part) (.around there kind mate) := by
  refine ⟨?_, alike.reports, alike.abreast⟩
  rw [Stretch.around, Stretch.around, Tree.bareOf_after abreast.first.blank, Tree.bareOf_after abreast.second.blank]
  simp [Tree.bareOf, Tree.kind, Kind.isTrivia, Tree.bare, alike.trees]

/-- A report repeats the place of the last one in both runs or in none. -/
private theorem Alike.report {report : Report} {span : Span} (abreast : Abreast source other here there)
    (matching : Corresponds source other report.span span) :
    Alike source other ((Reading.report report).stretch here) ((Reading.report { report with span }).stretch there) := by
  have same : (here.exhausted || decide (here.reported = some report.span.start)) =
      (there.exhausted || decide (there.reported = some span.start)) := by
    rw [abreast.deep]
    congr 1
    cases seen : here.reported <;> cases seen' : there.reported <;> have rel := abreast.reported <;>
      rw [seen, seen'] at rel <;> cases rel
    · simp
    next place => simpa using place.iff matching.start
  unfold Reading.stretch Reading.report
  rw [same]
  split
  · exact .still abreast
  · exact ⟨rfl, .cons ⟨rfl, matching⟩ .nil, ⟨⟨abreast.first.spans, abreast.first.stop, abreast.first.blank⟩,
      ⟨abreast.second.spans, abreast.second.stop, abreast.second.blank⟩, abreast.words, abreast.deep, abreast.spent,
      .some matching.start⟩⟩

/-- What is left after everything was swallowed. -/
private theorem Follows.swallowed (cursor : Cursor) (follows : Follows source cursor) :
    Follows source (Reading.repeatWhile Parser.swallow cursor).next ∧
      words (Reading.repeatWhile Parser.swallow cursor).next.rest = [] := by
  obtain ⟨ended, blank⟩ := Parser.swallow_finishes follows.blank
  have none : words (Reading.repeatWhile Parser.swallow cursor).next.rest = [] := by
    rw [← words_kinds] at ended
    exact List.map_eq_nil_iff.mp ended
  have spans : solidSpans (Reading.repeatWhile Parser.swallow cursor).next.offset
      (Reading.repeatWhile Parser.swallow cursor).next.rest = [] := by
    apply List.eq_nil_of_length_eq_zero
    rw [solidSpans_length, none]
    rfl
  refine ⟨⟨?_, (stops.repeatWhile stops.swallow cursor).trans follows.stop, blank⟩, none⟩
  rw [spans]
  exact List.nil_suffix

/-- Both runs give up at the same place and swallow the same tokens. -/
private theorem Alike.giveUp (whole : (solidSpans 0 (Token.ofText source)).length = (solidSpans 0 (Token.ofText other)).length)
    (abreast : Abreast source other here there) :
    Alike source other (Parser.giveUp.stretch here) (Parser.giveUp.stretch there) := by
  let begun (cursor : Cursor) : Cursor := { cursor.skip.skip with waiting := [], exhausted := true }
  have twice := abreast.skip.skip
  obtain ⟨first, none⟩ := Follows.swallowed (begun here) ⟨twice.first.spans, twice.first.stop, nofun⟩
  obtain ⟨second, none'⟩ := Follows.swallowed (begun there) ⟨twice.second.spans, twice.second.stop, nofun⟩
  have fresh (cursor : Cursor) : ∀ token ∈ (begun cursor).waiting, token.isTrivia = true := nofun
  obtain ⟨tokens, placed, same⟩ := Parser.swallow_row (fresh here)
  obtain ⟨tokens', placed', same'⟩ := Parser.swallow_row (fresh there)
  have trees (cursor : Cursor) : (Parser.giveUp cursor).trees = cursor.skip.skip.waiting.map .leaf ++
      [.node .error (Reading.repeatWhile Parser.swallow (begun cursor)).trees] := rfl
  have reports (cursor : Cursor) : (Parser.giveUp cursor).reports = .of .nestingTooDeep ⟨cursor.skip.span.start, cursor.skip.skip.stop⟩ ::
      (Reading.repeatWhile Parser.swallow (begun cursor)).reports := rfl
  have quiet (cursor : Cursor) : (Reading.repeatWhile Parser.swallow (begun cursor)).reports = [] :=
    ((hushes.repeatWhile hushes.swallow (begun cursor)).quiet rfl).1
  have deep (cursor : Cursor) : (Reading.repeatWhile Parser.swallow (begun cursor)).next.exhausted = true :=
    ((hushes.repeatWhile hushes.swallow (begun cursor)).quiet rfl).2
  have swallowed : solids tokens = solids tokens' := by
    rw [same, same', ← words_tokens, ← words_tokens]
    exact agree_tokens twice.words
  have error (tokens : List Token) : Tree.bareOf [.node .error (tokens.map .leaf)] = [.node .error ((solids tokens).map .leaf)] := by
    rw [Tree.bareOf, Tree.bare, Tree.bareOf_tokens]
    rfl
  have reported (cursor : Cursor) : (Reading.repeatWhile Parser.swallow (begun cursor)).next.reported = cursor.reported :=
    remembers.repeatWhile remembers.swallow (begun cursor) (quiet cursor)
  have given : Abreast source other (Parser.giveUp here).next (Parser.giveUp there).next := by
    refine ⟨first, second, ?_, (deep here).trans (deep there).symm, fun _ => none', ?_⟩
    · change List.Forall₂ _ (words (Reading.repeatWhile Parser.swallow (begun here)).next.rest)
        (words (Reading.repeatWhile Parser.swallow (begun there)).next.rest)
      rw [none, none']
      exact .nil
    · change Option.Rel _ (Reading.repeatWhile Parser.swallow (begun here)).next.reported
        (Reading.repeatWhile Parser.swallow (begun there)).next.reported
      rw [reported, reported]
      exact abreast.reported
  unfold Reading.stretch
  refine ⟨?_, ?_, given⟩
  · rw [trees, trees, Tree.bareOf_after twice.first.blank, Tree.bareOf_after twice.second.blank, placed, placed', error,
      error, swallowed]
  · rw [reports, reports, quiet, quiet]
    refine .cons ⟨rfl, ⟨(abreast.span whole).start, ?_⟩⟩ .nil
    change SameBorder Span.stop source other here.skip.skip.stop there.skip.skip.stop
    rw [twice.first.stop, twice.second.stop]
    exact sameEnd whole _

end Respaced

open Respaced in
/-- Runs over two texts with the same words. -/
def respaced (source other : String)
    (whole : (solidSpans 0 (Token.ofText source)).length = (solidSpans 0 (Token.ofText other)).length) : Pairing where
  beyond := []
  deeper := 0
  apart := False
  abreast := Abreast source other
  matching := Corresponds source other
  alike := Alike source other
  parted _ _ := False
  opens := none_beyond
  kinds abreast := by
    rw [List.append_nil, ← words_kinds, ← words_kinds]
    exact (agree_kinds abreast.words).symm
  blank abreast := ⟨abreast.first.blank, abreast.second.blank⟩
  deep abreast := abreast.deep
  spent abreast deep := by
    rw [← words_kinds, abreast.spent deep]
    rfl
  text abreast ahead := by
    cases abreast.next with
    | ended left => exact absurd left ahead
    | token left left' =>
      rw [left, left']
      rfl
  span abreast := abreast.span whole
  joint first last := ⟨first.start, last.stop⟩
  beside abreast kinds joins := by
    obtain ⟨token, rest, left, same, _⟩ := Cursor.first kinds
    exact abreast.beside left (same ▸ joins)
  onward alike := alike.abreast
  still := .still
  chain alike _ _ later := alike.chain later
  look abreast := ⟨rfl, .nil, abreast.look⟩
  rest abreast := ⟨rfl, .nil, abreast.noted _ _ _ _⟩
  skip abreast := ⟨rfl, .nil, abreast.skip⟩
  take := .take
  unplaced abreast _ := abreast.unplaced
  around abreast _ _ _ alike := .around _ abreast alike
  found abreast _ _ matching := .inl (.report abreast matching)
  limit abreast _ awake := by
    have awake' := abreast.deep.symm.trans awake
    refine .inl ?_
    rw [Parser.pattern, Reading.stretch, Reading.stretch, Reading.unlessExhausted_awake awake']
    exact .giveUp whole abreast
  stray _ some := absurd rfl some
  unclosed _ := False.elim
  later := False.elim
  lately _ _ _ := False.elim
  within _ _ := False.elim

/-- Two texts with the same words have the same tree but for trivia, and the same reports at the same tokens. -/
theorem parse_respaced (limit : Nat) (source other : String)
    (same : List.Forall₂ Word.Agrees (words (Token.ofText source)) (words (Token.ofText other))) :
    (parse limit source).tree.bare = (parse limit other).tree.bare ∧
      List.Forall₂ (Twins source other) (parse limit source).reports (parse limit other).reports := by
  have whole : (solidSpans 0 (Token.ofText source)).length = (solidSpans 0 (Token.ofText other)).length := by
    rw [solidSpans_length, solidSpans_length, same.length_eq]
  have begun : Respaced.Abreast source other (.start (Token.ofText source)) (.start (Token.ofText other)) :=
    ⟨⟨List.suffix_rfl, start_stop source, nofun⟩, ⟨List.suffix_rfl, start_stop other, nofun⟩, same, rfl, nofun, .none⟩
  rcases (respaced source other whole).queries_pairs limit begun with ⟨_, alike⟩ | never
  · have trees : Tree.bareOf (readAll limit source).trees = Tree.bareOf (readAll limit other).trees := alike.trees
    have first : ∀ token ∈ (readAll limit source).next.skip.waiting, token.isTrivia = true := alike.abreast.first.skip.blank
    have second : ∀ token ∈ (readAll limit other).next.skip.waiting, token.isTrivia = true := alike.abreast.second.skip.blank
    rw [parse_reports, parse_reports]
    refine ⟨?_, alike.reports⟩
    rw [parse_tree, parse_tree, Tree.bare, Tree.bare, Tree.bareOf_append, Tree.bareOf_append, trees, Tree.bareOf_tokens,
      Tree.bareOf_tokens, solids_blank first, solids_blank second]
  · exact never.elim

/-- The name after a sign must stay where it is; all else can be spaced out. -/
theorem spaced_capture_parsed_alike :
    (parse 1 "(a)@x b").tree.bare = (parse 1 "( a ) ; c\n@x\n b").tree.bare ∧
      List.Forall₂ (Twins "(a)@x b" "( a ) ; c\n@x\n b") (parse 1 "(a)@x b").reports (parse 1 "( a ) ; c\n@x\n b").reports := by
  have cut : words (Token.ofText "(a)@x b") = [⟨.parenOpen, "(", true⟩, ⟨.identifier, "a", true⟩,
      ⟨.parenClose, ")", true⟩, ⟨.atSign, "@", true⟩, ⟨.identifier, "x", false⟩, ⟨.identifier, "b", false⟩] := by
    decide +kernel
  have spaced : words (Token.ofText "( a ) ; c\n@x\n b") = [⟨.parenOpen, "(", false⟩, ⟨.identifier, "a", false⟩,
      ⟨.parenClose, ")", false⟩, ⟨.atSign, "@", true⟩, ⟨.identifier, "x", false⟩, ⟨.identifier, "b", false⟩] := by
    decide +kernel
  apply parse_respaced
  rw [cut, spaced]
  exact .cons ⟨rfl, rfl, nofun⟩ (.cons ⟨rfl, rfl, nofun⟩ (.cons ⟨rfl, rfl, nofun⟩
    (.cons ⟨rfl, rfl, fun _ => rfl⟩ (.cons ⟨rfl, rfl, nofun⟩ (.cons ⟨rfl, rfl, nofun⟩ .nil)))))

end TreeQuery.Syntax
