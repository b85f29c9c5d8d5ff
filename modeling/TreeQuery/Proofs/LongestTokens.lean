import Mathlib.Algebra.Ring.Parity
import Mathlib.Data.List.Chain
import TreeQuery.Proofs.TokenLanguages

/-! The longest token first: a text is cut into tokens in one way only, by the longest declared token wherever one
begins and by one token of garbage for each stretch where none does. -/

namespace TreeQuery.Syntax.Token
open Computability

/-- A token that stands ahead, and no declared text that stands there is longer. -/
structure Longest (text : List Char) (kind : TokenKind) (lexeme : List Char) : Prop where
  known : lexeme ∈ declared kind
  ahead : lexeme <+: text
  longest : ∀ other, ∀ further ∈ declared other, further <+: text → further.length ≤ lexeme.length

def Begins (text : List Char) : Prop := ∃ kind, ∃ lexeme ∈ declared kind, lexeme <+: text

/-- An odd run of backslashes at the end of a text. -/
def Escapes (content : List Char) : Prop :=
  ∃ before count, content = before ++ List.replicate count '\\' ∧ before.getLast? ≠ some '\\' ∧ Odd count

/-- The tokens made of a declared text: a string comes apart, with a closing quote if its last quote has no odd run of
backslashes before it. -/
inductive Rendered : TokenKind → List Char → List Token → Prop
  | whole {kind : TokenKind} (lexeme : List Char) (other : kind ≠ .stringLiteral) :
    Rendered kind lexeme [⟨kind, String.ofList lexeme⟩]
  | closed {content : List Char} (plain : ¬ Escapes content) :
    Rendered .stringLiteral ('"' :: (content ++ ['"'])) (quoteMark :: (contentTokens content ++ [quoteMark]))
  | unclosed {content : List Char} (escaped : ∀ before, content = before ++ ['"'] → Escapes before) :
    Rendered .stringLiteral ('"' :: content) (quoteMark :: contentTokens content)

/-- Tokens taken off a text one after another. -/
inductive Munches : List Char → List Token → Prop
  | ended : Munches [] []
  | token {kind : TokenKind} {lexeme rest : List Char} {own tokens : List Token}
    (longest : Longest (lexeme ++ rest) kind lexeme) (rendered : Rendered kind lexeme own) (further : Munches rest tokens) :
    Munches (lexeme ++ rest) (own ++ tokens)
  /-- Garbage goes on up to the next place where a token begins. -/
  | garbage {stretch rest : List Char} {tokens : List Token} (filled : stretch ≠ [])
    (nowhere : ∀ before after, stretch = before ++ after → after ≠ [] → ¬ Begins (after ++ rest))
    (next : rest = [] ∨ Begins rest) (further : Munches rest tokens) :
    Munches (stretch ++ rest) (⟨.garbage, String.ofList stretch⟩ :: tokens)

section Longest
variable {c : Char} {rest text lexeme : List Char} {kind : TokenKind} {more : Nat}

private theorem cons_of_declared (known : lexeme ∈ declared kind) (ahead : lexeme <+: c :: rest) :
    ∃ text, lexeme = c :: text ∧ text <+: rest := by
  cases lexeme with
  | nil => exact absurd known (nil_not_declared kind)
  | cons d text =>
    obtain ⟨rfl, inside⟩ := List.cons_prefix_cons.mp ahead
    exact ⟨text, rfl, inside⟩

theorem longest_of_found (found : longest? c rest = some (kind, more)) : Longest (c :: rest) kind (c :: rest.take more) := by
  refine ⟨longest?_declared found, List.cons_prefix_cons.mpr ⟨rfl, List.take_prefix ..⟩, ?_⟩
  intro other further known ahead
  obtain ⟨text, rfl, inside⟩ := cons_of_declared known ahead
  obtain ⟨_, same, within, _⟩ := longest?_outdoes known inside
  cases found.symm.trans same
  rw [List.length_cons, List.length_cons, List.length_take_of_le (longest?_within found)]
  exact Nat.succ_le_succ within

private theorem found_of_longest (longest : Longest (c :: text ++ rest) kind (c :: text)) :
    longest? c (text ++ rest) = some (kind, text.length) := by
  obtain ⟨⟨found, more⟩, same, within, agrees⟩ := longest?_outdoes longest.known (List.prefix_append text rest)
  dsimp only at within agrees
  have own := longest_of_found same
  have reaches := longest.longest _ _ own.known own.ahead
  rw [List.length_cons, List.length_cons, List.length_take_of_le (longest?_within same)] at reaches
  have length : more = text.length := Nat.le_antisymm (Nat.le_of_succ_le_succ reaches) within
  rw [same, length, agrees length]

private theorem begins_cons : Begins (c :: rest) ↔ (longest? c rest).isSome := by
  constructor
  · rintro ⟨kind, lexeme, known, ahead⟩
    obtain ⟨text, rfl, inside⟩ := cons_of_declared known ahead
    obtain ⟨_, same, _⟩ := longest?_outdoes known inside
    rw [same]
    rfl
  · intro some
    obtain ⟨⟨kind, more⟩, found⟩ := Option.isSome_iff_exists.mp some
    have own := longest_of_found found
    exact ⟨kind, _, own.known, own.ahead⟩

end Longest

section Garbage

private theorem garbageLength_nowhere {text before after : List Char} (same : text.take (garbageLength text) = before ++ after)
    (filled : after ≠ []) : ¬ Begins (after ++ text.drop (garbageLength text)) := by
  fun_induction garbageLength text generalizing before with
  | case1 => simp_all
  | case2 => simp_all
  | case3 c rest none ih =>
    cases before with
    | cons d before =>
      have shape : c :: rest.take (garbageLength rest) = d :: (before ++ after) := same
      exact ih (List.cons.inj shape).2
    | nil =>
      rw [← show _ = after from same, List.take_append_drop, begins_cons]
      exact none

private theorem garbageLength_next (text : List Char) :
    text.drop (garbageLength text) = [] ∨ Begins (text.drop (garbageLength text)) := by
  fun_induction garbageLength text with
  | case1 => exact .inl rfl
  | case2 c rest some => exact .inr (begins_cons.mpr some)
  | case3 c rest none ih => exact ih

private theorem garbageLength_stretch {stretch rest : List Char}
    (nowhere : ∀ before after, stretch = before ++ after → after ≠ [] → ¬ Begins (after ++ rest))
    (next : rest = [] ∨ Begins rest) : garbageLength (stretch ++ rest) = stretch.length := by
  induction stretch with
  | nil =>
    cases rest with
    | nil => rfl
    | cons c rest =>
      have begins := next.resolve_left (List.cons_ne_nil c rest)
      exact if_pos (begins_cons.mp begins)
  | cons c stretch ih =>
    have none : ¬ Begins (c :: (stretch ++ rest)) := nowhere [] _ rfl (List.cons_ne_nil c stretch)
    rw [List.cons_append, garbageLength, if_neg fun some => none (begins_cons.mpr some), List.length_cons,
      ih fun before after same => nowhere (c :: before) after (congrArg (c :: ·) same)]

private theorem scan_garbage {c : Char} {rest : List Char} (none : longest? c rest = none) :
    scan (c :: rest) = (.garbage, c :: rest.take (garbageLength rest)) :: scan (rest.drop (garbageLength rest)) := by
  rw [scan]
  simp only [none, Option.getD_none]

end Garbage

section Strings

/-- How many backslashes a text ends in. -/
def trailing (content : List Char) : Nat := (content.reverse.takeWhile (· == '\\')).length

theorem trailing_plain {c : Char} (other : c ≠ '\\') (content : List Char) : trailing (content ++ [c]) = 0 := by
  simp [trailing, other]

theorem trailing_backslash (content : List Char) : trailing (content ++ ['\\']) = trailing content + 1 := by
  simp [trailing]

theorem trailing_run {before : List Char} (other : before.getLast? ≠ some '\\') (count : Nat) :
    trailing (before ++ List.replicate count '\\') = count := by
  induction count with
  | zero =>
    rw [List.replicate_zero, List.append_nil]
    rcases List.eq_nil_or_concat before with rfl | ⟨front, last, rfl⟩
    · rfl
    · have stops : last ≠ '\\' := by simpa using other
      rw [List.concat_eq_append, trailing_plain stops]
  | succ count ih => rw [List.replicate_succ', ← List.append_assoc, trailing_backslash, ih]

private theorem trailing_split (content : List Char) :
    ∃ before, content = before ++ List.replicate (trailing content) '\\' ∧ before.getLast? ≠ some '\\' := by
  induction content using List.reverseRecOn with
  | nil => exact ⟨[], rfl, nofun⟩
  | append_singleton content last ih =>
    by_cases escape : last = '\\'
    · obtain ⟨before, same, other⟩ := ih
      refine ⟨before, ?_, other⟩
      rw [escape, trailing_backslash, List.replicate_succ', ← List.append_assoc, ← same]
    · exact ⟨content ++ [last], by rw [trailing_plain escape]; simp, by simpa using escape⟩

theorem escapes_iff (content : List Char) : Escapes content ↔ Odd (trailing content) := by
  constructor
  · rintro ⟨before, count, rfl, other, odd⟩
    exact (trailing_run other count).symm ▸ odd
  · intro odd
    obtain ⟨before, same, other⟩ := trailing_split content
    exact ⟨before, _, same, other, odd⟩

/-- A scanned string has a closing quote if its last character is a quote that is not escaped. -/
theorem isClosed_iff {body : List Char} : isClosed body = true ↔ ∃ content, body = content ++ ['"'] ∧ ¬ Escapes content := by
  have plain (content : List Char) :
      ¬ Escapes content ↔ ((content.reverse.takeWhile (· == '\\')).length % 2 == 0) = true := by
    rw [escapes_iff, Nat.not_odd_iff_even, Nat.even_iff, trailing, beq_iff_eq]
  rw [isClosed, Bool.and_eq_true, beq_iff_eq]
  constructor
  · rintro ⟨quote, even⟩
    obtain ⟨content, rfl⟩ := List.getLast?_eq_some_iff.mp quote
    rw [List.dropLast_concat] at even
    exact ⟨content, rfl, (plain content).mpr even⟩
  · rintro ⟨content, rfl, escape⟩
    rw [List.dropLast_concat, List.getLast?_concat]
    exact ⟨rfl, (plain content).mp escape⟩

private theorem rendered_iff {kind : TokenKind} {lexeme : List Char} {own : List Token}
    (quoted : kind = .stringLiteral → lexeme.head? = some '"') :
    Rendered kind lexeme own ↔ own = ofScanned (kind, lexeme) := by
  constructor
  · intro rendered
    cases rendered with
    | whole _ other => exact (ofScanned_plain other lexeme).symm
    | @closed content plain =>
      have closed : isClosed (content ++ ['"']) = true := isClosed_iff.mpr ⟨content, rfl, plain⟩
      rw [ofScanned, List.tail_cons, splitString, if_pos closed, List.dropLast_concat]
    | @unclosed content escaped =>
      have unclosed : ¬ isClosed content = true := by
        intro closed
        obtain ⟨before, same, plain⟩ := isClosed_iff.mp closed
        exact plain (escaped before same)
      rw [ofScanned, List.tail_cons, splitString, if_neg unclosed]
  · rintro rfl
    by_cases string : kind = .stringLiteral
    · subst string
      obtain ⟨body, rfl⟩ := List.head?_eq_some_iff.mp (quoted rfl)
      rw [ofScanned, List.tail_cons, splitString]
      split
      next closed =>
        obtain ⟨content, rfl, plain⟩ := isClosed_iff.mp closed
        rw [List.dropLast_concat]
        exact .closed plain
      next unclosed =>
        refine .unclosed fun before same => ?_
        by_contra plain
        exact unclosed (isClosed_iff.mpr ⟨before, same, plain⟩)
    · rw [ofScanned_plain string]
      exact .whole lexeme string

end Strings

section Munching
variable {text : List Char} {tokens : List Token}

theorem string_quoted {lexeme : List Char} (known : lexeme ∈ declared .stringLiteral) : lexeme.head? = some '"' := by
  have opened {language : Language Char} (member : lexeme ∈ one {'"'} * language) : lexeme.head? = some '"' := by
    obtain ⟨_, ⟨_, rfl, rfl⟩, _, _, rfl⟩ := Language.mem_mul.mp member
    rfl
  exact known.elim opened opened

private theorem munches_scan (text : List Char) : Munches text ((scan text).flatMap ofScanned) := by
  -- The induction goes from token to token, as the text is cut.
  fun_induction scan text with
  | case1 => exact .ended
  | case2 c rest kind more found ih =>
    rw [List.flatMap_cons, ← List.take_append_drop more rest, ← List.cons_append]
    simp only [List.take_append_drop]
    cases longest : longest? c rest with
    | some begun =>
      obtain rfl : begun = (kind, more) := by simpa [longest] using found
      have own := longest_of_found longest
      refine @Munches.token kind _ _ _ _ ?_ ((rendered_iff ?_).mpr rfl) ih
      · rwa [List.cons_append, List.take_append_drop]
      · rintro rfl
        exact string_quoted own.known
    | none =>
      obtain ⟨rfl, rfl⟩ : kind = .garbage ∧ more = garbageLength rest := by simpa [longest, eq_comm] using found
      refine .garbage (List.cons_ne_nil _ _) ?_ (garbageLength_next rest) ih
      intro before after same filled
      cases before with
      | nil =>
        rw [← show _ = after from same, List.cons_append, List.take_append_drop, begins_cons, longest]
        exact Bool.false_ne_true
      | cons d before => exact garbageLength_nowhere (List.cons.inj same).2 filled

private theorem munched (munches : Munches text tokens) : tokens = (scan text).flatMap ofScanned := by
  induction munches with
  | ended => rw [scan]; rfl
  | @token kind lexeme rest own tokens longest rendered further ih =>
    have quoted : kind = .stringLiteral → lexeme.head? = some '"' := by
      rintro rfl
      exact string_quoted longest.known
    cases lexeme with
    | nil => exact absurd longest.known (nil_not_declared kind)
    | cons c text =>
      rw [List.cons_append, scan_token (found_of_longest longest), List.take_left, List.drop_left, List.flatMap_cons,
        (rendered_iff quoted).mp rendered, ih]
  | @garbage stretch rest tokens filled nowhere next further ih =>
    cases stretch with
    | nil => exact absurd rfl filled
    | cons c stretch =>
      have none : longest? c (stretch ++ rest) = none := by
        rw [← Option.not_isSome_iff_eq_none, ← begins_cons]
        exact nowhere [] _ rfl filled
      have length : garbageLength (stretch ++ rest) = stretch.length :=
        garbageLength_stretch (fun before after same => nowhere (c :: before) after (congrArg (c :: ·) same)) next
      rw [List.cons_append, scan_garbage none, length, List.take_left, List.drop_left, List.flatMap_cons,
        ofScanned_plain (by decide), ih]
      rfl

theorem mem_contentTokens {content : List Char} {token : Token} (member : token ∈ contentTokens content) :
    token = ⟨.stringContent, String.ofList content⟩ := by
  unfold contentTokens at member
  split at member
  next => cases member
  next => exact List.mem_singleton.mp member

private theorem rendered_known {kind : TokenKind} {lexeme : List Char} {own : List Token} (known : lexeme ∈ declared kind)
    (rendered : Rendered kind lexeme own) : ∀ token ∈ own, token.kind ≠ .garbage := by
  have content (content : List Char) : ∀ token ∈ contentTokens content, token.kind ≠ .garbage := by
    intro token member
    rw [mem_contentTokens member]
    exact TokenKind.noConfusion
  have mark : quoteMark.kind ≠ .garbage := by decide
  cases rendered with
  | whole lexeme other =>
    rw [List.forall_mem_singleton]
    rintro rfl
    exact known
  | closed =>
    rw [List.forall_mem_cons, List.forall_mem_append, List.forall_mem_singleton]
    exact ⟨mark, content _, mark⟩
  | unclosed => exact List.forall_mem_cons.mpr ⟨mark, content _⟩

/-- Garbage is not followed by garbage. -/
def Apart (before after : Token) : Prop := before.kind = .garbage → after.kind ≠ .garbage

private theorem apart_known {own : List Token} (known : ∀ token ∈ own, token.kind ≠ .garbage) (further : tokens.IsChain Apart) :
    (own ++ tokens).IsChain Apart := by
  induction own with
  | nil => exact further
  | cons token own ih =>
    obtain ⟨first, known⟩ := List.forall_mem_cons.mp known
    exact (ih known).cons fun _ _ garbage => absurd garbage first

private theorem rendered_filled {kind : TokenKind} {lexeme : List Char} {own : List Token} (rendered : Rendered kind lexeme own) :
    own ≠ [] := by
  cases rendered <;> exact List.cons_ne_nil _ _

private theorem munches_known (munches : Munches text tokens) (begins : Begins text) :
    ∀ first ∈ tokens.head?, first.kind ≠ .garbage := by
  cases munches with
  | ended => exact fun first none => by cases none
  | token longest rendered further =>
    intro first ahead
    rw [List.head?_append_of_ne_nil _ (rendered_filled rendered)] at ahead
    exact rendered_known longest.known rendered first (List.mem_of_head? ahead)
  | garbage filled nowhere next further => exact absurd begins (nowhere [] _ rfl filled)

private theorem munches_apart (munches : Munches text tokens) : tokens.IsChain Apart := by
  induction munches with
  | ended => exact .nil
  | token longest rendered further ih => exact apart_known (rendered_known longest.known rendered) ih
  | garbage filled nowhere next further ih =>
    refine ih.cons fun first ahead _ => ?_
    rcases next with rfl | begins
    · rw [munched further, scan] at ahead
      cases ahead
    · exact munches_known further begins first ahead

end Munching

/-- A text has one way of being cut into tokens, the longest declared token first; no garbage stands next to garbage,
and the tokens lie end to end over the whole text. -/
theorem ofText_munches (source : String) :
    (∀ tokens, Munches source.toList tokens ↔ tokens = ofText source) ∧
      (ofText source).IsChain Apart ∧
      Tiles 0 source.utf8ByteSize ((spanned 0 (ofText source)).map (·.2)) := by
  have own : Munches source.toList (ofText source) := munches_scan source.toList
  refine ⟨fun tokens => ⟨munched, ?_⟩, munches_apart own, ofText_tiles source⟩
  rintro rfl
  exact own

end TreeQuery.Syntax.Token
