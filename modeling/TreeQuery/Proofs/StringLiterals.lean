import TreeQuery.Proofs.LongestTokens

/-! String literals as a text is cut into tokens. One that is not closed goes up to a line break or the end of the text,
so that no quote stands right behind it. -/

namespace TreeQuery.Syntax.Token
open Computability

/-- Strings with a closing quote. -/
def closedString : Language Char := one {'"'} * (stringPart∗ * one {'"'})

section Endings

variable {content body lexeme rest : List Char}

/-- Backslashes at the end of whole parts of a string come in pairs. -/
theorem parts_even (parts : content ∈ stringPart∗) : Even (trailing content) := by
  obtain ⟨pieces, rfl, each⟩ := Language.mem_kstar.mp parts
  clear parts
  -- The induction starts where the string ends.
  induction pieces using List.reverseRecOn with
  | nil => exact .zero
  | append_singleton pieces part ih =>
    rw [List.forall_mem_append, List.forall_mem_singleton] at each
    rw [List.flatten_append, List.flatten_singleton]
    rcases each.2 with ⟨c, ⟨_, escape, _⟩, rfl⟩ | pair
    · exact (trailing_plain escape _).symm ▸ .zero
    · obtain ⟨_, ⟨_, rfl, rfl⟩, _, ⟨c, _, rfl⟩, rfl⟩ := Language.mem_mul.mp pair
      rw [← List.append_assoc]
      by_cases escape : c = '\\'
      · rw [escape, trailing_backslash, trailing_backslash]
        exact (ih each.1).add_one.add_one
      · exact (trailing_plain escape _).symm ▸ .zero

/-- A quote that ends whole parts of a string is escaped. -/
private theorem parts_escaped (parts : content ++ ['"'] ∈ stringPart∗) : Odd (trailing content) := by
  obtain ⟨parts, same, each⟩ := Language.mem_kstar.mp parts
  cases parts using List.reverseRecOn with
  | nil => simp at same
  | append_singleton parts part =>
    rw [List.forall_mem_append, List.forall_mem_singleton] at each
    rw [List.flatten_append, List.flatten_singleton] at same
    rcases each.2 with ⟨c, ⟨quote, _, _⟩, rfl⟩ | pair
    · exact absurd (List.append_inj_right' same rfl) (by simpa using quote.symm)
    · obtain ⟨_, ⟨_, rfl, rfl⟩, _, ⟨c, _, rfl⟩, rfl⟩ := Language.mem_mul.mp pair
      rw [← List.append_assoc] at same
      rw [List.append_inj_left' same rfl, trailing_backslash]
      exact (parts_even (Language.mem_kstar.mpr ⟨parts, rfl, each.1⟩)).add_one

theorem isClosed_iff_mem (scanned : '"' :: body ∈ declared .stringLiteral) :
    isClosed body = true ↔ '"' :: body ∈ closedString := by
  rw [isClosed_iff, closedString, cons_mem_one_mul]
  constructor
  · rintro ⟨content, rfl, plain⟩
    rcases scanned with closed | parts
    · exact cons_mem_one_mul.mp closed
    · have escaped := parts_escaped (cons_mem_one_mul.mp parts).2
      exact absurd ((escapes_iff content).mpr escaped) plain
  · rintro ⟨_, closed⟩
    obtain ⟨content, parts, _, ⟨_, rfl, rfl⟩, rfl⟩ := Language.mem_mul.mp closed
    exact ⟨content, rfl, fun escapes => Nat.not_odd_iff_even.mpr (parts_even parts) ((escapes_iff content).mp escapes)⟩

/-- No quote stands right behind a string that is not closed. -/
private theorem Longest.unquoted (longest : Longest ('"' :: body ++ rest) .stringLiteral ('"' :: body))
    (unclosed : isClosed body = false) : rest.head? ≠ some '"' := by
  intro quote
  obtain ⟨more, rfl⟩ := List.head?_eq_some_iff.mp quote
  rcases longest.known with closed | parts
  · rw [(isClosed_iff_mem (.inl closed)).mpr closed] at unclosed
    cases unclosed
  · have parts := (cons_mem_one_mul.mp parts).2
    have closed : '"' :: (body ++ ['"']) ∈ declared .stringLiteral :=
      .inl (cons_mem_one_mul.mpr ⟨rfl, Language.mem_mul.mpr ⟨body, parts, _, ⟨_, rfl, rfl⟩, rfl⟩⟩)
    have longer := longest.longest _ _ closed ⟨more, by simp⟩
    rw [List.length_cons, List.length_append, List.length_cons] at longer
    exact absurd longer (Nat.not_succ_le_self _)

end Endings

/-- A string literal: where its opening quote stands in the text, and what stands behind that. -/
structure Literal where
  start : Nat
  body : List Char

def Literal.stop (literal : Literal) : Nat := literal.start + (String.ofList ('"' :: literal.body)).utf8ByteSize

def Literal.Closed (literal : Literal) : Prop := '"' :: literal.body ∈ closedString

def literalsFrom : Nat → List (TokenKind × List Char) → List Literal
  | _, [] => []
  | start, piece :: rest =>
    let later := literalsFrom (start + (String.ofList piece.2).utf8ByteSize) rest
    if piece.1 = .stringLiteral then ⟨start, piece.2.tail⟩ :: later else later

/-- The string literals of a text, in order. -/
def literals (source : String) : List Literal := literalsFrom 0 (scan source.toList)

/-- Tokens and the literals among them. All quotes and contents are of literals, and behind one that is not closed
stands no quote. -/
inductive Lexes : (start : Nat) → List Token → List Literal → Prop
  | ended {start : Nat} : Lexes start [] []
  | plain {start : Nat} {token : Token} {tokens : List Token} {literals : List Literal} (unquoted : token.kind ≠ .doubleQuote)
    (outside : token.kind ≠ .stringContent) (further : Lexes (start + token.length) tokens literals) :
    Lexes start (token :: tokens) literals
  | string {start : Nat} {body : List Char} {tokens : List Token} {literals : List Literal}
    (known : '"' :: body ∈ declared .stringLiteral)
    (apart : isClosed body = false → tokens.head?.map Token.kind ≠ some .doubleQuote)
    (further : Lexes (start + Text.total Token.length (splitString body)) tokens literals) :
    Lexes start (splitString body ++ tokens) (⟨start, body⟩ :: literals)

section Scanning

variable {c : Char} {rest : List Char} {kind : TokenKind} {more : Nat}

private theorem total_splitString (body : List Char) :
    Text.total Token.length (splitString body) = (String.ofList ('"' :: body)).utf8ByteSize := by
  rw [← splitString_joins, ← length_join]

private theorem scanned_kind (found : (longest? c rest).getD (.garbage, garbageLength rest) = (kind, more)) :
    kind ≠ .doubleQuote ∧ kind ≠ .stringContent ∧
      (kind = .stringLiteral → Longest (c :: rest) .stringLiteral (c :: rest.take more)) := by
  cases begins : longest? c rest with
  | none =>
    obtain ⟨rfl, _⟩ : TokenKind.garbage = kind ∧ garbageLength rest = more := by simpa [begins] using found
    exact ⟨by decide, by decide, nofun⟩
  | some piece =>
    obtain rfl : piece = (kind, more) := by simpa [begins] using found
    have longest := longest_of_found begins
    refine ⟨?_, ?_, fun string => string ▸ longest⟩
    all_goals
      rintro rfl
      exact longest.known

private theorem scan_quote {text : List Char} (quote : ((scan text).flatMap ofScanned).head?.map Token.kind = some .doubleQuote) :
    text.head? = some '"' := by
  cases text with
  | nil =>
    rw [scan] at quote
    cases quote
  | cons c rest =>
    rw [scan] at quote
    obtain ⟨unquoted, _, string⟩ := @scanned_kind c rest _ _ rfl
    by_cases same : ((longest? c rest).getD (.garbage, garbageLength rest)).1 = .stringLiteral
    · have quoted := string_quoted (string same).known
      exact quoted
    · rw [List.flatMap_cons, ofScanned_plain same] at quote
      exact absurd (Option.some.inj quote) unquoted

private theorem lexes_scan (start : Nat) (text : List Char) :
    Lexes start ((scan text).flatMap ofScanned) (literalsFrom start (scan text)) := by
  fun_induction scan text generalizing start with
  | case1 => exact .ended
  | case2 c rest kind more found ih =>
    obtain ⟨unquoted, outside, string⟩ := scanned_kind found
    rw [List.flatMap_cons, literalsFrom]
    by_cases same : kind = .stringLiteral
    · subst same
      have longest := string rfl
      obtain rfl : c = '"' := by simpa using string_quoted longest.known
      rw [if_pos rfl, ofScanned, List.tail_cons, ← total_splitString]
      refine .string longest.known (fun unclosed quote => ?_) (ih _)
      have split : '"' :: rest = '"' :: rest.take more ++ rest.drop more := by simp
      rw [split] at longest
      exact longest.unquoted unclosed (scan_quote quote)
    · rw [if_neg same, ofScanned_plain same]
      exact .plain unquoted outside (ih _)

theorem lexes_ofText (source : String) : Lexes 0 (ofText source) (literals source) := lexes_scan 0 source.toList

end Scanning

private theorem splitString_solid {body : List Char} {token : Token} (member : token ∈ splitString body) :
    token.isTrivia = false := by
  rcases List.mem_cons.mp member with rfl | inside
  · rfl
  split at inside
  next =>
    rcases List.mem_append.mp inside with content | closer
    · exact mem_contentTokens content ▸ rfl
    · exact List.mem_singleton.mp closer ▸ rfl
  next => exact mem_contentTokens inside ▸ rfl

namespace Lexes

variable {start : Nat} {token : Token} {tokens rest blanks : List Token} {literals : List Literal}

/-- A token of no literal is one by itself. -/
private theorem tail (lexes : Lexes start (token :: rest) literals) (unquoted : token.kind ≠ .doubleQuote) :
    token.kind ≠ .stringContent ∧ Lexes (start + token.length) rest literals := by
  generalize whole : token :: rest = tokens at lexes
  cases lexes with
  | ended => cases whole
  | plain _ outside further =>
    obtain ⟨rfl, rfl⟩ := List.cons.inj whole
    exact ⟨outside, further⟩
  | string =>
    obtain ⟨rfl, _⟩ := List.cons.inj whole
    exact absurd rfl unquoted

theorem past (lexes : Lexes start (tokens ++ rest) literals) (unquoted : ∀ token ∈ tokens, token.kind ≠ .doubleQuote) :
    (∀ token ∈ tokens, token.kind ≠ .stringContent) ∧ Lexes (start + Text.total Token.length tokens) rest literals := by
  induction tokens generalizing start with
  | nil => exact ⟨List.forall_mem_nil _, lexes⟩
  | cons token tokens ih =>
    obtain ⟨first, unquoted⟩ := List.forall_mem_cons.mp unquoted
    obtain ⟨outside, lexes⟩ := lexes.tail first
    obtain ⟨others, lexes⟩ := ih lexes unquoted
    exact ⟨List.forall_mem_cons.mpr ⟨outside, others⟩, by rwa [Text.total_cons, ← Nat.add_assoc]⟩

theorem blank (lexes : Lexes start tokens literals) (blank : ∀ token ∈ tokens, token.isTrivia = true) : literals = [] := by
  induction lexes with
  | ended => rfl
  | plain _ _ _ ih => exact ih fun token member => blank token (List.mem_cons_of_mem _ member)
  | string => cases blank quoteMark List.mem_cons_self

/-- Tokens up to where only blanks are left have whole literals among them. -/
theorem upTo (lexes : Lexes start (tokens ++ blanks) literals) (blank : ∀ token ∈ blanks, token.isTrivia = true) :
    Lexes (start + Text.total Token.length tokens) blanks [] ∧
      ∀ literal ∈ literals, start ≤ literal.start ∧ literal.stop ≤ start + Text.total Token.length tokens := by
  generalize whole : tokens ++ blanks = all at lexes
  induction lexes generalizing tokens with
  | ended =>
    obtain ⟨rfl, rfl⟩ := List.append_eq_nil_iff.mp whole
    exact ⟨.ended, List.forall_mem_nil _⟩
  | @plain start token all literals unquoted outside further ih =>
    cases tokens with
    | nil =>
      have trivia : Lexes start blanks literals := (show blanks = token :: all from whole) ▸ .plain unquoted outside further
      obtain rfl := trivia.blank blank
      exact ⟨trivia, List.forall_mem_nil _⟩
    | cons first tokens =>
      obtain ⟨rfl, same⟩ := List.cons.inj whole
      obtain ⟨left, within⟩ := ih same
      rw [Text.total_cons, ← Nat.add_assoc]
      exact ⟨left, fun literal member => ⟨Nat.le_of_add_right_le (within literal member).1, (within literal member).2⟩⟩
  | @string start body all literals known apart further ih =>
    obtain ⟨tokens, rfl, same⟩ : ∃ later, tokens = splitString body ++ later ∧ later ++ blanks = all := by
      rcases List.append_eq_append_iff.mp whole with ⟨middle, split, same⟩ | ⟨later, split, same⟩
      · -- No token of a literal is blank.
        have none : middle = [] := by
          refine List.eq_nil_iff_forall_not_mem.mpr fun token member => ?_
          have solid := splitString_solid (split ▸ List.mem_append_right _ member)
          rw [blank token (same ▸ List.mem_append_left _ member)] at solid
          cases solid
        subst none
        exact ⟨[], by simpa using split.symm, same⟩
      · exact ⟨later, split, same.symm⟩
    obtain ⟨left, within⟩ := ih same
    rw [Text.total_append, ← Nat.add_assoc]
    refine ⟨left, List.forall_mem_cons.mpr ⟨⟨Nat.le_refl _, ?_⟩, fun literal member => ?_⟩⟩
    · rw [Literal.stop, ← total_splitString]
      exact Nat.le_add_right ..
    · exact ⟨Nat.le_of_add_right_le (within literal member).1, (within literal member).2⟩

/-- A literal counts as closed if it is scanned as one that is. -/
theorem closed (lexes : Lexes start tokens literals) :
    ∀ literal ∈ literals, isClosed literal.body = true ↔ literal.Closed := by
  induction lexes with
  | ended => exact List.forall_mem_nil _
  | plain _ _ _ ih => exact ih
  | string known _ _ ih => exact List.forall_mem_cons.mpr ⟨isClosed_iff_mem known, ih⟩

end Lexes

end TreeQuery.Syntax.Token
