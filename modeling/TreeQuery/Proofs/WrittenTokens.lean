import TreeQuery.Proofs.QuotedLiterals
import TreeQuery.Proofs.TokenCover

/-! How the texts that completion inserts are cut into tokens. -/

namespace TreeQuery.Syntax.Token
open Text

variable {c : Char} {rest : List Char} {kind : TokenKind} {more : Nat}

theorem scan_token (found : longest? c rest = some (kind, more)) :
    scan (c :: rest) = (kind, c :: rest.take more) :: scan (rest.drop more) := by
  rw [scan]
  simp only [found, Option.getD_some]

/-- A name is cut off where characters that continue names end, whatever follows. -/
private theorem longest?_name (found : longest? c rest = some (.identifier, more)) :
    more = (rest.takeWhile continuesName).length ∧
    ∀ other, (other.takeWhile continuesName).length = more → longest? c other = some (.identifier, more) := by
  unfold longest? at found ⊢
  split at found
  next kind mark =>
    have same : kind = .identifier := by simpa using congrArg (·.map Prod.fst) found
    exact absurd same (punctuation?_plain mark).2
  next mark =>
    split at found
    next underscore =>
      have pair := Option.some.inj found
      split at pair
      next => cases pair
      next some =>
        cases pair
        exact ⟨rfl, fun other same => by simp only [underscore, if_true, same, if_neg some]⟩
    next single =>
      split at found
      next letter =>
        cases found
        exact ⟨rfl, fun other same => by simp only [single, letter, if_true, same]; rfl⟩
      next =>
        repeat' split at found
        all_goals cases found

theorem ofScanned_plain (other : kind ≠ .stringLiteral) (characters : List Char) :
    ofScanned (kind, characters) = [⟨kind, String.ofList characters⟩] := by
  unfold ofScanned
  split
  next same => exact absurd (congrArg Prod.fst same) other
  next same => cases same; rfl

/-- A text that is one identifier consists of characters of a name. -/
private theorem name_shape {text : String} (single : ofText text = [⟨.identifier, text⟩]) :
    ∃ c rest, text.toList = c :: rest ∧ rest.all continuesName = true ∧
      ∀ other, (other.takeWhile continuesName).length = rest.length →
        longest? c other = some (.identifier, rest.length) := by
  cases shape : text.toList with
  | nil => simp [ofText, shape, scan] at single
  | cons c rest =>
    rw [ofText, shape, scan] at single
    cases found : longest? c rest with
    | none => simp [found, ofScanned] at single
    | some piece =>
      obtain ⟨kind, more⟩ := piece
      simp only [found, Option.getD_some, List.flatMap_cons] at single
      by_cases string : kind = .stringLiteral
      · subst string
        simp [ofScanned, splitString, quoteMark] at single
      · rw [ofScanned_plain string] at single
        obtain ⟨rfl, same⟩ : kind = .identifier ∧ String.ofList (c :: rest.take more) = text := by
          simpa using (List.cons.inj single).1
        obtain ⟨taken, names⟩ := longest?_name found
        have whole : rest.take more = rest := by
          have characters := congrArg String.toList same
          rw [String.toList_ofList, shape] at characters
          exact (List.cons.inj characters).2
        have all : rest.takeWhile continuesName = rest :=
          (List.prefix_iff_eq_take.mp (List.takeWhile_prefix _)).trans (taken ▸ whole)
        refine ⟨c, rest, rfl, ?_, ?_⟩
        · rw [← all]
          exact List.all_takeWhile
        · rw [all] at taken
          exact taken ▸ names

theorem ofText_parenthesized {text : String} (single : ofText text = [⟨.identifier, text⟩]) :
    ofText ("(" ++ text ++ ")") = [⟨.parenOpen, "("⟩, ⟨.identifier, text⟩, ⟨.parenClose, ")"⟩] := by
  obtain ⟨c, rest, shape, all, names⟩ := name_shape single
  have characters : ("(" ++ text ++ ")").toList = '(' :: c :: (rest ++ [')']) := by
    simp [shape]
  have closer : (rest ++ [')']).takeWhile continuesName = rest := by
    rw [List.takeWhile_append_of_pos (List.all_eq_true.mp all)]
    exact List.append_nil rest
  have name := names (rest ++ [')']) (congrArg List.length closer)
  have opener : longest? '(' (c :: (rest ++ [')'])) = some (.parenOpen, 0) := rfl
  have last : longest? ')' [] = some (.parenClose, 0) := rfl
  have same : String.ofList (c :: rest) = text := by rw [← shape, String.ofList_toList]
  rw [ofText, characters, scan_token opener, List.drop_zero, scan_token name, List.drop_left, scan_token last]
  simp [ofScanned, scan, same]

theorem stringLength_plain {c : Char} (quote : c ≠ '"') (escape : c ≠ '\\') (line : c ≠ '\n') (rest : List Char) :
    stringLength (c :: rest) = 1 + stringLength rest := by
  cases rest <;> simp [stringLength, quote, escape, line, Nat.add_comm]

/-- Where no escape begins and no backslash stands at the end, there is no backslash. -/
theorem not_backslash {c : Char} {rest : List Char} (single : c = '\\' → rest ≠ [])
    (pair : ∀ next more, c = '\\' → rest ≠ next :: more) : c ≠ '\\' := by
  rintro rfl
  cases rest with
  | nil => exact single rfl rfl
  | cons next more => exact pair next more rfl rfl

private theorem stringLength_escapeChar (c : Char) (rest : List Char) :
    stringLength (escapeChar c ++ rest) = (escapeChar c).length + stringLength rest := by
  unfold escapeChar
  split
  next => exact Nat.add_comm ..
  next => exact Nat.add_comm ..
  next => exact Nat.add_comm ..
  next => exact Nat.add_comm ..
  next => exact Nat.add_comm ..
  next quote escape line _ _ => exact stringLength_plain quote escape line rest

private theorem stringLength_escaped (literal : List Char) :
    stringLength (literal.flatMap escapeChar ++ ['"']) = (literal.flatMap escapeChar ++ ['"']).length := by
  induction literal with
  | nil => rfl
  | cons c rest ih =>
    rw [List.flatMap_cons, List.append_assoc, stringLength_escapeChar, ih]
    exact List.length_append.symm

private theorem escapeChar_last {c : Char} (other : c ≠ '\\') :
    ∃ last before, (escapeChar c).reverse = last :: before ∧ last ≠ '\\' := by
  unfold escapeChar
  split
  next => exact ⟨'"', ['\\'], rfl, by decide⟩
  next => exact absurd rfl other
  next => exact ⟨'n', ['\\'], rfl, by decide⟩
  next => exact ⟨'t', ['\\'], rfl, by decide⟩
  next => exact ⟨'r', ['\\'], rfl, by decide⟩
  next => exact ⟨c, [], rfl, other⟩

/-- Backslashes at the end of what was escaped come in pairs. -/
private theorem escaped_backslashes (literal : List Char) :
    ((literal.flatMap escapeChar).reverse.takeWhile (· == '\\')).length % 2 = 0 := by
  rw [List.reverse_flatMap]
  -- The induction starts where the text ends.
  induction literal.reverse with
  | nil => rfl
  | cons c before ih =>
    by_cases escape : c = '\\'
    · subst escape
      have two : (List.flatMap (List.reverse ∘ escapeChar) ('\\' :: before)).takeWhile (· == '\\') =
          '\\' :: '\\' :: (before.flatMap (List.reverse ∘ escapeChar)).takeWhile (· == '\\') := rfl
      rw [two, List.length_cons, List.length_cons]
      omega
    · obtain ⟨last, _, ends, other⟩ := escapeChar_last escape
      simp [ends, other]

private theorem isClosed_escaped (literal : List Char) : isClosed (literal.flatMap escapeChar ++ ['"']) = true := by
  simp [isClosed, escaped_backslashes]

/-- A string that reaches its closing quote is cut into its quotes and what stands between them. -/
theorem ofText_closed {content : List Char} (reaches : stringLength (content ++ ['"']) = (content ++ ['"']).length)
    (closed : isClosed (content ++ ['"']) = true) :
    ofText (String.ofList ('"' :: (content ++ ['"']))) = quoteMark :: (contentTokens content ++ [quoteMark]) := by
  have begins (rest : List Char) : longest? '"' rest = some (.stringLiteral, stringLength rest) := rfl
  rw [ofText, String.toList_ofList, scan_token (begins _), reaches, List.take_length, List.drop_length]
  simp [scan, ofScanned, splitString, closed]

/-- A quoted literal is one string, closed, with what was escaped between its quotes. -/
theorem ofText_quote (literal : String) :
    ofText (quote literal) = quoteMark :: (contentTokens (literal.toList.flatMap escapeChar) ++ [quoteMark]) :=
  ofText_closed (stringLength_escaped _) (isClosed_escaped _)

end TreeQuery.Syntax.Token
