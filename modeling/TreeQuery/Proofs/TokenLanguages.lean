import Mathlib.Computability.Language
import Mathlib.Data.Char
import Mathlib.Data.List.TakeWhile
import Mathlib.Order.Interval.Set.Defs
import TreeQuery.Proofs.TokenSeams

/-! Tokens as they are declared: for each kind the language of its texts. What is taken for the longest token at a
place is in the language of its kind, and no text of any kind that stands there is longer. -/

namespace TreeQuery.Syntax.Token
open Computability

/-- The texts of one character. -/
def one (characters : Set Char) : Language Char := {text | ∃ c ∈ characters, text = [c]}

def letters : Set Char := Set.Icc 'a' 'z' ∪ Set.Icc 'A' 'Z'

def nameCharacters : Set Char := letters ∪ Set.Icc '0' '9' ∪ {'_', '.', '-'}

def blanks : Set Char := {' ', '\t'}

/-- What a string is made of between its quotes: characters, and backslashes each with the character behind it. -/
def stringPart : Language Char :=
  one {c | c ≠ '"' ∧ c ≠ '\\' ∧ c ≠ '\n'} + one {'\\'} * one {c | c ≠ '\n'}

/-- The texts of a kind. Quotes and contents are made from strings only, and garbage is what has no declaration. -/
def declared : TokenKind → Language Char
  | .parenOpen => one {'('}
  | .parenClose => one {')'}
  | .bracketOpen => one {'['}
  | .bracketClose => one {']'}
  | .colon => one {':'}
  | .bang => one {'!'}
  | .underscore => one {'_'}
  | .dot => one {'.'}
  | .atSign => one {'@'}
  | .sharp => one {'#'}
  | .slash => one {'/'}
  | .star => one {'*'}
  | .plus => one {'+'}
  | .question => one {'?'}
  | .stringLiteral => one {'"'} * (stringPart∗ * one {'"'}) + one {'"'} * stringPart∗
  | .identifier => one letters * (one nameCharacters)∗ + one {'_'} * (one nameCharacters * (one nameCharacters)∗)
  | .whitespace => one blanks * (one blanks)∗
  | .newline => one {'\n'} + one {'\r'} * one {'\n'}
  | .comment => one {';'} * (one {c | c ≠ '\n'})∗
  | .doubleQuote | .stringContent | .garbage => 0

variable {c d : Char} {rest text : List Char} {characters : Set Char} {language : Language Char} {kind : TokenKind}
  {more : Nat}

private theorem mem_one : text ∈ one characters ↔ ∃ c ∈ characters, text = [c] := Iff.rfl

private theorem cons_mem_one : c :: rest ∈ one characters ↔ c ∈ characters ∧ rest = [] := by
  rw [mem_one]
  constructor
  · rintro ⟨d, member, same⟩
    obtain ⟨rfl, rfl⟩ := List.cons.inj same
    exact ⟨member, rfl⟩
  · rintro ⟨member, rfl⟩
    exact ⟨c, member, rfl⟩

theorem cons_mem_one_mul : c :: rest ∈ one characters * language ↔ c ∈ characters ∧ rest ∈ language := by
  rw [Language.mem_mul]
  constructor
  · rintro ⟨_, ⟨d, member, rfl⟩, after, inside, same⟩
    obtain ⟨rfl, rfl⟩ := List.cons.inj same
    exact ⟨member, inside⟩
  · rintro ⟨member, inside⟩
    exact ⟨[c], ⟨c, member, rfl⟩, rest, inside, rfl⟩

private theorem mem_star_one : text ∈ (one characters)∗ ↔ ∀ c ∈ text, c ∈ characters := by
  rw [Language.mem_kstar]
  constructor
  · rintro ⟨parts, rfl, each⟩ c member
    obtain ⟨part, among, inside⟩ := List.mem_flatten.mp member
    obtain ⟨d, known, rfl⟩ := each part among
    exact List.mem_singleton.mp inside ▸ known
  · intro known
    refine ⟨text.map ([·]), ?_, ?_⟩
    · rw [← List.flatMap_def, List.flatMap_singleton']
    · intro part among
      obtain ⟨c, member, rfl⟩ := List.mem_map.mp among
      exact ⟨c, known c member, rfl⟩

private theorem mem_star_takeWhile {continues : Char → Bool} (same : ∀ c, c ∈ characters ↔ continues c = true) :
    text ∈ (one characters)∗ ↔ text.takeWhile continues = text := by
  rw [mem_star_one, List.takeWhile_eq_self_iff]
  simp only [same]

private theorem mem_some_one : text ∈ one characters * (one characters)∗ ↔ text ≠ [] ∧ text ∈ (one characters)∗ := by
  cases text with
  | nil =>
    refine iff_of_false (fun member => ?_) fun both => both.1 rfl
    obtain ⟨_, ⟨c, _, rfl⟩, _, _, same⟩ := Language.mem_mul.mp member
    cases same
  | cons c rest => rw [cons_mem_one_mul, mem_star_one, mem_star_one, List.forall_mem_cons]; simp

private theorem nil_not_one : [] ∉ one characters := by
  rintro ⟨c, _, same⟩
  cases same

private theorem nil_not_one_mul : [] ∉ one characters * language := by
  intro member
  obtain ⟨before, inside, after, _, empty⟩ := Language.mem_mul.mp member
  exact nil_not_one ((List.append_eq_nil_iff.mp empty).1 ▸ inside)

/-- No token is empty. -/
theorem nil_not_declared (kind : TokenKind) : [] ∉ declared kind := by
  intro member
  cases kind with
  | stringLiteral | identifier => exact member.elim nil_not_one_mul nil_not_one_mul
  | newline => exact member.elim nil_not_one nil_not_one_mul
  | whitespace | comment => exact nil_not_one_mul member
  | doubleQuote | stringContent | garbage => exact member
  | _ => exact nil_not_one member

private theorem mem_letters : c ∈ letters ↔ isLetter c = true := by
  simp [letters, isLetter]

private theorem mem_nameCharacters : c ∈ nameCharacters ↔ continuesName c = true := by
  have letter := mem_letters (c := c)
  simp only [nameCharacters, Set.mem_union, Set.mem_Icc, Set.mem_insert_iff, Set.mem_singleton_iff, letter]
  simp [continuesName, or_assoc]

private theorem mem_blanks : c ∈ blanks ↔ isBlank c = true := by
  simp [blanks, isBlank]

section Strings

private theorem stringLength_part {part : List Char} (member : part ∈ stringPart) (rest : List Char) :
    stringLength (part ++ rest) = part.length + stringLength rest := by
  rcases member with ⟨c, ⟨quote, escape, line⟩, rfl⟩ | pair
  · exact stringLength_plain quote escape line rest
  · obtain ⟨_, ⟨_, rfl, rfl⟩, _, ⟨c, line, rfl⟩, rfl⟩ := Language.mem_mul.mp pair
    have other : c ≠ '\n' := line
    simp [stringLength, other, Nat.add_comm]

private theorem stringLength_parts {parts : List (List Char)} (each : ∀ part ∈ parts, part ∈ stringPart) (rest : List Char) :
    stringLength (parts.flatten ++ rest) = parts.flatten.length + stringLength rest := by
  induction parts with
  | nil => simp
  | cons part parts ih =>
    obtain ⟨first, each⟩ := List.forall_mem_cons.mp each
    rw [List.flatten_cons, List.append_assoc, stringLength_part first, ih each, List.length_append, Nat.add_assoc]

private theorem cons_mem_star {part : List Char} (first : part ∈ language) (later : rest ∈ language∗) :
    part ++ rest ∈ language∗ := by
  obtain ⟨parts, rfl, each⟩ := Language.mem_kstar.mp later
  exact Language.mem_kstar.mpr ⟨part :: parts, rfl, List.forall_mem_cons.mpr ⟨first, each⟩⟩

private theorem cons_mem_string {part : List Char} (first : part ∈ stringPart)
    (later : rest ∈ stringPart∗ * one {'"'} ∨ rest ∈ stringPart∗) :
    part ++ rest ∈ stringPart∗ * one {'"'} ∨ part ++ rest ∈ stringPart∗ := by
  refine later.imp (fun closed => ?_) (cons_mem_star first)
  obtain ⟨content, inside, last, quote, rfl⟩ := Language.mem_mul.mp closed
  exact Language.mem_mul.mpr ⟨part ++ content, cons_mem_star first inside, last, quote, List.append_assoc ..⟩

/-- What a string is scanned by is read to its end by just the texts behind an opening quote. -/
private theorem mem_string_iff : text ∈ stringPart∗ * one {'"'} ∨ text ∈ stringPart∗ ↔ stringLength text = text.length := by
  constructor
  · rintro (closed | parts)
    · obtain ⟨_, inside, _, ⟨_, rfl, rfl⟩, rfl⟩ := Language.mem_mul.mp closed
      obtain ⟨parts, rfl, each⟩ := Language.mem_kstar.mp inside
      rw [stringLength_parts each, List.length_append]
      rfl
    · obtain ⟨parts, rfl, each⟩ := Language.mem_kstar.mp parts
      have whole := stringLength_parts each []
      simpa [stringLength] using whole
  · intro whole
    fun_induction stringLength text with
    | case1 => exact .inr (Language.nil_mem_kstar _)
    | case2 => cases whole
    | case3 rest => cases whole
    | case4 c rest line ih =>
      have pair : ['\\', c] ∈ stringPart := .inr (cons_mem_one_mul.mpr ⟨rfl, c, line, rfl⟩)
      exact cons_mem_string pair (ih (by simpa using whole))
    | case5 rest single pair =>
      obtain rfl : rest = [] := by simpa using whole
      exact .inl (Language.mem_mul.mpr ⟨[], Language.nil_mem_kstar _, ['"'], ⟨'"', rfl, rfl⟩, rfl⟩)
    | case6 rest single pair => cases whole
    | case7 c rest single pair quote line ih =>
      have escape := not_backslash single pair
      have plain : [c] ∈ stringPart := .inl ⟨c, ⟨quote, escape, line⟩, rfl⟩
      exact cons_mem_string plain (ih (by simpa using whole))

private theorem stringLength_mono (text more : List Char) : stringLength text ≤ stringLength (text ++ more) := by
  fun_induction stringLength text with
  | case1 | case2 | case3 | case6 => exact Nat.zero_le _
  | case4 c rest line ih => simpa [stringLength, line] using ih
  | case5 rest single pair => simp [stringLength]
  | case7 c rest single pair quote line ih =>
    have escape := not_backslash single pair
    rw [List.cons_append, stringLength_plain quote escape line]
    omega

/-- What a string takes is scanned by itself as it is where it stands. -/
private theorem stringLength_take (text : List Char) : stringLength (text.take (stringLength text)) = stringLength text := by
  fun_induction stringLength text with
  | case1 | case2 | case3 | case6 => rfl
  | case4 c rest line ih => simp [stringLength, line, ih]
  | case5 rest single pair => rfl
  | case7 c rest single pair quote line ih =>
    have escape := not_backslash single pair
    rw [List.take_succ_cons, stringLength_plain quote escape line, ih, Nat.add_comm]

end Strings

section Longest

private theorem takeWhile_taken (continues : Char → Bool) (text : List Char) :
    (text.take (text.takeWhile continues).length).takeWhile continues = text.take (text.takeWhile continues).length := by
  rw [← List.prefix_iff_eq_take.mp (List.takeWhile_prefix continues), List.takeWhile_idem]

private theorem punctuation?_declared (mark : punctuation? c = some kind) : [c] ∈ declared kind := by
  unfold punctuation? at mark
  split at mark <;> cases mark
  all_goals exact ⟨_, rfl, rfl⟩

/-- What is found is a token of its kind. -/
theorem longest?_declared (found : longest? c rest = some (kind, more)) : c :: rest.take more ∈ declared kind := by
  have names : rest.take (rest.takeWhile continuesName).length ∈ (one nameCharacters)∗ :=
    (mem_star_takeWhile fun _ => mem_nameCharacters).mpr (takeWhile_taken ..)
  unfold longest? at found
  split at found
  next mark =>
    cases found
    exact punctuation?_declared mark
  dsimp only at found
  split at found
  next underscore =>
    obtain rfl : c = '_' := by simpa using underscore
    split at found <;> cases found
    next => exact ⟨'_', rfl, rfl⟩
    next some =>
      refine .inr (cons_mem_one_mul.mpr ⟨rfl, mem_some_one.mpr ⟨fun none => some ?_, names⟩⟩)
      have same := List.prefix_iff_eq_take.mp (List.takeWhile_prefix (l := rest) continuesName)
      rw [same, none]
      rfl
  split at found
  next letter =>
    cases found
    exact .inl (cons_mem_one_mul.mpr ⟨mem_letters.mpr letter, names⟩)
  split at found
  next blank =>
    cases found
    exact cons_mem_one_mul.mpr ⟨mem_blanks.mpr blank, (mem_star_takeWhile fun _ => mem_blanks).mpr (takeWhile_taken ..)⟩
  split at found
  next line =>
    cases found
    obtain rfl : c = '\n' := by simpa using line
    exact .inl ⟨'\n', rfl, rfl⟩
  split at found
  next pair =>
    cases found
    obtain ⟨rfl, line⟩ : c = '\r' ∧ rest.head? = some '\n' := by simpa using pair
    obtain ⟨further, rfl⟩ := List.head?_eq_some_iff.mp line
    exact .inr (cons_mem_one_mul.mpr ⟨rfl, '\n', rfl, rfl⟩)
  split at found
  next comment =>
    cases found
    obtain rfl : c = ';' := by simpa using comment
    have line : ∀ c : Char, c ∈ ({c | c ≠ '\n'} : Set Char) ↔ decide (c ≠ '\n') = true := by simp
    exact cons_mem_one_mul.mpr ⟨rfl, (mem_star_takeWhile line).mpr (takeWhile_taken ..)⟩
  split at found
  next quote =>
    cases found
    obtain rfl : c = '"' := by simpa using quote
    have whole : stringLength (rest.take (stringLength rest)) = (rest.take (stringLength rest)).length := by
      rw [stringLength_take, List.length_take_of_le stringLength_le]
    exact (mem_string_iff.mpr whole).imp (fun closed => cons_mem_one_mul.mpr ⟨rfl, closed⟩)
      fun parts => cons_mem_one_mul.mpr ⟨rfl, parts⟩
  next => cases found

private theorem takeWhile_ahead {continues : Char → Bool} (all : text.takeWhile continues = text) (ahead : text <+: rest) :
    text.length ≤ (rest.takeWhile continues).length := by
  obtain ⟨further, rfl⟩ := ahead
  rw [List.takeWhile_append_of_pos (List.takeWhile_eq_self_iff.mp all), List.length_append]
  exact Nat.le_add_right ..

private theorem letter_plain (letter : isLetter c = true) : punctuation? c = none ∧ (c == '_') = false := by
  constructor
  · unfold punctuation?
    split <;> first | rfl | cases letter
  · rw [beq_eq_false_iff_ne]
    rintro rfl
    cases letter

/-- A text of some kind that stands ahead is no longer than what is found, and is of the same kind if it is as long. -/
theorem longest?_outdoes (member : c :: text ∈ declared kind) (ahead : text <+: rest) :
    ∃ found, longest? c rest = some found ∧ text.length ≤ found.2 ∧ (found.2 = text.length → found.1 = kind) := by
  have single {mark : Char} {kind : TokenKind} (known : c :: text ∈ one {mark}) (found : longest? mark rest = some (kind, 0)) :
      ∃ found, longest? c rest = some found ∧ text.length ≤ found.2 ∧ (found.2 = text.length → found.1 = kind) := by
    obtain ⟨rfl, rfl⟩ := cons_mem_one.mp known
    exact ⟨_, found, Nat.le_refl _, fun _ => rfl⟩
  cases kind with
  | doubleQuote | stringContent | garbage => exact absurd member (Language.notMem_zero _)
  | underscore =>
    obtain ⟨rfl, rfl⟩ := cons_mem_one.mp member
    refine ⟨_, rfl, Nat.zero_le _, ?_⟩
    split
    next => exact fun _ => rfl
    next some => exact fun none => absurd none some
  | stringLiteral =>
    obtain ⟨rfl, body⟩ : c = '"' ∧ (text ∈ stringPart∗ * one {'"'} ∨ text ∈ stringPart∗) := by
      rcases member with closed | parts
      · exact (cons_mem_one_mul.mp closed).imp id .inl
      · exact (cons_mem_one_mul.mp parts).imp id .inr
    obtain ⟨further, rfl⟩ := ahead
    exact ⟨_, rfl, mem_string_iff.mp body ▸ stringLength_mono text further, fun _ => rfl⟩
  | identifier =>
    have names (known : text ∈ (one nameCharacters)∗) : text.length ≤ (rest.takeWhile continuesName).length :=
      takeWhile_ahead ((mem_star_takeWhile fun _ => mem_nameCharacters).mp known) ahead
    rcases member with named | hidden
    · obtain ⟨first, later⟩ := cons_mem_one_mul.mp named
      have letter := mem_letters.mp first
      obtain ⟨unmarked, other⟩ := letter_plain letter
      refine ⟨(.identifier, (rest.takeWhile continuesName).length), ?_, names later, fun _ => rfl⟩
      simp only [longest?, unmarked, other, letter]
      rfl
    · obtain ⟨rfl, behind⟩ := cons_mem_one_mul.mp hidden
      obtain ⟨filled, later⟩ := mem_some_one.mp behind
      have going : ¬ (rest.takeWhile continuesName).length = 0 := fun none =>
        filled (List.eq_nil_of_length_eq_zero (Nat.le_zero.mp (none ▸ names later)))
      refine ⟨(.identifier, (rest.takeWhile continuesName).length), ?_, names later, fun _ => rfl⟩
      exact congrArg some (if_neg going)
  | whitespace =>
    obtain ⟨first, later⟩ := cons_mem_one_mul.mp member
    have within := takeWhile_ahead ((mem_star_takeWhile fun _ => mem_blanks).mp later) ahead
    rcases first with rfl | rfl <;> exact ⟨_, rfl, within, fun _ => rfl⟩
  | newline =>
    rcases member with alone | pair
    · obtain ⟨rfl, rfl⟩ := cons_mem_one.mp alone
      exact ⟨_, rfl, Nat.le_refl _, fun _ => rfl⟩
    · obtain ⟨rfl, _, rfl, rfl⟩ := cons_mem_one_mul.mp pair
      obtain ⟨further, rfl⟩ := ahead
      exact ⟨_, rfl, Nat.le_refl _, fun _ => rfl⟩
  | comment =>
    obtain ⟨rfl, later⟩ := cons_mem_one_mul.mp member
    have line : ∀ c : Char, c ∈ ({c | c ≠ '\n'} : Set Char) ↔ decide (c ≠ '\n') = true := by simp
    exact ⟨_, rfl, takeWhile_ahead ((mem_star_takeWhile line).mp later) ahead, fun _ => rfl⟩
  | _ => exact single member rfl

end Longest

end TreeQuery.Syntax.Token
