import TreeQuery.Syntax.Token
import TreeQuery.Text.Total

/-! The tokens of a text cover it: none is empty, each begins where the one before it ends, and
together they read as the text. -/

namespace TreeQuery.Syntax
open Text (Span)

/-- Spans end to end from one place to another, none of them empty. -/
inductive Tiles : (start stop : Nat) → List Span → Prop
  | none (place : Nat) : Tiles place place []
  | next {start middle stop : Nat} {rest : List Span} (wide : start < middle) (further : Tiles middle stop rest) :
    Tiles start stop (⟨start, middle⟩ :: rest)

private theorem spanned_tiles (start : Nat) {tokens : List Token} (filled : ∀ token ∈ tokens, 0 < token.length) :
    Tiles start (start + Text.total Token.length tokens) ((spanned start tokens).map (·.2)) := by
  induction tokens generalizing start with
  | nil => exact .none start
  | cons token rest ih =>
    have wide : 0 < token.length := filled token List.mem_cons_self
    have further := ih (start + token.length) fun later member => filled later (List.mem_cons_of_mem _ member)
    rw [Nat.add_assoc] at further
    exact .next (Nat.lt_add_of_pos_right wide) further

/-- An offset before or behind a token. -/
def Cut (tokens : List Token) (offset : Nat) : Prop :=
  ∃ before after, tokens = before ++ after ∧ offset = Text.total Token.length before

/-- A span of whole tokens, one or more. -/
structure Covers (tokens : List Token) (span : Span) : Prop where
  start : Cut tokens span.start
  stop : Cut tokens span.stop
  wide : span.start < span.stop

namespace Token

theorem length_pos {token : Token} (filled : token.text ≠ "") : 0 < token.length :=
  Nat.pos_of_ne_zero fun empty => filled (String.utf8ByteSize_eq_zero_iff.mp empty)

theorem length_join (tokens : List Token) :
    (String.join (tokens.map text)).utf8ByteSize = Text.total length tokens := by
  induction tokens with
  | nil => rfl
  | cons token rest ih => rw [List.map_cons, String.join_cons, String.utf8ByteSize_append, ih]; rfl

theorem punctuation?_plain {c : Char} {kind : TokenKind} (mark : punctuation? c = some kind) :
    kind ≠ .stringLiteral ∧ kind ≠ .identifier := by
  unfold punctuation? at mark
  split at mark <;> cases mark
  all_goals decide

private theorem longest?_string {c : Char} {rest : List Char} {more : Nat}
    (found : longest? c rest = some (.stringLiteral, more)) : c = '"' := by
  unfold longest? at found
  split at found
  next kind mark =>
    have same : kind = .stringLiteral := by simpa using congrArg (·.map Prod.fst) found
    exact absurd same (punctuation?_plain mark).1
  next =>
    -- Every branch but that of the quote yields another kind.
    split at found
    · have same := congrArg Prod.fst (Option.some.inj found)
      split at same <;> contradiction
    · repeat' split at found
      all_goals simp_all

private theorem scan_joins (text : List Char) : (scan text).flatMap (·.2) = text := by
  fun_induction scan text with
  | case1 => rfl
  | case2 c rest kind more found ih => simp [ih]

private theorem scan_piece {text : List Char} {piece : TokenKind × List Char} (member : piece ∈ scan text) :
    ∃ c rest, piece.2 = c :: rest ∧ (piece.1 = .stringLiteral → c = '"') := by
  fun_induction scan text with
  | case1 => simp at member
  | case2 c rest kind more found ih =>
    rcases List.mem_cons.mp member with rfl | later
    · refine ⟨c, rest.take more, rfl, ?_⟩
      rintro rfl
      cases begins : longest? c rest with
      | none => simp [begins] at found
      | some longest => exact longest?_string (begins.trans (congrArg some (by simpa [begins] using found)))
    · exact ih later

private theorem ofList_cons_ne_empty (c : Char) (rest : List Char) : String.ofList (c :: rest) ≠ "" := fun empty =>
  List.cons_ne_nil c rest (String.ofList_eq_empty_iff.mp empty)

private theorem contentTokens_joins (content : List Char) :
    String.join ((contentTokens content).map text) = String.ofList content := by
  cases content with
  | nil => rfl
  | cons c rest => simp [contentTokens]

private theorem contentTokens_filled {content : List Char} {token : Token} (member : token ∈ contentTokens content) :
    token.text ≠ "" := by
  cases content with
  | nil => simp [contentTokens] at member
  | cons c rest =>
    obtain rfl : token = ⟨.stringContent, String.ofList (c :: rest)⟩ := by simpa [contentTokens] using member
    exact ofList_cons_ne_empty c rest

theorem splitString_joins (body : List Char) :
    String.join ((splitString body).map text) = String.ofList ('"' :: body) := by
  have opened : String.ofList (['"'] ++ body) = quoteMark.text ++ String.ofList body := String.ofList_append
  rw [splitString, List.map_cons, String.join_cons]
  refine Eq.trans ?_ opened.symm
  split
  next closed =>
    rw [isClosed, Bool.and_eq_true, beq_iff_eq] at closed
    obtain ⟨content, rfl⟩ := List.getLast?_eq_some_iff.mp closed.1
    rw [List.dropLast_concat, List.map_append, String.join_append, contentTokens_joins, String.ofList_append]
    rfl
  next => rw [contentTokens_joins]

private theorem splitString_filled {body : List Char} {token : Token} (member : token ∈ splitString body) :
    token.text ≠ "" := by
  have mark : quoteMark.text ≠ "" := by decide
  rcases List.mem_cons.mp member with rfl | inside
  · exact mark
  split at inside
  next =>
    rcases List.mem_append.mp inside with content | closer
    · exact contentTokens_filled content
    · exact List.mem_singleton.mp closer ▸ mark
  next => exact contentTokens_filled inside

private theorem ofScanned_joins {source : List Char} {piece : TokenKind × List Char} (member : piece ∈ scan source) :
    String.join ((ofScanned piece).map text) = String.ofList piece.2 := by
  obtain ⟨c, rest, same, string⟩ := scan_piece member
  unfold ofScanned
  split
  next characters =>
    obtain rfl : characters = c :: rest := same
    rw [List.tail_cons, splitString_joins, string rfl]
  next => simp

private theorem ofScanned_filled {source : List Char} {piece : TokenKind × List Char} (member : piece ∈ scan source)
    {token : Token} (inside : token ∈ ofScanned piece) : token.text ≠ "" := by
  obtain ⟨c, rest, same, _⟩ := scan_piece member
  unfold ofScanned at inside
  split at inside
  next => exact splitString_filled inside
  next kind characters _ _ =>
    obtain rfl : characters = c :: rest := same
    rw [List.mem_singleton.mp inside]
    exact ofList_cons_ne_empty c rest

theorem ofText_joins (source : String) : String.join ((ofText source).map text) = source := by
  have joined (pieces : List (TokenKind × List Char)) (known : ∀ piece ∈ pieces, piece ∈ scan source.toList) :
      String.join ((pieces.flatMap ofScanned).map text) = String.ofList (pieces.flatMap (·.2)) := by
    induction pieces with
    | nil => rfl
    | cons piece later ih =>
      have first := ofScanned_joins (known piece List.mem_cons_self)
      have rest := ih fun piece member => known piece (List.mem_cons_of_mem _ member)
      rw [List.flatMap_cons, List.map_append, String.join_append, first, rest, ← String.ofList_append,
        List.flatMap_cons]
  rw [ofText, joined _ fun _ member => member, scan_joins, String.ofList_toList]

theorem ofText_filled {source : String} {token : Token} (member : token ∈ ofText source) : token.text ≠ "" := by
  obtain ⟨piece, scanned, inside⟩ := List.mem_flatMap.mp member
  exact ofScanned_filled scanned inside

/-- The tokens of a text lie end to end from its beginning to its end. -/
theorem ofText_tiles (source : String) :
    Tiles 0 source.utf8ByteSize ((spanned 0 (ofText source)).map (·.2)) := by
  have tiles := spanned_tiles 0 fun token (member : token ∈ ofText source) => length_pos (ofText_filled member)
  rwa [Nat.zero_add, ← length_join, ofText_joins] at tiles

end Token

end TreeQuery.Syntax
