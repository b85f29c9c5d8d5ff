import TreeQuery.Lint.Usage
import TreeQuery.Proofs.ReadingPlacement
import TreeQuery.Proofs.WrittenTokens

/-! How the constructs that completion inserts are parsed, a kind name in parentheses and a literal
between quotes, and what the checks then read off them. -/

namespace TreeQuery.Syntax

def Token.opening : Token := ⟨.parenOpen, "("⟩

def Token.closing : Token := ⟨.parenClose, ")"⟩

def Token.name (text : String) : Token := ⟨.identifier, text⟩

open Token (opening closing name quoteMark)

def kindTree (text : String) : Tree := .node .namedNode [.leaf opening, .leaf (name text), .leaf closing]

def stringTree (content : List Token) : Tree :=
  .node .anonymousNode [.node .string (.leaf quoteMark :: (content.map .leaf ++ [.leaf quoteMark]))]

namespace Parser
open Reading

variable {inner : Reading Unit} {tokens : List Token} {tree : Tree} {kind : TokenKind}

private theorem suffix_places : suffix.Places [] () [] [] := by
  have unquantified : quantifier.Places [] () [] [] := .quiet .current (.pure ())
  have uncaptured : nextCapture.Places [] false [] [] := .quiet .current (.pure false)
  exact .quiet unquantified (.repeatWhile_last uncaptured)

private theorem items_places (rest : List Token) : (items inner).Places (closing :: rest) () [] (closing :: rest) :=
  .repeatWhile_last (.quiet .current (.pure false))

private theorem namedNode_places {text : String} (proper : text ≠ "MISSING") :
    (namedNode inner).Places [opening, name text, closing] () [kindTree text] [] := by
  have detail : (kindDetail text).Places [closing] () [] [closing] := by
    rw [kindDetail, if_neg proper]
    exact .quiet (.takeIf_left (by decide)) (.pure ())
  have closed (opener : Text.Span) :
      (close .parenClose .unclosedNode opener).Places [closing] () [.leaf closing] [] :=
    .one (.takeIf_taken rfl) (.pure ())
  refine .node (.asking fun opener => ?_)
  refine .one .take (.quiet .currentText (.one .take ?_))
  exact .quiet detail (.quiet (items_places []) (.one (closed opener) suffix_places))

private theorem construct_kind {text : String} (proper : text ≠ "MISSING") :
    (construct inner).Places [opening, name text, closing] () [kindTree text] [] := by
  refine .quiet .current (.quiet (.ahead 1) (.quiet (.ahead 2) ?_))
  exact namedNode_places proper

private theorem string_places {content : List Token} (short : content = [] ∨ ∃ text, content = [⟨.stringContent, text⟩]) :
    string.Places (quoteMark :: (content ++ [quoteMark])) ()
      [.node .string (.leaf quoteMark :: (content.map .leaf ++ [.leaf quoteMark]))] [] := by
  have closed (opener : Text.Span) : (closingQuote opener).Places [quoteMark] () [.leaf quoteMark] [] :=
    .quiet .adjacent .take
  have inside : stringContent.Places (content ++ [quoteMark]) () (content.map .leaf) [quoteMark] := by
    rcases short with rfl | ⟨text, rfl⟩
    · exact .quiet .adjacent (.pure ())
    · exact .quiet .adjacent .take
  exact .node (.asking fun opener => .one .take (.bind inside (closed opener)))

private theorem construct_string {content : List Token} (short : content = [] ∨ ∃ text, content = [⟨.stringContent, text⟩]) :
    (construct inner).Places (quoteMark :: (content ++ [quoteMark])) () [stringTree content] [] := by
  have quoted : stringOrWildcard.Places (quoteMark :: (content ++ [quoteMark])) ()
      [.node .string (.leaf quoteMark :: (content.map .leaf ++ [.leaf quoteMark]))] [] :=
    .quiet (.takeIf_left (by simp [quoteMark])) (string_places short)
  exact .quiet .current (.node (.one quoted suffix_places))

private theorem topLevel_pattern (limit : Nat) (begins : kind.startsPattern = true) :
    topLevel limit (some kind) = pattern limit := by
  cases kind <;> first | rfl | cases begins

/-- A text that is a single construct is parsed as that construct, unless nothing may nest. -/
private theorem program_places (room : Nat) {first : Token} {rest : List Token} (begins : first.kind.startsPattern = true)
    (single : (construct (pattern room)).Places (first :: rest) () [tree] []) :
    (program (room + 1)).Places (first :: rest) () [.node .program [tree]] [] := by
  have rested {tokens : List Token} : (Reading.move Cursor.rested).Places tokens () [] tokens :=
    .move fun _ ready => ⟨ready.placed, ready.left, ready.solid, ready.shallow⟩
  have whole : (pattern (room + 1)).Places (first :: rest) () [tree] [] :=
    .unlessExhausted (.quiet rested (.one single rested))
  have once : (nextTopLevel (room + 1)).Places (first :: rest) true [tree] [] := by
    rw [← topLevel_pattern _ begins] at whole
    exact .quiet .atEnd (.quiet .current (.one whole (.pure true)))
  have last : (nextTopLevel (room + 1)).Places [] false [] [] := .quiet .atEnd (.pure false)
  have ended : (do Reading.move Cursor.skip; placeWaiting : Reading Unit).Places [] () [] [] := by
    refine .quiet (.move fun _ ready => ready.skip.symm ▸ ready) ?_
    intro cursor ready
    exact ⟨rfl, by simp [placeWaiting, ready.placed], rfl, ready.left, ready.solid, ready.shallow⟩
  exact .node (.one (.repeatWhile_again once (Nat.zero_lt_succ _) (.repeatWhile_last last)) ended)

end Parser

section
variable {limit : Nat} (nests : 0 < limit)
include nests

private theorem parse_single {source : String} {first : Token} {rest : List Token} {tree : Tree}
    (cut : Token.ofText source = first :: rest) (solid : ∀ token ∈ first :: rest, token.isTrivia = false)
    (begins : first.kind.startsPattern = true)
    (single : ∀ inner, (Parser.construct inner).Places (first :: rest) () [tree] []) :
    (parse limit source).tree = .node .program [tree] := by
  cases limit with
  | zero => cases nests
  | succ room =>
    obtain ⟨_, placed, _⟩ := Parser.program_places room begins (single _) (.start (first :: rest))
      ⟨rfl, rfl, solid, rfl⟩
    simp only [parse, cut, placed, List.headD_cons]

theorem parse_parenthesized {text : String} (single : Token.ofText text = [name text]) (proper : text ≠ "MISSING") :
    (parse limit ("(" ++ text ++ ")")).tree = .node .program [kindTree text] := by
  refine parse_single nests (Token.ofText_parenthesized single) ?_ rfl fun inner => Parser.construct_kind proper
  simp [Token.isTrivia, TokenKind.isTrivia]

/-- A text that is a closed string is parsed as its literal. -/
theorem parse_closed {source : String} {content : List Char}
    (cut : Token.ofText source = quoteMark :: (Token.contentTokens content ++ [quoteMark])) :
    (parse limit source).tree = .node .program [stringTree (Token.contentTokens content)] := by
  have short : Token.contentTokens content = [] ∨ ∃ text, Token.contentTokens content = [⟨.stringContent, text⟩] := by
    cases content with
    | nil => exact .inl rfl
    | cons c rest => exact .inr ⟨_, rfl⟩
  refine parse_single nests cut ?_ rfl fun inner => Parser.construct_string short
  rcases short with none | ⟨text, one⟩
  · simp [none, quoteMark, Token.isTrivia, TokenKind.isTrivia]
  · simp [one, quoteMark, Token.isTrivia, TokenKind.isTrivia]

theorem parse_quote (literal : String) : (parse limit (Text.quote literal)).tree =
    .node .program [stringTree (Token.contentTokens (literal.toList.flatMap Text.escapeChar))] :=
  parse_closed nests (Token.ofText_quote literal)

end

theorem leaf_text (start : Nat) (token : Token) : Placed.text ⟨start, .leaf token⟩ = token.text := by
  simp [Placed.text, Tree.text, Tree.leaves]

theorem kindTree_checked (start : Nat) {text : String} (proper : text ∉ Lint.pseudoKinds) :
    ∃ found, Lint.checkableName? ⟨start, kindTree text⟩ = some found ∧ found.text = text := by
  have named : Placed.kindName? ⟨start, kindTree text⟩ = some ⟨start + opening.length, .leaf (name text)⟩ := rfl
  have whole : Placed.subtype? ⟨start, kindTree text⟩ = none := rfl
  have single : Placed.isWildcard ⟨start, kindTree text⟩ = false := rfl
  refine ⟨⟨start + opening.length, .leaf (name text)⟩, ?_, leaf_text _ _⟩
  simp [Lint.checkableName?, named, whole, single, leaf_text, name, proper]

theorem stringTree_read (start : Nat) (content : List Char) :
    ∃ string, Placed.string? ⟨start, stringTree (Token.contentTokens content)⟩ = some string ∧
      string.isTerminated = true ∧ string.stringValue = String.ofList (Text.unescapeChars content) := by
  refine ⟨⟨start, _⟩, rfl, ?_⟩
  cases content with
  | nil => exact ⟨rfl, rfl⟩
  | cons c rest =>
    have content (before : Nat) : Text.unescape (Placed.text ⟨before, .leaf ⟨.stringContent, String.ofList (c :: rest)⟩⟩) =
        String.ofList (Text.unescapeChars (c :: rest)) := by
      rw [leaf_text, Text.unescape, String.toList_ofList]
    exact ⟨rfl, content _⟩

theorem stringTree_value (start : Nat) (literal : String) :
    ∃ string, Placed.string? ⟨start, stringTree (Token.contentTokens (literal.toList.flatMap Text.escapeChar))⟩ =
      some string ∧ string.stringValue = literal := by
  obtain ⟨string, stringed, _, value⟩ := stringTree_read start (literal.toList.flatMap Text.escapeChar)
  rw [Text.unescapeChars_escaped, String.ofList_toList] at value
  exact ⟨string, stringed, value⟩

end TreeQuery.Syntax
