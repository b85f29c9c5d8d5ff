import TreeQuery.Proofs.ParserProgress
import TreeQuery.Proofs.TokenCover

/-! A parsed text holds its tokens, each once and where it was. What a reading takes it places
or leaves waiting, so that nothing is lost, however deep or broken the text is. -/

namespace TreeQuery.Syntax
open Text (Span)
open Diagnostic (Report)

namespace Tree

theorem leavesOf_append (left right : List Tree) : leavesOf (left ++ right) = leavesOf left ++ leavesOf right := by
  induction left with
  | nil => rfl
  | cons tree rest ih => simp only [List.cons_append, leavesOf, ih, List.append_assoc]

theorem leavesOf_tokens (tokens : List Token) : leavesOf (tokens.map .leaf) = tokens := by
  induction tokens with
  | nil => rfl
  | cons token rest ih => simp only [List.map_cons, leavesOf, leaves, ih, List.cons_append, List.nil_append]

end Tree

open TreeQuery.Syntax.Tree (leavesOf leavesOf_append leavesOf_tokens)

/-- What was waiting or unread is placed, waits or is still unread, in the same order. -/
def Keeps (cursor : Cursor) (trees : List Tree) (_ : List Report) (next : Cursor) : Prop :=
  cursor.waiting ++ cursor.rest = leavesOf trees ++ (next.waiting ++ next.rest)

theorem keeps : Law Keeps where
  stay _ := rfl
  chain {_ _ _ trees later _ _} first second := by
    unfold Keeps at first second ⊢
    rw [first, second, leavesOf_append, List.append_assoc]
  note _ _ _ _ := rfl
  skip cursor := by
    have split : cursor.rest.takeWhile Token.isTrivia ++ cursor.rest.dropWhile Token.isTrivia = cursor.rest :=
      List.takeWhile_append_dropWhile
    calc cursor.waiting ++ cursor.rest
      _ = cursor.waiting ++ (cursor.rest.takeWhile Token.isTrivia ++ cursor.rest.dropWhile Token.isTrivia) := by
        rw [split]
      _ = leavesOf [] ++ (cursor.skip.waiting ++ cursor.skip.rest) := (List.append_assoc ..).symm
  place cursor := by
    unfold Keeps
    rw [leavesOf_tokens]
    rfl
  token cursor token rest placed left _ := by
    unfold Keeps
    rw [placed, left]
    rfl
  around _ _ trees _ _ _ inside := by
    unfold Keeps at inside ⊢
    rw [inside]
    simp only [leavesOf, Tree.leaves, List.append_nil]
  found _ _ _ _ := rfl
  last _ _ _ _ := rfl

theorem parse_leaves (limit : Nat) (source : String) : (parse limit source).tree.leaves = Token.ofText source := by
  obtain ⟨_, ended, placed⟩ := Parser.program_ends limit (Token.ofText source)
  have single : (Parser.program limit (.start (Token.ofText source))).trees = [(parse limit source).tree] := rfl
  have kept := keeps.program limit (.start (Token.ofText source))
  unfold Keeps at kept
  rw [ended, placed, single] at kept
  simpa [Cursor.start, leavesOf] using kept.symm

theorem spanned_append (start : Nat) (left right : List Token) :
    spanned start (left ++ right) = spanned start left ++ spanned (start + Text.total Token.length left) right := by
  induction left generalizing start with
  | nil => rfl
  | cons token rest ih => simp only [List.cons_append, spanned, ih, Text.total_cons, Nat.add_assoc]

def Site.tokens (sites : List Site) : List (Tree × Span) :=
  (sites.filter Site.isToken).map fun site => (site.place.tree, site.place.span)

namespace Tree

mutual

theorem sites_tokens (start : Nat) (above : List Placed) : (tree : Tree) →
    Site.tokens (tree.sites start above) = (spanned start tree.leaves).map fun (token, span) => (.leaf token, span)
  | leaf _ => rfl
  | node kind children => by
    rw [sites, leaves, ← sitesOf_tokens start (⟨start, node kind children⟩ :: above) children]
    rfl

theorem sitesOf_tokens (start : Nat) (above : List Placed) : (trees : List Tree) →
    Site.tokens (sitesOf start above trees) =
      (spanned start (leavesOf trees)).map fun (token, span) => (.leaf token, span)
  | [] => rfl
  | tree :: rest => by
    rw [sitesOf, leavesOf, spanned_append, List.map_append, ← length_eq_total_leaves,
      ← sites_tokens start above tree, ← sitesOf_tokens (start + tree.length) above rest]
    simp only [Site.tokens, List.filter_append, List.map_append]

end

end Tree

/-- A parsed text is its tokens from left to right, each where it stands in the text. They are not
empty and follow each other without a gap from the beginning of the text to its end. -/
theorem parse_lossless (limit : Nat) (source : String) :
    (parse limit source).tree.leaves = Token.ofText source ∧
    (parse limit source).tree.tokenSites.map (fun site => (site.place.tree, site.place.span)) =
      (spanned 0 (Token.ofText source)).map (fun (token, span) => (.leaf token, span)) ∧
    Tiles 0 source.utf8ByteSize ((spanned 0 (Token.ofText source)).map (·.2)) ∧
    (parse limit source).tree.text = source := by
  have leaves := parse_leaves limit source
  refine ⟨leaves, ?_, Token.ofText_tiles source, ?_⟩
  · rw [← leaves]
    exact Tree.sites_tokens 0 [] (parse limit source).tree
  · rw [Tree.text, leaves]
    exact Token.ofText_joins source

end TreeQuery.Syntax
