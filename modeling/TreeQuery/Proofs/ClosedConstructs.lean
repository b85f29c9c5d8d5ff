import Mathlib.Data.List.TakeWhile
import TreeQuery.Proofs.CursorChains

/-! A cursor right after the closer of a construct. Constructs that end there are left, but a
quantifier and captures belong to the construct, so that one with a suffix does not end there. -/

namespace TreeQuery.Completion
open Syntax

/-- The nearest thing above the cursor that pins down what is being typed. -/
def terminalOf? (chain : List Placed) : Option Placed := (chain.dropWhile (!isTerminal ·.kind)).head?

/-- The nearest construct above the cursor that it can belong to. -/
def enclosingOf? (chain : List Placed) : Option Placed := (chain.dropWhile (!isEnclosing ·.kind)).head?

def terminalAt? (root : Tree) (offset : Nat) : Option Placed := (chainAt? root offset).bind terminalOf?

def enclosingAt? (root : Tree) (offset : Nat) : Option Placed := (chainAt? root offset).bind enclosingOf?

variable {limit offset : Nat} {source : String} {chain : List Placed} {place : Placed}

private theorem terminalOf?_eq : terminalOf? chain = chain.find? (isTerminal ·.kind) :=
  (List.find?_eq_head?_dropWhile_not ..).symm

private theorem enclosingOf?_eq : enclosingOf? chain = chain.find? (isEnclosing ·.kind) :=
  (List.find?_eq_head?_dropWhile_not ..).symm

/-- Above every cursor there is the whole query, which is both a terminal and enclosing. -/
private theorem chosen_of_root {children : List Tree} (start : Nat) (inside : ⟨start, .node .program children⟩ ∈ chain) :
    ∃ terminal ∈ chain, ∃ enclosing ∈ chain, terminalOf? chain = some terminal ∧ enclosingOf? chain = some enclosing := by
  obtain ⟨terminal, first⟩ := Option.isSome_iff_exists.mp (List.find?_isSome.mpr ⟨_, inside, rfl⟩ :
    (chain.find? (isTerminal ·.kind)).isSome = true)
  obtain ⟨enclosing, found⟩ := Option.isSome_iff_exists.mp (List.find?_isSome.mpr ⟨_, inside, rfl⟩ :
    (chain.find? (isEnclosing ·.kind)).isSome = true)
  exact ⟨terminal, List.mem_of_find?_eq_some first, enclosing, List.mem_of_find?_eq_some found,
    terminalOf?_eq.trans first, enclosingOf?_eq.trans found⟩

section Closer

variable {site : Site} {closer : Placed} (member : site ∈ (parse limit source).tree.nodeSites)
  (own : closer ∈ site.place.children) (closes : closer.kind = .token .parenClose ∨ closer.kind = .token .bracketClose)
include member own closes

private theorem chainAt?_closer : chainAt? (parse limit source).tree closer.stop =
    some (leaveClosed closer.stop (site.place :: site.above)) := by
  have isToken : Site.isToken ⟨closer, site.place :: site.above⟩ = true := by
    obtain closes | closes := closes <;> simp [Site.isToken, closes]
  have inside : ⟨closer, site.place :: site.above⟩ ∈ (parse limit source).tree.tokenSites :=
    List.mem_filter.mpr ⟨Tree.sites_child 0 [] own _ (List.mem_filter.mp member).1, isToken⟩
  have told := tokenBefore?_parse inside (parse_token_wide inside) (Nat.le_refl _)
  have ends : closesConstruct ⟨closer, site.place :: site.above⟩ = true := by
    obtain closes | closes := closes <;> simp [closesConstruct, closes]
  simp [chainAt?, told, ends]

variable {kind : NodeKind} (shape : site.place.kind = .node kind)
  (construct : kind = .namedNode ∨ kind = .grouping ∨ kind = .list)
include shape construct

omit closes in
private theorem leaveClosed_construct : ∃ holder above, site.above = holder :: above ∧
    leaveClosed closer.stop (site.place :: site.above) =
      if site.place.stop = closer.stop then leaveClosed closer.stop site.above else site.place :: site.above := by
  obtain ⟨place, above⟩ := site
  have lineage := (Tree.mem_sites_iff _).mp (List.mem_filter.mp member).1
  have inner : place.isNode .program = false := by
    obtain rfl | rfl | rfl := construct <;> simp [Placed.isNode, shape]
  obtain ⟨children, whole⟩ := parse_program limit source
  cases above with
  | nil =>
    cases lineage
    simp [whole, Placed.isNode, Placed.kind, Tree.kind] at inner
  | cons holder above => exact ⟨holder, above, rfl, by simp [leaveClosed, inner]⟩

private theorem chosen_outside (ends : closer.stop = site.place.stop) :
    ∃ terminal ∈ site.above, ∃ enclosing ∈ site.above,
      terminalAt? (parse limit source).tree closer.stop = some terminal ∧
      enclosingAt? (parse limit source).tree closer.stop = some enclosing := by
  have chain := chainAt?_closer member own closes
  have lineage := (Tree.mem_sites_iff _).mp (List.mem_filter.mp member).1
  obtain ⟨holder, above, below, left⟩ := leaveClosed_construct member own shape construct
  obtain ⟨children, whole⟩ := parse_program limit source
  rw [if_pos ends.symm] at left
  have root : ⟨0, .node .program children⟩ ∈ leaveClosed closer.stop site.above := by
    apply List.mem_of_getLast?
    rw [below] at lineage ⊢
    rw [leaveClosed_last, lineage.tail.last, whole]
  obtain ⟨terminal, first, enclosing, found, chosen⟩ := chosen_of_root 0 root
  have outside := (leaveClosed_suffix closer.stop site.above).subset
  simp only [terminalAt?, enclosingAt?, chain, Option.bind_some, left]
  exact ⟨terminal, outside first, enclosing, outside found, chosen⟩

/-- Before a suffix the cursor is still inside. -/
private theorem terminalAt?_suffixed (differs : closer.stop ≠ site.place.stop) :
    terminalAt? (parse limit source).tree closer.stop = some site.place := by
  have chain := chainAt?_closer member own closes
  obtain ⟨holder, above, below, left⟩ := leaveClosed_construct member own shape construct
  have shown : isTerminal site.place.kind = true := by
    obtain rfl | rfl | rfl := construct <;> simp [isTerminal, shape]
  rw [if_neg differs.symm] at left
  simp [terminalAt?, chain, left, terminalOf?_eq, shown]

/-- A cursor right after the closer of a construct is outside the construct exactly if nothing
follows the closer in it. -/
theorem after_closer_iff :
    (∃ terminal ∈ site.above, ∃ enclosing ∈ site.above,
      terminalAt? (parse limit source).tree closer.stop = some terminal ∧
      enclosingAt? (parse limit source).tree closer.stop = some enclosing) ↔ closer.stop = site.place.stop := by
  constructor
  · rintro ⟨terminal, outside, _, _, first, _⟩
    by_contra differs
    have lineage := (Tree.mem_sites_iff _).mp (List.mem_filter.mp member).1
    have same := Option.some.inj (first.symm.trans (terminalAt?_suffixed member own closes shape construct differs))
    exact lineage.not_mem_above (same ▸ outside)
  · exact chosen_outside member own closes shape construct

end Closer

/-- The closer of `(a)+`. -/
private theorem quantified_closer : ∃ site ∈ (parse Parser.defaultLimit "(a)+").tree.nodeSites, ∃ closer ∈ site.place.children,
    site.place.kind = .node .namedNode ∧ closer.kind = .token .parenClose ∧ closer.stop = 3 ∧ site.place.stop = 4 := by
  decide +kernel

theorem after_quantified : ∃ site ∈ (parse Parser.defaultLimit "(a)+").tree.nodeSites, ∃ closer ∈ site.place.children,
    site.place.kind = .node .namedNode ∧ closer.kind = .token .parenClose ∧
    ((∃ terminal ∈ site.above, ∃ enclosing ∈ site.above,
      terminalAt? (parse Parser.defaultLimit "(a)+").tree closer.stop = some terminal ∧
      enclosingAt? (parse Parser.defaultLimit "(a)+").tree closer.stop = some enclosing) ↔
    closer.stop = site.place.stop) := by
  obtain ⟨site, member, closer, own, shape, closes, _⟩ := quantified_closer
  exact ⟨site, member, closer, own, shape, closes, after_closer_iff member own (.inl closes) shape (.inl rfl)⟩

/-- Between the closer and the quantifier of `(a)+` children of `a` are offered. -/
theorem quantified_still_entered : ∃ site ∈ (parse Parser.defaultLimit "(a)+").tree.nodeSites,
    ∃ closer ∈ site.place.children, site.place.kind = .node .namedNode ∧ closer.kind = .token .parenClose ∧
      closer.stop = 3 ∧ terminalAt? (parse Parser.defaultLimit "(a)+").tree 3 = some site.place ∧
      classify (parse Parser.defaultLimit "(a)+").tree 3 = .child true (some "a") := by
  obtain ⟨site, member, closer, own, shape, closes, ended, wider⟩ := quantified_closer
  have first := terminalAt?_suffixed member own (.inl closes) shape (.inl rfl) (by omega)
  rw [ended] at first
  exact ⟨site, member, closer, own, shape, closes, ended, first, by decide +kernel⟩

end TreeQuery.Completion
