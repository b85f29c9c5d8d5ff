import TreeQuery.Lint.Usage

/-! Which items a construct has once groupings and lists are looked through, said without
walking the tree. -/

namespace TreeQuery.Lint
open Syntax

/-- What an item stands for: itself, or whatever the items inside a grouping or a list stand for. -/
inductive Exposes : Placed → Placed → Prop
  | itself {item : Placed} {kind : NodeKind} (shape : item.kind = .node kind) (proper : kind.isItem = true)
    (closed : kind ≠ .grouping ∧ kind ≠ .list) : Exposes item item
  | inside {holder child item : Placed} (looked : holder.isNode .grouping = true ∨ holder.isNode .list = true)
    (member : child ∈ holder.children) (further : Exposes child item) : Exposes holder item

def Among (construct item : Placed) : Prop := ∃ child ∈ construct.children, Exposes child item

def InValue (field item : Placed) : Prop := ∃ value, field.value? = some value ∧ Exposes value item

private theorem mem_spreadAll (start : Nat) (trees : List Tree) (item : Placed) :
    item ∈ spreadAll start trees ↔ ∃ child ∈ Placed.line start trees, item ∈ spread child.start child.tree := by
  induction trees generalizing start with
  | nil => simp [spreadAll, Placed.line]
  | cons tree rest ih => simp [spreadAll, Placed.line, ih]

private theorem spread_looked (start : Nat) {kind : NodeKind} (looked : kind = .grouping ∨ kind = .list) (children : List Tree) :
    spread start (.node kind children) = spreadAll start children := by
  simp [spread, looked]

private theorem spread_of_exposes {construct item : Placed} (exposes : Exposes construct item) :
    item ∈ spread construct.start construct.tree := by
  induction exposes with
  | @itself item kind shape proper closed =>
    obtain ⟨start, tree⟩ := item
    cases tree with
    | leaf token => cases shape
    | node found children =>
      cases shape
      simp [spread, closed.1, closed.2, proper]
  | @inside holder child item looked member _ ih =>
    obtain ⟨start, tree⟩ := holder
    cases tree with
    | leaf token => cases member
    | node kind children =>
      have either : kind = .grouping ∨ kind = .list := by
        simpa [Placed.isNode, Placed.kind, Tree.kind] using looked
      rw [spread_looked start either, mem_spreadAll]
      exact ⟨child, member, ih⟩

mutual

theorem exposes_of_spread (start : Nat) (item : Placed) : (tree : Tree) → item ∈ spread start tree →
    Exposes ⟨start, tree⟩ item
  | .leaf _, member => absurd member List.not_mem_nil
  | .node kind children, member => by
    by_cases looked : kind = .grouping ∨ kind = .list
    · rw [spread_looked start looked] at member
      obtain ⟨child, among, further⟩ := exposes_of_spreadAll start item children member
      have holds : Placed.isNode ⟨start, .node kind children⟩ .grouping = true ∨
          Placed.isNode ⟨start, .node kind children⟩ .list = true := by
        simpa [Placed.isNode, Placed.kind, Tree.kind] using looked
      exact .inside holds among further
    · obtain ⟨proper, rfl⟩ : kind.isItem = true ∧ item = ⟨start, .node kind children⟩ := by
        simpa [spread, looked] using member
      exact .itself rfl proper (not_or.mp looked)

theorem exposes_of_spreadAll (start : Nat) (item : Placed) : (trees : List Tree) → item ∈ spreadAll start trees →
    ∃ child ∈ Placed.line start trees, Exposes child item
  | [], member => absurd member List.not_mem_nil
  | tree :: rest, member => by
    rcases List.mem_append.mp member with first | later
    · exact ⟨⟨start, tree⟩, List.mem_cons_self, exposes_of_spread start item tree first⟩
    · obtain ⟨child, among, exposes⟩ := exposes_of_spreadAll (start + tree.length) item rest later
      exact ⟨child, List.mem_cons_of_mem _ among, exposes⟩

end

/-- The items that are checked are those that stand among a construct's. -/
theorem mem_flatItems {construct item : Placed} : item ∈ flatItems construct ↔ Among construct item := by
  constructor
  · exact exposes_of_spreadAll construct.start item construct.tree.children
  · rintro ⟨child, member, exposes⟩
    exact (mem_spreadAll ..).mpr ⟨child, member, spread_of_exposes exposes⟩

theorem mem_flatValues {field item : Placed} : item ∈ flatValues field ↔ InValue field item := by
  unfold flatValues InValue
  cases field.value? with
  | none => simp
  | some value =>
    have spread : item ∈ Lint.spread value.start value.tree ↔ Exposes value item :=
      ⟨exposes_of_spread value.start item value.tree, spread_of_exposes⟩
    simpa using spread

end TreeQuery.Lint
