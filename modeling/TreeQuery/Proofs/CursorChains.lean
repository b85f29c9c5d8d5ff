import Mathlib.Data.List.TakeWhile
import TreeQuery.Completion.Context
import TreeQuery.Proofs.TreeSites

/-! Where a cursor is. It is in the token before it, or in the nodes above that token which do not
end at the cursor, or at the colon of a field that waits for its value. Its context is told by a pair of
these. -/

namespace TreeQuery.Completion
open Syntax

variable {limit offset : Nat} {source : String} {root : Tree} {chain : List Placed} {token : Placed} {site other : Site}

/-- A place in the text after the first byte of a token and not after its last is told by that token alone. -/
theorem tokenBefore?_parse {offset : Nat} (member : site ∈ (parse limit source).tree.tokenSites)
    (after : site.place.start < offset) (within : offset ≤ site.place.stop) :
    tokenBefore? (parse limit source).tree offset = some site := by
  have apart := parse_tokens_apart limit source
  obtain ⟨before, others, split⟩ := List.append_of_mem member
  rw [split] at apart
  refine List.find?_eq_some_iff_append.mpr ⟨by simp [after, within], before, others, split, fun earlier among => ?_⟩
  have ended : earlier.place.stop ≤ site.place.start :=
    (List.pairwise_append.mp apart).2.2 earlier among site List.mem_cons_self
  have past : ¬ offset ≤ earlier.place.stop := by omega
  simp [past]

/-- A token of a parsed text is told by where it begins. -/
theorem parse_token_unique (member : site ∈ (parse limit source).tree.tokenSites)
    (among : other ∈ (parse limit source).tree.tokenSites) (same : site.place.start = other.place.start) : site = other := by
  have wide := parse_token_wide member
  have broad := parse_token_wide among
  have here : tokenBefore? (parse limit source).tree (site.place.start + 1) = some site :=
    tokenBefore?_parse member (Nat.lt_succ_self _) wide
  have there : tokenBefore? (parse limit source).tree (site.place.start + 1) = some other :=
    tokenBefore?_parse among (by omega) (by omega)
  exact Option.some.inj (here.symm.trans there)

theorem leaveClosed_suffix (offset : Nat) (places : List Placed) : leaveClosed offset places <:+ places := by
  fun_induction leaveClosed offset places with
  | case1 place above rest _ ih => exact ih.trans (List.suffix_cons place (above :: rest))
  | case2 => exact List.suffix_refl _
  | case3 => exact List.suffix_refl _

/-- The root is never left. -/
theorem leaveClosed_last (offset : Nat) (places : List Placed) :
    (leaveClosed offset places).getLast? = places.getLast? := by
  fun_induction leaveClosed offset places with
  | case1 place above rest _ ih => rw [ih, List.getLast?_cons_cons]
  | case2 => rfl
  | case3 => rfl

theorem parse_program (limit : Nat) (source : String) : ∃ children, (parse limit source).tree = .node .program children :=
  ⟨_, rfl⟩

private theorem danglingColon?_mem {colon : Site} (found : danglingColon? root token = some colon) : colon ∈ root.tokenSites := by
  simp only [danglingColon?, Option.bind_eq_bind, Option.bind_eq_some_iff] at found
  obtain ⟨site, first, field, _, chosen⟩ := found
  have same : site = colon := by
    split at chosen
    next => exact Option.some.inj chosen
    next => cases chosen
  have before := (List.dropWhile_suffix _).subset (List.mem_of_mem_head? first)
  rw [← same]
  exact (List.takeWhile_prefix _).subset (List.mem_reverse.mp before)

/-- Where a cursor can be: in the token before it, at a colon that waits for the value of its field, or
in nodes above a token that closes a construct. -/
inductive Located (root : Tree) (offset : Nat) : List Placed → Prop
  | token {site : Site} (told : tokenBefore? root offset = some site) : Located root offset (site.place :: site.above)
  | colon {site : Site} (member : site ∈ root.tokenSites) (waits : site.place.kind = .token .colon)
    (field : site.above.head?.any (·.isNode .fieldDefinition) = true) : Located root offset (site.place :: site.above)
  | closed {site : Site} (told : tokenBefore? root offset = some site) (closes : closesConstruct site = true) :
    Located root offset (leaveClosed offset site.above)

private theorem danglingColon?_field {colon : Site} (found : danglingColon? root token = some colon) :
    colon.place.kind = .token .colon ∧ colon.above.head?.any (·.isNode .fieldDefinition) = true := by
  simp only [danglingColon?, Option.bind_eq_bind, Option.bind_eq_some_iff] at found
  obtain ⟨site, _, field, holds, chosen⟩ := found
  split at chosen
  next waits =>
    cases chosen
    simp only [Bool.and_eq_true, decide_eq_true_eq] at waits
    exact ⟨waits.1.1, by rw [holds]; exact waits.1.2⟩
  next => cases chosen

theorem chainAt?_located (located : chainAt? root offset = some chain) : Located root offset chain := by
  simp only [chainAt?, Option.bind_eq_bind, Option.bind_eq_some_iff] at located
  obtain ⟨site, told, located⟩ := located
  split at located
  next closes =>
    cases located
    exact .closed told (Bool.and_eq_true_iff.mp closes).2
  next =>
    split at located
    next =>
      split at located
      next colon found =>
        cases located
        exact .colon (danglingColon?_mem found) (danglingColon?_field found).1 (danglingColon?_field found).2
      next =>
        cases located
        exact .token told
    next =>
      cases located
      exact .token told

/-- A cursor is in a token, or in nodes above one. -/
theorem chainAt?_suffix (located : chainAt? root offset = some chain) :
    ∃ site ∈ root.tokenSites, chain <:+ site.place :: site.above := by
  cases chainAt?_located located with
  | @token site told => exact ⟨site, List.mem_of_find?_eq_some told, List.suffix_refl _⟩
  | @colon site member => exact ⟨site, member, List.suffix_refl _⟩
  | @closed site told =>
    have within := (leaveClosed_suffix offset site.above).trans (List.suffix_cons site.place site.above)
    exact ⟨site, List.mem_of_find?_eq_some told, within⟩

theorem suffix_lineage {place : Placed} {rest : List Placed} (located : chainAt? root offset = some chain)
    (suffix : place :: rest <:+ chain) : Lineage ⟨0, root⟩ (place :: rest) := by
  obtain ⟨site, member, within⟩ := chainAt?_suffix located
  exact (Tree.token_lineage member).of_suffix (suffix.trans within)

section Pairs

variable {enclosing terminal : Placed} {above around : List Placed}

theorem mem_dropWhile (skip : Placed → Bool) {place : Placed} (inside : place ∈ chain) (stops : skip place = false) :
    place ∈ chain.dropWhile skip := by
  rw [← List.takeWhile_append_dropWhile (p := skip) (l := chain)] at inside
  refine (List.mem_append.mp inside).resolve_left fun skipped => ?_
  simp [List.mem_takeWhile_imp skipped] at stops

/-- The cursor goes by the rule for a terminal and an enclosing construct, if there is one. -/
structure Dispatched (chain : List Placed) (enclosing : Placed) (above : List Placed) (terminal : Placed)
    (around : List Placed) : Prop where
  plain : chain.any (·.kind = .token .comment) = false
  first : chain.dropWhile (!isTerminal ·.kind) = terminal :: around
  found : chain.dropWhile (!isEnclosing ·.kind) = enclosing :: above
  unmarked : terminal.kind ≠ .token .atSign
  outside : (chain.any (·.isNode .predicate) && !enclosing.isNode .capture) = false

namespace Dispatched

variable (dispatched : Dispatched chain enclosing above terminal around)
include dispatched

theorem contextOf_eq : contextOf chain = contextIn enclosing above terminal (around.headD terminal) := by
  simp [contextOf, dispatched.plain, dispatched.first, dispatched.found, dispatched.unmarked, dispatched.outside]

theorem terminal_suffix : terminal :: around <:+ chain := dispatched.first ▸ List.dropWhile_suffix _

theorem enclosing_suffix : enclosing :: above <:+ chain := dispatched.found ▸ List.dropWhile_suffix _

theorem terminal_mem : terminal ∈ chain := dispatched.terminal_suffix.subset List.mem_cons_self

theorem enclosing_mem : enclosing ∈ chain := dispatched.enclosing_suffix.subset List.mem_cons_self

theorem terminal_kind : isTerminal terminal.kind = true := by
  have ends := List.head?_dropWhile_not (fun place : Placed => !isTerminal place.kind) chain
  rw [dispatched.first] at ends
  simpa using ends

theorem enclosing_kind : isEnclosing enclosing.kind = true := by
  have ends := List.head?_dropWhile_not (fun place : Placed => !isEnclosing place.kind) chain
  rw [dispatched.found] at ends
  simpa using ends

theorem inside_predicate {place : Placed} (inside : place ∈ chain) (shape : place.kind = .node .predicate) :
    enclosing.kind = .node .capture := by
  have within : chain.any (·.isNode .predicate) = true := List.any_eq_true.mpr ⟨place, inside, decide_eq_true shape⟩
  have outside := dispatched.outside
  rw [within, Bool.true_and, Bool.not_eq_false'] at outside
  exact of_decide_eq_true outside

end Dispatched

/-- How the context of a cursor is told by what it is in. -/
inductive ContextTold (chain : List Placed) : Context → Prop
  | silent : ContextTold chain .none
  | sign : ContextTold chain (.capture Option.none)
  | apart (free : ∀ place ∈ chain, isTerminal place.kind = true → isEnclosing place.kind ≠ true) :
    ContextTold chain .unhandled
  | pair {enclosing terminal : Placed} {above around : List Placed}
    (dispatched : Dispatched chain enclosing above terminal around) :
    ContextTold chain (contextIn enclosing above terminal (around.headD terminal))

theorem contextOf_told (chain : List Placed) : ContextTold chain (contextOf chain) := by
  unfold contextOf
  split
  next => exact .silent
  next plain =>
    split
    next terminal around enclosing above first found =>
      split
      next => exact .sign
      next unmarked =>
        split
        next => exact .silent
        next outside => exact .pair ⟨Bool.eq_false_iff.mpr plain, first, found, unmarked, Bool.eq_false_iff.mpr outside⟩
    next other =>
      refine .apart fun place inside terminates encloses => ?_
      have first := mem_dropWhile (!isTerminal ·.kind) inside (by simp [terminates])
      have found := mem_dropWhile (!isEnclosing ·.kind) inside (by simp [encloses])
      obtain ⟨terminal, around, first⟩ := List.exists_cons_of_ne_nil (List.ne_nil_of_mem first)
      obtain ⟨enclosing, above, found⟩ := List.exists_cons_of_ne_nil (List.ne_nil_of_mem found)
      exact other _ _ _ _ first found

end Pairs

end TreeQuery.Completion
