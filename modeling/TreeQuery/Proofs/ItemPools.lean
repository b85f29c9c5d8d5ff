import TreeQuery.Completion.Pool
import TreeQuery.Proofs.QuotedLiterals
import TreeQuery.Proofs.RegistryLookup

/-! What the pools of an environment hold: an item for every name and every literal that it knows,
and no other. -/

namespace TreeQuery.Completion
open Grammar Text

variable {env : Environment} {wrapped : Bool} {keep : String → Bool} {name : String} {rendition : Rendition} {item : Item}

private theorem entry_of_poolOf {entries : List (String × Rendition)} (member : (name, rendition) ∈ (poolOf entries).entries) :
    (name, rendition) ∈ entries := by
  have within : ∀ entry ∈ (poolOf entries).entries, entry ∈ entries := by
    refine List.foldlRecOn (motive := fun pool : Pool => ∀ entry ∈ pool.entries, entry ∈ entries) entries _ nofun ?_
    intro pool within put among entry held
    rcases Registry.entry_of_insert held with same | before
    · exact same ▸ among
    · exact within entry before
  exact within _ member

private theorem poolOf_has {entries : List (String × Rendition)} (member : (name, rendition) ∈ entries) :
    ∃ kept, (name, kept) ∈ (poolOf entries).entries := by
  have contained : (poolOf entries).contains name = true := by
    obtain ⟨before, after, rfl⟩ := List.append_of_mem member
    rw [poolOf, List.foldl_append, List.foldl_cons]
    have put := (Registry.contains_insert (poolOf before) name name rendition).mpr (.inl rfl)
    exact List.foldlRecOn (motive := fun pool : Pool => pool.contains name = true) after _ put
      fun _ holds _ _ => (Registry.contains_insert ..).mpr (.inr holds)
  obtain ⟨kept, found⟩ := (Registry.contains_iff ..).mp contained
  exact ⟨kept, Registry.entry_of_get? found⟩

theorem mem_itemsWhere {pool : Pool} : item ∈ pool.itemsWhere wrapped keep ↔
    ∃ name rendition, (name, rendition) ∈ pool.entries ∧ keep name = true ∧ Pool.side wrapped rendition = item := by
  simp [Pool.itemsWhere, and_assoc]

theorem mem_nodes (wrapped : Bool) (member : (name, rendition) ∈ (Pools.ofEnvironment env).nodes.entries) :
    name ∈ env.kindNames ∧ (Pool.side wrapped rendition).kind = .node ∧ (Pool.side wrapped rendition).label = name := by
  rcases List.mem_append.mp (entry_of_poolOf member) with among | among
  all_goals
    obtain ⟨⟨text, held⟩, entry, same⟩ := List.mem_map.mp among
    cases same
  · exact ⟨List.mem_append_left _ (List.mem_map.mpr ⟨_, entry, rfl⟩), by cases wrapped <;> exact ⟨rfl, rfl⟩⟩
  · exact ⟨List.mem_append_right _ (List.mem_map.mpr ⟨_, entry, rfl⟩), by cases wrapped <;> exact ⟨rfl, rfl⟩⟩

theorem nodes_has (known : name ∈ env.kindNames) :
    ∃ kept, (name, kept) ∈ (Pools.ofEnvironment env).nodes.entries := by
  rcases List.mem_append.mp known with among | among
  all_goals obtain ⟨⟨text, held⟩, entry, rfl⟩ := List.mem_map.mp among
  · exact poolOf_has (List.mem_append_left _ (List.mem_map.mpr ⟨_, entry, rfl⟩))
  · exact poolOf_has (List.mem_append_right _ (List.mem_map.mpr ⟨_, entry, rfl⟩))

theorem mem_literals (member : (name, rendition) ∈ (Pools.ofEnvironment env).literals.entries) :
    name ∈ env.literals ∧ rendition = literalRendition name := by
  obtain ⟨value, known, same⟩ := List.mem_map.mp (entry_of_poolOf member)
  cases same
  exact ⟨known, rfl⟩

theorem literals_has (known : name ∈ env.literals) :
    (name, literalRendition name) ∈ (Pools.ofEnvironment env).literals.entries := by
  have listed : (name, literalRendition name) ∈ env.literals.map fun value => (value, literalRendition value) :=
    List.mem_map.mpr ⟨name, known, rfl⟩
  obtain ⟨kept, entry⟩ := poolOf_has listed
  exact (mem_literals entry).2 ▸ entry

theorem mem_builtins (member : item ∈ (Pools.ofEnvironment env).builtins.items wrapped) : item.kind = .builtin := by
  obtain ⟨rendition, among, rfl⟩ := List.mem_map.mp member
  obtain ⟨⟨name, held⟩, entry, rfl⟩ := List.mem_map.mp among
  obtain ⟨text, _, same⟩ := List.mem_map.mp (entry_of_poolOf entry)
  cases same
  cases wrapped <;> rfl

/-- What is offered where kind names pass a test and literals are those of some types. -/
def fitting (pools : Pools) (wrapped : Bool) (keep : String → Bool) (types : FlatTypes) : List Item :=
  pools.nodes.itemsWhere wrapped keep ++
    ((if wrapped then pools.literals.itemsWhere true types.literals.contains else []) ++ pools.builtins.items wrapped)

variable {types : FlatTypes}

theorem fitting_cases (member : item ∈ fitting (.ofEnvironment env) wrapped keep types) :
    (item.kind = .node ∧ item.label ∈ env.kindNames ∧ keep item.label = true) ∨
    (∃ value ∈ env.literals, value ∈ types.literals ∧ wrapped = true ∧ item = .plain .literal (quote value)) ∨
    item.kind = .builtin := by
  rcases List.mem_append.mp member with named | other
  · obtain ⟨name, rendition, entry, kept, rfl⟩ := mem_itemsWhere.mp named
    obtain ⟨known, kind, label⟩ := mem_nodes wrapped entry
    exact .inl ⟨kind, label ▸ known, label ▸ kept⟩
  rcases List.mem_append.mp other with quoted | builtin
  · split at quoted
    next whole =>
      obtain ⟨value, rendition, entry, kept, rfl⟩ := mem_itemsWhere.mp quoted
      obtain ⟨known, rfl⟩ := mem_literals entry
      exact .inr (.inl ⟨value, known, List.contains_iff_mem.mp kept, whole, rfl⟩)
    next => cases quoted
  · exact .inr (.inr (mem_builtins builtin))

theorem fitting_node (known : name ∈ env.kindNames) :
    (∃ item ∈ fitting (.ofEnvironment env) wrapped keep types, item.kind = .node ∧ item.label = name) ↔
      keep name = true := by
  constructor
  · rintro ⟨item, member, kind, rfl⟩
    rcases fitting_cases member with ⟨_, _, kept⟩ | ⟨_, _, _, _, rfl⟩ | builtin
    · exact kept
    · cases kind
    · cases kind.symm.trans builtin
  · intro kept
    obtain ⟨rendition, entry⟩ := nodes_has known
    obtain ⟨_, kind, label⟩ := mem_nodes wrapped entry
    exact ⟨_, List.mem_append_left _ (mem_itemsWhere.mpr ⟨name, rendition, entry, kept, rfl⟩), kind, label⟩

/-- Where literals are offered at all, one is offered exactly if it is among the types. -/
theorem fitting_literal {value : String} (known : value ∈ env.literals) :
    (∃ item ∈ fitting (.ofEnvironment env) true keep types, item.kind = .literal ∧ item.text = quote value) ↔
      value ∈ types.literals := by
  constructor
  · rintro ⟨item, member, kind, text⟩
    rcases fitting_cases member with ⟨node, _⟩ | ⟨other, _, within, _, rfl⟩ | builtin
    · cases kind.symm.trans node
    · exact quote_injective text ▸ within
    · cases kind.symm.trans builtin
  · intro within
    have entry := literals_has known
    have offered : Item.plain .literal (quote value) ∈
        (Pools.ofEnvironment env).literals.itemsWhere true types.literals.contains :=
      mem_itemsWhere.mpr ⟨value, _, entry, List.contains_iff_mem.mpr within, rfl⟩
    exact ⟨_, List.mem_append_right _ (List.mem_append_left _ offered), rfl, rfl⟩

end TreeQuery.Completion
