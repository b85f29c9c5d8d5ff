import TreeQuery.Proofs.SupertypeReach

/-! Resolving a supertype is a breadth-first search. The order in which a search meets references is
described level by level, without a queue and without a limit; the queue of an expansion takes them in
just that order, so that what is found is what the first references of the order contribute. -/

namespace TreeQuery.Grammar

def subtypesOf (kinds : List Declaration) (name : String) : List Stub := (subtypes? kinds name).getD []

/-- The references that a name is resolved to. The root of a search has a list of its own. -/
def listOf (kinds : List Declaration) (root : String) (subtypes : List Stub) (name : String) : List Stub :=
  if name = root then subtypes else subtypesOf kinds name

/-- The supertypes that a search comes to: the root, and whatever supertype is in the list of one. -/
inductive Meets (kinds : List Declaration) (root : String) (subtypes : List Stub) : String → Prop
  | root : Meets kinds root subtypes root
  | nested {holder name : String} (met : Meets kinds root subtypes holder)
    (listed : .named name ∈ listOf kinds root subtypes holder) (declared : (subtypes? kinds name).isSome = true) :
    Meets kinds root subtypes name

/-- Literals, and the names that no declaration makes a supertype. -/
def Stub.Concrete (kinds : List Declaration) : Stub → Prop
  | .literal _ => True
  | .named name => subtypes? kinds name = none

/-- What is concrete in the list of a supertype that the search comes to. -/
def Yields (kinds : List Declaration) (root : String) (subtypes : List Stub) (target : Stub) : Prop :=
  target.Concrete kinds ∧ ∃ holder, Meets kinds root subtypes holder ∧ target ∈ listOf kinds root subtypes holder

def superNames (kinds : List Declaration) : List String :=
  kinds.filterMap fun
    | .supertype name _ _ => some name
    | _ => none

open Classical in
/-- All references in the lists of the supertypes that the search comes to, each supertype counted once. -/
noncomputable def entryCount (kinds : List Declaration) (root : String) (subtypes : List Stub) : Nat :=
  let met := (root :: superNames kinds).eraseDups.filter fun name => Meets kinds root subtypes name
  (met.flatMap (listOf kinds root subtypes)).length

/-- The supertypes that a level names for the first time, in order. -/
def fresh (kinds : List Declaration) (seen : List String) : List Stub → List String
  | [] => []
  | .literal _ :: level => fresh kinds seen level
  | .named name :: level =>
    if (subtypes? kinds name).isSome = true ∧ name ∉ seen then name :: fresh kinds (name :: seen) level
    else fresh kinds seen level

def unseen (kinds : List Declaration) (seen : List String) : List String := (superNames kinds).filter (· ∉ seen)

private theorem addNew_eraseDups (texts : List String) (text : String) :
    addNew texts.eraseDups text = (texts ++ [text]).eraseDups := by
  rw [List.eraseDups_append, addNew]
  by_cases member : text ∈ texts
  · simp [member, List.removeAll]
  · simp [member, List.removeAll, List.eraseDups_cons]

theorem foldl_addNew (texts : List String) : texts.foldl addNew [] = texts.eraseDups := by
  have further (before : List String) : texts.foldl addNew before.eraseDups = (before ++ texts).eraseDups := by
    induction texts generalizing before with
    | nil => rw [List.foldl_nil, List.append_nil]
    | cons text rest ih => rw [List.foldl_cons, addNew_eraseDups, ih, List.append_assoc, List.singleton_append]
  exact further []

theorem nodup_eraseDups (texts : List String) : texts.eraseDups.Nodup := by
  rw [← foldl_addNew]
  refine List.foldlRecOn texts addNew .nil fun before distinct text _ => ?_
  unfold addNew
  split
  · exact distinct
  next new =>
    refine List.nodup_append.mpr ⟨distinct, List.pairwise_singleton _ _, fun other member last here same => new ?_⟩
    rw [List.contains_iff_mem, ← List.mem_singleton.mp here, ← same]
    exact member

variable {kinds : List Declaration} {seen : List String} {level rest : List Stub} {name : String}

private theorem mem_superNames : name ∈ superNames kinds ↔ (subtypes? kinds name).isSome = true := by
  rw [subtypes?_isSome_iff, superNames, List.mem_filterMap]
  constructor
  · intro ⟨declared, member, same⟩
    split at same
    next subtypes flags => exact ⟨subtypes, flags, Option.some.inj same ▸ member⟩
    next => cases same
  · intro ⟨subtypes, flags, member⟩
    exact ⟨_, member, rfl⟩

private theorem mem_fresh : name ∈ fresh kinds seen level ↔
    .named name ∈ level ∧ (subtypes? kinds name).isSome = true ∧ name ∉ seen := by
  fun_induction fresh kinds seen level with
  | case1 => simp
  | case2 _ _ _ ih => simpa using ih
  | case3 seen other level new ih =>
    by_cases same : name = other
    · subst same
      simpa using new
    · simp [ih, same]
  | case4 seen other level old ih =>
    rw [ih]
    by_cases same : name = other
    · subst same
      constructor
      · exact fun both => absurd both.2 old
      · exact fun both => absurd both.2 old
    · simp [same]

private theorem fresh_nodup : (fresh kinds seen level).Nodup := by
  fun_induction fresh kinds seen level with
  | case1 => exact .nil
  | case2 _ _ _ ih => exact ih
  | case3 seen name level new ih =>
    refine List.nodup_cons.mpr ⟨fun again => ?_, ih⟩
    exact (mem_fresh.mp again).2.2 List.mem_cons_self
  | case4 _ _ _ _ ih => exact ih

private theorem fresh_append (kinds : List Declaration) (seen : List String) (level rest : List Stub) :
    fresh kinds seen (level ++ rest) =
      fresh kinds seen level ++ fresh kinds ((fresh kinds seen level).reverse ++ seen) rest := by
  fun_induction fresh kinds seen level with
  | case1 => rfl
  | case2 _ _ _ ih => exact ih
  | case3 seen name level new ih =>
    rw [List.cons_append, fresh, if_pos new, ih]
    simp
  | case4 seen name level old ih => rw [List.cons_append, fresh, if_neg old, ih]

/-- A level that names a supertype for the first time leaves fewer to be named. -/
private theorem unseen_shorter (found : fresh kinds seen level ≠ []) :
    (unseen kinds ((fresh kinds seen level).reverse ++ seen)).length < (unseen kinds seen).length := by
  obtain ⟨name, names, first⟩ := List.exists_cons_of_ne_nil found
  have member : name ∈ fresh kinds seen level := first ▸ List.mem_cons_self
  obtain ⟨_, declared, new⟩ := mem_fresh.mp member
  have fewer : unseen kinds ((fresh kinds seen level).reverse ++ seen) =
      (unseen kinds seen).filter (· ∉ (fresh kinds seen level).reverse ++ seen) := by
    rw [unseen, unseen, List.filter_filter]
    refine List.filter_congr fun other _ => ?_
    simp +contextual
  rw [fewer, List.length_filter_lt_length_iff_exists]
  refine ⟨name, List.mem_filter.mpr ⟨mem_superNames.mpr declared, by simpa using new⟩, ?_⟩
  simp [member]

/-- All references that a search meets from a level on: the level, then the lists of the supertypes that it names
for the first time, and so on. -/
def breadthFirst (kinds : List Declaration) (seen : List String) (level : List Stub) : List Stub :=
  let found := fresh kinds seen level
  if _ : found = [] then level
  else level ++ breadthFirst kinds (found.reverse ++ seen) (found.flatMap (subtypesOf kinds))
termination_by (unseen kinds seen).length
decreasing_by exact unseen_shorter ‹_›

private theorem breadthFirst_nil (kinds : List Declaration) (seen : List String) : breadthFirst kinds seen [] = [] := by
  rw [breadthFirst]
  exact dif_pos rfl

private theorem breadthFirst_levels (kinds : List Declaration) (seen : List String) (level : List Stub) :
    breadthFirst kinds seen level = level ++ breadthFirst kinds ((fresh kinds seen level).reverse ++ seen)
      ((fresh kinds seen level).flatMap (subtypesOf kinds)) := by
  rw [breadthFirst]
  split
  next none => rw [none, List.flatMap_nil, breadthFirst_nil, List.append_nil]
  next => rfl

/-- Where a level is cut makes no difference: its first part may be met before the lists of what it names are
put behind the second part. -/
private theorem breadthFirst_append (kinds : List Declaration) (seen : List String) (level rest : List Stub) :
    breadthFirst kinds seen (level ++ rest) = level ++ breadthFirst kinds ((fresh kinds seen level).reverse ++ seen)
      (rest ++ (fresh kinds seen level).flatMap (subtypesOf kinds)) := by
  induction left : (unseen kinds seen).length using Nat.strongRecOn generalizing seen level rest with
  | ind size ih =>
    let first := fresh kinds seen level
    let after := first.reverse ++ seen
    let second := fresh kinds after rest
    by_cases none : fresh kinds seen (level ++ rest) = []
    · obtain ⟨first, second⟩ := List.append_eq_nil_iff.mp ((fresh_append kinds seen level rest).symm.trans none)
      rw [breadthFirst_levels, none, first]
      rw [first] at second
      simp only [List.reverse_nil, List.nil_append] at second
      simp only [List.reverse_nil, List.nil_append, List.flatMap_nil, breadthFirst_nil, List.append_nil]
      rw [breadthFirst_levels kinds seen rest, second]
      simp [breadthFirst_nil]
    · have shorter := unseen_shorter none
      rw [breadthFirst_levels, breadthFirst_levels kinds after]
      rw [fresh_append] at shorter ⊢
      rw [fresh_append kinds after rest]
      simp only [List.reverse_append, List.append_assoc, List.flatMap_append] at shorter ⊢
      rw [ih _ (left ▸ shorter) _ _ _ rfl]

/-- What was met, apart from the level itself, are the lists of supertypes met on the way, each once and none of
them seen before. -/
private theorem breadthFirst_opened (kinds : List Declaration) (seen : List String) (level : List Stub) :
    ∃ opened : List String, opened.Nodup ∧ (∀ name ∈ opened, name ∉ seen) ∧
      breadthFirst kinds seen level = level ++ opened.flatMap (subtypesOf kinds) ∧
      ∀ name, name ∈ opened ↔ .named name ∈ breadthFirst kinds seen level ∧ (subtypes? kinds name).isSome = true ∧ name ∉ seen := by
  induction left : (unseen kinds seen).length using Nat.strongRecOn generalizing seen level with
  | ind size ih =>
    by_cases none : fresh kinds seen level = []
    · refine ⟨[], .nil, List.forall_mem_nil _, ?_, fun name => ?_⟩
      · rw [breadthFirst_levels, none, List.flatMap_nil, breadthFirst_nil]
      · rw [breadthFirst_levels, none, List.flatMap_nil, breadthFirst_nil, List.append_nil, ← mem_fresh, none]
    · obtain ⟨opened, once, apart, whole, named⟩ := ih _ (left ▸ unseen_shorter none) ((fresh kinds seen level).reverse ++ seen)
        ((fresh kinds seen level).flatMap (subtypesOf kinds)) rfl
      refine ⟨fresh kinds seen level ++ opened, ?_, ?_, ?_, fun name => ?_⟩
      · refine List.nodup_append.mpr ⟨fresh_nodup, once, fun name first other later same => ?_⟩
        have before : name ∈ (fresh kinds seen level).reverse ++ seen := by simp [first]
        exact apart other later (same ▸ before)
      · intro name member
        rcases List.mem_append.mp member with first | later
        · exact (mem_fresh.mp first).2.2
        · exact fun before => apart name later (List.mem_append_right _ before)
      · rw [breadthFirst_levels, whole, List.flatMap_append]
      · rw [List.mem_append, named, mem_fresh, breadthFirst_levels kinds seen level, List.mem_append, List.mem_append,
          List.mem_reverse, mem_fresh]
        grind

/-- What holds of a level, and passes from a supertype not seen before to its list, holds of all that is met. -/
private theorem breadthFirst_all (holds : Stub → Prop) (here : ∀ stub ∈ level, holds stub)
    (passes : ∀ name, name ∉ seen → (subtypes? kinds name).isSome = true → holds (.named name) →
      ∀ stub ∈ subtypesOf kinds name, holds stub) : ∀ stub ∈ breadthFirst kinds seen level, holds stub := by
  induction left : (unseen kinds seen).length using Nat.strongRecOn generalizing seen level with
  | ind size ih =>
    intro stub member
    by_cases none : fresh kinds seen level = []
    · rw [breadthFirst_levels, none, List.flatMap_nil, breadthFirst_nil, List.append_nil] at member
      exact here stub member
    · rw [breadthFirst_levels] at member
      rcases List.mem_append.mp member with first | later
      · exact here stub first
      · refine ih _ (left ▸ unseen_shorter none) ?_ ?_ rfl stub later
        · intro other listed
          obtain ⟨name, among, listed⟩ := List.mem_flatMap.mp listed
          obtain ⟨named, declared, new⟩ := mem_fresh.mp among
          exact passes name new declared (here _ named) other listed
        · intro name new
          exact passes name fun before => new (List.mem_append_right _ before)

section Search

variable {root : String} {subtypes : List Stub} {stub target : Stub}

private theorem listOf_root : listOf kinds root subtypes root = subtypes := if_pos rfl

private theorem listOf_other (other : name ≠ root) : listOf kinds root subtypes name = subtypesOf kinds name := if_neg other

/-- The supertypes that the search comes to are the root and those that it names. -/
private theorem Meets.named (met : Meets kinds root subtypes name) :
    name = root ∨ .named name ∈ breadthFirst kinds [root] subtypes ∧ (subtypes? kinds name).isSome = true := by
  obtain ⟨opened, _, _, whole, named⟩ := breadthFirst_opened kinds [root] subtypes
  induction met with
  | root => exact .inl rfl
  | @nested holder name _ listed declared ih =>
    refine .inr ⟨?_, declared⟩
    rw [whole]
    by_cases same : holder = root
    · rw [same, listOf_root] at listed
      exact List.mem_append_left _ listed
    · rw [listOf_other same] at listed
      obtain ⟨before, known⟩ := ih.resolve_left same
      have among : holder ∈ opened := (named holder).mpr ⟨before, known, by simpa using same⟩
      exact List.mem_append_right _ (List.mem_flatMap.mpr ⟨holder, among, listed⟩)

/-- The search meets what is in the lists of the supertypes that it comes to, and nothing else. -/
private theorem mem_breadthFirst : stub ∈ breadthFirst kinds [root] subtypes ↔
    ∃ holder, Meets kinds root subtypes holder ∧ stub ∈ listOf kinds root subtypes holder := by
  constructor
  · refine breadthFirst_all (fun stub => ∃ holder, Meets kinds root subtypes holder ∧
      stub ∈ listOf kinds root subtypes holder) ?_ ?_ stub
    · intro stub member
      exact ⟨root, .root, listOf_root.symm ▸ member⟩
    · intro name new declared ⟨holder, met, listed⟩ stub member
      have other : name ≠ root := by simpa using new
      exact ⟨name, met.nested listed declared, (listOf_other other).symm ▸ member⟩
  · intro ⟨holder, met, listed⟩
    obtain ⟨opened, _, _, whole, named⟩ := breadthFirst_opened kinds [root] subtypes
    by_cases same : holder = root
    · rw [same, listOf_root] at listed
      exact whole ▸ List.mem_append_left _ listed
    · obtain ⟨before, known⟩ := met.named.resolve_left same
      have among : holder ∈ opened := (named holder).mpr ⟨before, known, by simpa using same⟩
      rw [listOf_other same] at listed
      exact whole ▸ List.mem_append_right _ (List.mem_flatMap.mpr ⟨holder, among, listed⟩)

/-- The search meets every reference as often as it is in the lists that it comes to. -/
private theorem breadthFirst_length (kinds : List Declaration) (root : String) (subtypes : List Stub) :
    (breadthFirst kinds [root] subtypes).length = entryCount kinds root subtypes := by
  obtain ⟨opened, once, apart, whole, named⟩ := breadthFirst_opened kinds [root] subtypes
  have outside (name : String) (member : name ∈ opened) : name ≠ root := by simpa using apart name member
  have met (name : String) : name ∈ root :: opened ↔ Meets kinds root subtypes name := by
    rw [List.mem_cons]
    constructor
    · intro either
      by_cases same : name = root
      · exact same ▸ .root
      · obtain ⟨among, declared, _⟩ := (named name).mp (either.resolve_left same)
        obtain ⟨holder, before, listed⟩ := mem_breadthFirst.mp among
        exact before.nested listed declared
    · intro met
      by_cases same : name = root
      · exact .inl same
      · obtain ⟨among, declared⟩ := met.named.resolve_left same
        exact .inr ((named name).mpr ⟨among, declared, by simpa using same⟩)
  have distinct : (root :: opened).Nodup := List.nodup_cons.mpr ⟨fun member => outside root member rfl, once⟩
  have lists : (root :: opened).flatMap (listOf kinds root subtypes) = subtypes ++ opened.flatMap (subtypesOf kinds) := by
    rw [List.flatMap_cons, listOf_root, List.flatMap_def, List.flatMap_def,
      List.map_congr_left fun name member => listOf_other (outside name member)]
  classical
  have same : (root :: opened).Perm
      ((root :: superNames kinds).eraseDups.filter fun name => Meets kinds root subtypes name) := by
    refine (List.perm_ext_iff_of_nodup distinct ((nodup_eraseDups _).filter _)).mpr fun name => ?_
    rw [met, List.mem_filter, List.mem_eraseDups, List.mem_cons, mem_superNames, decide_eq_true_iff]
    exact ⟨fun here => ⟨here.named.imp_right And.right, here⟩, And.right⟩
  rw [entryCount, whole, ← lists]
  exact (same.flatMap_right _).length_eq

end Search

def concrete? (kinds : List Declaration) : Stub → Option String
  | .literal _ => none
  | .named name => if (subtypes? kinds name).isSome then none else some name

def literal? : Stub → Option String
  | .literal value => some value
  | .named _ => none

/-- What references stand for by themselves, supertypes left out. -/
def parts (kinds : List Declaration) (stubs : List Stub) : FlatTypes :=
  ⟨stubs.filterMap (concrete? kinds), stubs.filterMap literal?⟩

/-- The concrete names and the literals among references, each where it comes first. -/
def contribution (kinds : List Declaration) (stubs : List Stub) : FlatTypes :=
  ⟨(parts kinds stubs).names.eraseDups, (parts kinds stubs).literals.eraseDups⟩

private theorem extend_parts (kinds : List Declaration) (types : FlatTypes) (stub : Stub) (stubs : List Stub) :
    (types.extend (parts kinds [stub])).extend (parts kinds stubs) = types.extend (parts kinds (stub :: stubs)) := by
  have names : (parts kinds (stub :: stubs)).names = (parts kinds [stub]).names ++ (parts kinds stubs).names :=
    List.filterMap_append (l := [stub])
  have literals : (parts kinds (stub :: stubs)).literals = (parts kinds [stub]).literals ++ (parts kinds stubs).literals :=
    List.filterMap_append (l := [stub])
  simp only [FlatTypes.extend, names, literals, List.foldl_append]

private theorem parts_concrete (plain : subtypes? kinds name = none) : parts kinds [.named name] = ⟨[name], []⟩ := by
  simp [parts, List.filterMap_cons, concrete?, literal?, plain]

private theorem parts_supertype {subtypes : List Stub} (known : subtypes? kinds name = some subtypes) :
    parts kinds [.named name] = .empty := by
  simp [parts, List.filterMap_cons, concrete?, literal?, known, FlatTypes.empty]

private theorem empty_extend_parts (kinds : List Declaration) (stubs : List Stub) :
    FlatTypes.empty.extend (parts kinds stubs) = contribution kinds stubs := by
  unfold FlatTypes.extend contribution
  rw [← foldl_addNew, ← foldl_addNew]
  rfl

private theorem has_contribution {stubs : List Stub} {target : Stub} :
    (contribution kinds stubs).Has target ↔ target ∈ stubs ∧ target.Concrete kinds := by
  cases target with
  | literal value =>
    change value ∈ (stubs.filterMap literal?).eraseDups ↔ _ ∧ True
    rw [List.mem_eraseDups, List.mem_filterMap, and_true]
    constructor
    · intro ⟨stub, member, same⟩
      cases stub with
      | literal => exact Option.some.inj same ▸ member
      | named => cases same
    · exact fun member => ⟨_, member, rfl⟩
  | named name =>
    change name ∈ (stubs.filterMap (concrete? kinds)).eraseDups ↔ _ ∧ subtypes? kinds name = none
    rw [List.mem_eraseDups, List.mem_filterMap]
    constructor
    · intro ⟨stub, member, same⟩
      cases stub with
      | literal => cases same
      | named other =>
        cases known : subtypes? kinds other with
        | some => simp [concrete?, known] at same
        | none =>
          obtain rfl : other = name := by simpa [concrete?, known] using same
          exact ⟨member, known⟩
    · intro ⟨member, plain⟩
      exact ⟨_, member, by rw [concrete?, plain]; rfl⟩

namespace Expansion

/-- The references that an expansion has still to process, without a limit, those included that it puts behind. -/
def upcoming (kinds : List Declaration) (state : Expansion) : List Stub :=
  breadthFirst kinds state.expanded state.waiting

variable {state : Expansion} {stub : Stub}

private theorem upcoming_eq_nil (kinds : List Declaration) : upcoming kinds state = [] ↔ state.waiting = [] := by
  constructor
  · intro none
    rw [upcoming, breadthFirst_levels] at none
    exact (List.append_eq_nil_iff.mp none).1
  · intro ended
    rw [upcoming, ended, breadthFirst_nil]

/-- One step processes the first of what is to be processed, and leaves the others. -/
private theorem step_upcoming (kinds : List Declaration) (ahead : state.waiting = stub :: rest) :
    upcoming kinds state = stub :: upcoming kinds (step kinds state) ∧
      (step kinds state).found = state.found.extend (parts kinds [stub]) := by
  have split := breadthFirst_append kinds state.expanded [stub] rest
  have turn := step_turn kinds state
  unfold upcoming
  rw [ahead]
  generalize step kinds state = next at turn ⊢
  cases turn with
  | idle ended => cases ahead.symm.trans ended
  | literal first =>
    obtain ⟨rfl, rfl⟩ := List.cons.inj (ahead.symm.trans first)
    exact ⟨by simpa [fresh] using split, rfl⟩
  | concrete first plain =>
    obtain ⟨rfl, rfl⟩ := List.cons.inj (ahead.symm.trans first)
    exact ⟨by simpa [fresh, plain] using split, by rw [parts_concrete plain]; rfl⟩
  | again first known before =>
    obtain ⟨rfl, rfl⟩ := List.cons.inj (ahead.symm.trans first)
    exact ⟨by simpa [fresh, before] using split, by rw [parts_supertype known]; rfl⟩
  | expand first known new =>
    obtain ⟨rfl, rfl⟩ := List.cons.inj (ahead.symm.trans first)
    exact ⟨by simpa [fresh, known, new, subtypesOf] using split, by rw [parts_supertype known]; rfl⟩

private theorem run_ended (steps : Nat) (ended : state.waiting = []) : run kinds steps state = state := by
  cases steps with
  | zero => rfl
  | succ steps => rw [run, ended]; rfl

private theorem run_add (first second : Nat) (state : Expansion) :
    run kinds (first + second) state = run kinds second (run kinds first state) := by
  induction first generalizing state with
  | zero => rw [Nat.zero_add, run]
  | succ first ih =>
    rw [Nat.succ_add, run, run]
    split
    next ended => rw [run_ended second (List.isEmpty_iff.mp ended)]
    next => exact ih _

/-- Some steps process as many references, and what these stand for is found. -/
theorem run_upcoming (kinds : List Declaration) (steps : Nat) (state : Expansion) :
    upcoming kinds (run kinds steps state) = (upcoming kinds state).drop steps ∧
      (run kinds steps state).found = state.found.extend (parts kinds ((upcoming kinds state).take steps)) := by
  induction steps generalizing state with
  | zero => exact ⟨rfl, rfl⟩
  | succ steps ih =>
    cases ahead : state.waiting with
    | nil =>
      rw [run_ended _ ahead, (upcoming_eq_nil kinds).mpr ahead]
      exact ⟨rfl, rfl⟩
    | cons stub rest =>
      obtain ⟨first, found⟩ := step_upcoming kinds ahead
      have going : run kinds (steps + 1) state = run kinds steps (step kinds state) := by
        rw [run, ahead]
        rfl
      obtain ⟨left, further⟩ := ih (step kinds state)
      rw [going, first, List.drop_succ_cons, List.take_succ_cons, left, further, found, extend_parts]
      exact ⟨rfl, rfl⟩

/-- An expansion ends when as many steps were made as there were references to process. -/
private theorem run_ended_iff (kinds : List Declaration) (steps : Nat) :
    (run kinds steps state).waiting = [] ↔ (upcoming kinds state).length ≤ steps := by
  rw [← upcoming_eq_nil kinds, (run_upcoming kinds steps state).1, List.drop_eq_nil_iff]

private theorem run_min (kinds : List Declaration) (steps : Nat) (state : Expansion) :
    run kinds (min (upcoming kinds state).length steps) state = run kinds steps state := by
  rcases Nat.le_total (upcoming kinds state).length steps with enough | short
  · have ended := (run_ended_iff kinds (upcoming kinds state).length).mpr (Nat.le_refl _)
    rw [Nat.min_eq_left enough]
    conv => rhs; rw [← Nat.add_sub_cancel' enough, run_add, run_ended _ ended]
  · rw [Nat.min_eq_right short]

end Expansion

section Resolution

variable (kinds : List Declaration) (root : String) (subtypes : List Stub)

/-- The expansion of a supertype is the breadth-first search from its list, up to the limit. -/
structure Resolution : Prop where
  counted : (breadthFirst kinds [root] subtypes).length = entryCount kinds root subtypes
  /-- It ends after as many steps as there are entries, and not before. -/
  ends : ∀ steps, (Expansion.run kinds steps ⟨[root], subtypes, .empty⟩).waiting = [] ↔ entryCount kinds root subtypes ≤ steps
  spent : expansion kinds root subtypes .empty =
    Expansion.run kinds (min (entryCount kinds root subtypes) expansionLimit) ⟨[root], subtypes, .empty⟩
  contributed : flattenSupertype kinds root subtypes =
    contribution kinds ((breadthFirst kinds [root] subtypes).take expansionLimit)
  reached : ∀ target, (flattenSupertype kinds root subtypes).Has target → Yields kinds root subtypes target
  whole : entryCount kinds root subtypes ≤ expansionLimit →
    flattenSupertype kinds root subtypes = contribution kinds (breadthFirst kinds [root] subtypes) ∧
      ∀ target, (flattenSupertype kinds root subtypes).Has target ↔ Yields kinds root subtypes target

variable {kinds root subtypes}

private theorem has_search {target : Stub} :
    (contribution kinds (breadthFirst kinds [root] subtypes)).Has target ↔ Yields kinds root subtypes target := by
  rw [has_contribution, mem_breadthFirst, and_comm]
  rfl

variable (kinds root subtypes)

/-- Whatever is declared, cycles included. -/
theorem flattenSupertype_resolution : Resolution kinds root subtypes := by
  let start : Expansion := ⟨[root], subtypes, .empty⟩
  have counted := breadthFirst_length kinds root subtypes
  have contributed : flattenSupertype kinds root subtypes =
      contribution kinds ((breadthFirst kinds [root] subtypes).take expansionLimit) := by
    rw [← empty_extend_parts]
    exact (Expansion.run_upcoming kinds expansionLimit start).2
  refine ⟨counted, fun steps => ?_, ?_, contributed, fun target has => ?_, fun within => ?_⟩
  · rw [← counted]
    exact Expansion.run_ended_iff kinds steps
  · rw [← counted]
    exact (Expansion.run_min kinds expansionLimit start).symm
  · obtain ⟨member, concrete⟩ := has_contribution.mp (contributed ▸ has)
    exact has_search.mp (has_contribution.mpr ⟨List.mem_of_mem_take member, concrete⟩)
  · have all : (breadthFirst kinds [root] subtypes).take expansionLimit = breadthFirst kinds [root] subtypes :=
      List.take_of_length_le (counted ▸ within)
    rw [contributed, all]
    exact ⟨rfl, fun target => has_search⟩

end Resolution

/-- A reference to a supertype stands for its last declaration. -/
private theorem flatten_reference {subtypes : List Stub} (known : subtypes? kinds name = some subtypes) :
    flatten kinds [.named name] = flattenSupertype kinds name subtypes := by
  rw [flatten, List.foldl_cons, List.foldl_nil, flattenStub, known]
  rfl

/-- Resolving a declaration and resolving a reference to it come to the same for all declarations just if those of one
name come to the same. -/
theorem flatten_agrees_iff (kinds : List Declaration) :
    (∀ name subtypes flags, Declaration.supertype name subtypes flags ∈ kinds →
      flatten kinds [.named name] = flattenSupertype kinds name subtypes) ↔
    ∀ name subtypes flags others otherFlags, Declaration.supertype name subtypes flags ∈ kinds →
      Declaration.supertype name others otherFlags ∈ kinds →
      flattenSupertype kinds name subtypes = flattenSupertype kinds name others := by
  constructor
  · intro agree name subtypes flags others otherFlags first second
    exact (agree name subtypes flags first).symm.trans (agree name others otherFlags second)
  · intro same name subtypes flags declared
    obtain ⟨last, known⟩ := Option.isSome_iff_exists.mp (subtypes?_isSome_iff.mpr ⟨subtypes, flags, declared⟩)
    obtain ⟨lastFlags, among⟩ := declared_of_subtypes? known
    exact (flatten_reference known).trans (same name last lastFlags subtypes flags among declared)

/-- Of a supertype that is declared twice, the first declaration resolves to what it lists itself. -/
theorem repeated_disagrees : ¬ ∀ kinds name subtypes flags, Declaration.supertype name subtypes flags ∈ kinds →
    flatten kinds [.named name] = flattenSupertype kinds name subtypes := by
  intro agree
  let flags : Flags := ⟨false, false⟩
  let kinds : List Declaration := [.supertype "a" [.named "x"] flags, .supertype "a" [.named "y"] flags]
  have same := agree kinds "a" [.named "x"] flags List.mem_cons_self
  have reference : flatten kinds [.named "a"] = ⟨["y"], []⟩ := by decide +kernel
  have declared : flattenSupertype kinds "a" [.named "x"] = ⟨["x"], []⟩ := by decide +kernel
  rw [reference, declared] at same
  exact absurd same (by decide)

end TreeQuery.Grammar
