import TreeQuery.Grammar.Flattening

/-! What the names of a description stand for. Reach is read off the declarations alone; resolving
a supertype step by step finds exactly what it reaches, cycles and nested supertypes included,
unless the limit cuts it short. -/

namespace TreeQuery.Grammar

/-- No two named entries of a description share their name. -/
def Distinct (kinds : List Declaration) : Prop :=
  kinds.Pairwise fun one other => one.stub.isNamed = true → one.stub ≠ other.stub

instance (kinds : List Declaration) : Decidable (Distinct kinds) :=
  inferInstanceAs (Decidable (List.Pairwise _ kinds))

/-- What a reference comes to when supertypes are replaced by their subtypes again and again. -/
inductive Reaches (kinds : List Declaration) : Stub → Stub → Prop
  | literal (value : String) : Reaches kinds (.literal value) (.literal value)
  | concrete {name : String} (plain : ∀ subtypes flags, Declaration.supertype name subtypes flags ∉ kinds) :
    Reaches kinds (.named name) (.named name)
  | subtype {name : String} {subtypes : List Stub} {flags : Flags} {stub target : Stub}
    (declared : Declaration.supertype name subtypes flags ∈ kinds) (member : stub ∈ subtypes)
    (further : Reaches kinds stub target) : Reaches kinds (.named name) target

def Reach (kinds : List Declaration) (stubs : List Stub) (target : Stub) : Prop :=
  ∃ stub ∈ stubs, Reaches kinds stub target

/-- No supertype needs more steps than the limit allows. -/
def WithinLimit (kinds : List Declaration) : Prop :=
  ∀ name subtypes flags, Declaration.supertype name subtypes flags ∈ kinds →
    (expansion kinds name subtypes .empty).waiting = []

def FlatTypes.Has (types : FlatTypes) : Stub → Prop
  | .named name => name ∈ types.names
  | .literal value => value ∈ types.literals

variable {kinds : List Declaration} {name value : String} {subtypes : List Stub} {stub target : Stub}
  {types more found : FlatTypes}

theorem declared_once (distinct : Distinct kinds) {one other : Declaration} (member : one ∈ kinds)
    (among : other ∈ kinds) (named : one.stub.isNamed = true) (same : one.stub = other.stub) : one = other := by
  induction kinds with
  | nil => cases member
  | cons first rest ih =>
    obtain ⟨apart, later⟩ := List.pairwise_cons.mp distinct
    rcases List.mem_cons.mp member with rfl | ahead <;> rcases List.mem_cons.mp among with rfl | behind
    · rfl
    · exact absurd same (apart other behind named)
    · exact absurd same.symm (apart one ahead (same ▸ named))
    · exact ih later ahead behind

theorem declared_of_subtypes? (found : subtypes? kinds name = some subtypes) :
    ∃ flags, Declaration.supertype name subtypes flags ∈ kinds := by
  obtain ⟨declaration, member, same⟩ := List.exists_of_findSome?_eq_some found
  split at same
  next declared _ flags =>
    split at same
    next named =>
      cases same
      exact ⟨flags, named ▸ List.mem_reverse.mp member⟩
    next => cases same
  next => cases same

theorem subtypes?_isSome_iff :
    (subtypes? kinds name).isSome = true ↔ ∃ subtypes flags, Declaration.supertype name subtypes flags ∈ kinds := by
  constructor
  · intro found
    obtain ⟨subtypes, known⟩ := Option.isSome_iff_exists.mp found
    exact ⟨subtypes, declared_of_subtypes? known⟩
  · rintro ⟨subtypes, flags, declared⟩
    refine List.findSome?_isSome_iff.mpr ⟨_, List.mem_reverse.mpr declared, ?_⟩
    simp

theorem subtypes?_of_declared (distinct : Distinct kinds) {flags : Flags}
    (declared : Declaration.supertype name subtypes flags ∈ kinds) : subtypes? kinds name = some subtypes := by
  obtain ⟨others, known⟩ := Option.isSome_iff_exists.mp (subtypes?_isSome_iff.mpr ⟨_, _, declared⟩)
  obtain ⟨_, among⟩ := declared_of_subtypes? known
  cases declared_once distinct declared among rfl rfl
  exact known

theorem plain_of_subtypes? (none : subtypes? kinds name = none) (subtypes : List Stub) (flags : Flags) :
    Declaration.supertype name subtypes flags ∉ kinds := by
  intro declared
  have found : (subtypes? kinds name).isSome = true := subtypes?_isSome_iff.mpr ⟨_, _, declared⟩
  simp [none] at found

@[simp] theorem mem_addNew (texts : List String) (text other : String) :
    other ∈ addNew texts text ↔ other ∈ texts ∨ other = text := by
  unfold addNew
  split
  next present =>
    have member : text ∈ texts := List.contains_iff_mem.mp present
    exact ⟨.inl, fun either => either.elim id fun same => same ▸ member⟩
  next => simp

namespace FlatTypes

theorem has_empty : ¬ FlatTypes.empty.Has target := by
  cases target <;> exact List.not_mem_nil

private theorem has_addName : (types.addName name).Has target ↔ types.Has target ∨ target = .named name := by
  cases target <;> simp [Has, addName]

private theorem has_addLiteral : (types.addLiteral value).Has target ↔ types.Has target ∨ target = .literal value := by
  cases target <;> simp [Has, addLiteral]

theorem mem_addAll (texts more : List String) (other : String) :
    other ∈ more.foldl addNew texts ↔ other ∈ texts ∨ other ∈ more := by
  induction more generalizing texts with
  | nil => simp
  | cons text rest ih => rw [List.foldl_cons, ih, mem_addNew, List.mem_cons, or_assoc]

theorem has_extend : (types.extend more).Has target ↔ types.Has target ∨ more.Has target := by
  cases target <;> exact mem_addAll ..

end FlatTypes

/-- None of the names is declared as a supertype. -/
def FlatTypes.Plain (kinds : List Declaration) (types : FlatTypes) : Prop :=
  ∀ name ∈ types.names, subtypes? kinds name = none

namespace Expansion

/-- What one step can do to an expansion. -/
inductive Turn (kinds : List Declaration) (state : Expansion) : Expansion → Prop
  | idle (ended : state.waiting = []) : Turn kinds state state
  | literal {value : String} {waiting : List Stub} (ahead : state.waiting = .literal value :: waiting) :
    Turn kinds state { state with waiting, found := state.found.addLiteral value }
  | concrete {name : String} {waiting : List Stub} (ahead : state.waiting = .named name :: waiting)
    (plain : subtypes? kinds name = none) :
    Turn kinds state { state with waiting, found := state.found.addName name }
  | again {name : String} {waiting subtypes : List Stub} (ahead : state.waiting = .named name :: waiting)
    (known : subtypes? kinds name = some subtypes) (before : name ∈ state.expanded) :
    Turn kinds state { state with waiting }
  | expand {name : String} {waiting subtypes : List Stub} (ahead : state.waiting = .named name :: waiting)
    (known : subtypes? kinds name = some subtypes) (fresh : name ∉ state.expanded) :
    Turn kinds state { state with expanded := name :: state.expanded, waiting := waiting ++ subtypes }

theorem step_turn (kinds : List Declaration) (state : Expansion) : Turn kinds state (step kinds state) := by
  unfold step
  split
  next ended => exact .idle ended
  next ahead => exact .literal ahead
  next ahead =>
    split
    next plain => exact .concrete ahead plain
    next known =>
      split
      next before => exact .again ahead known (List.contains_iff_mem.mp before)
      next fresh => exact .expand ahead known fun member => fresh (List.contains_iff_mem.mpr member)

private theorem run_keeps (invariant : Expansion → Prop)
    (keeps : ∀ {state next}, Turn kinds state next → invariant state → invariant next) (steps : Nat)
    {state : Expansion} (holds : invariant state) : invariant (run kinds steps state) := by
  induction steps generalizing state with
  | zero => exact holds
  | succ steps ih =>
    unfold run
    split
    next => exact holds
    next => exact ih (keeps (step_turn kinds state) holds)

/-- Nothing is found, or waits to be, that should not be reached. -/
structure Stays (kinds : List Declaration) (reached : Stub → Prop) (state : Expansion) : Prop where
  found : ∀ target, state.found.Has target → reached target
  waiting : ∀ stub ∈ state.waiting, ∀ target, Reaches kinds stub target → reached target

/-- A reference that was resolved, or taken in to be resolved later. -/
inductive Handled (kinds : List Declaration) (state : Expansion) : Stub → Prop
  | waiting {stub : Stub} (member : stub ∈ state.waiting) : Handled kinds state stub
  | literal {value : String} (has : state.found.Has (.literal value)) : Handled kinds state (.literal value)
  | concrete {name : String} (plain : subtypes? kinds name = none) (has : state.found.Has (.named name)) :
    Handled kinds state (.named name)
  | expanded {name : String} {subtypes : List Stub} (known : subtypes? kinds name = some subtypes)
    (member : name ∈ state.expanded) : Handled kinds state (.named name)

/-- Of every supertype that was expanded, all subtypes are taken care of. -/
def Covers (kinds : List Declaration) (state : Expansion) : Prop :=
  ∀ name ∈ state.expanded, ∀ subtypes, subtypes? kinds name = some subtypes →
    ∀ stub ∈ subtypes, Handled kinds state stub

variable {state next : Expansion}

private theorem Turn.stays {reached : Stub → Prop} (turn : Turn kinds state next) (stays : Stays kinds reached state) :
    Stays kinds reached next := by
  have later {first : Stub} {waiting : List Stub} (ahead : state.waiting = first :: waiting) :
      ∀ stub ∈ waiting, ∀ target, Reaches kinds stub target → reached target :=
    fun stub member => stays.waiting stub (ahead ▸ List.mem_cons_of_mem _ member)
  have now {first : Stub} {waiting : List Stub} (ahead : state.waiting = first :: waiting) :
      ∀ target, Reaches kinds first target → reached target :=
    stays.waiting first (ahead ▸ List.mem_cons_self)
  cases turn with
  | idle => exact stays
  | literal ahead =>
    refine ⟨fun target has => ?_, later ahead⟩
    rcases FlatTypes.has_addLiteral.mp has with before | rfl
    · exact stays.found target before
    · exact now ahead _ (.literal _)
  | concrete ahead plain =>
    refine ⟨fun target has => ?_, later ahead⟩
    rcases FlatTypes.has_addName.mp has with before | rfl
    · exact stays.found target before
    · exact now ahead _ (.concrete (plain_of_subtypes? plain))
  | again ahead => exact ⟨stays.found, later ahead⟩
  | expand ahead known =>
    refine ⟨stays.found, fun stub member target reaches => ?_⟩
    rcases List.mem_append.mp member with member | member
    · exact later ahead stub member target reaches
    · obtain ⟨flags, declared⟩ := declared_of_subtypes? known
      exact now ahead target (.subtype declared member reaches)

private theorem Turn.keeps_found (turn : Turn kinds state next) (has : state.found.Has target) : next.found.Has target := by
  cases turn with
  | idle | again | expand => exact has
  | literal => exact FlatTypes.has_addLiteral.mpr (.inl has)
  | concrete => exact FlatTypes.has_addName.mpr (.inl has)

private theorem Turn.plain (turn : Turn kinds state next) (plain : state.found.Plain kinds) : next.found.Plain kinds := by
  cases turn with
  | idle | literal | again | expand => exact plain
  | concrete _ unlisted =>
    intro name member
    rcases (mem_addNew ..).mp member with before | rfl
    · exact plain name before
    · exact unlisted

private theorem Turn.keeps_expanded (turn : Turn kinds state next) (member : name ∈ state.expanded) :
    name ∈ next.expanded := by
  cases turn with
  | expand => exact List.mem_cons_of_mem _ member
  | _ => exact member

private theorem Turn.handles (turn : Turn kinds state next) (member : stub ∈ state.waiting) : Handled kinds next stub := by
  have either {first : Stub} {waiting : List Stub} (ahead : state.waiting = first :: waiting) :
      stub = first ∨ stub ∈ waiting := List.mem_cons.mp (ahead ▸ member)
  cases turn with
  | idle ended => simp [ended] at member
  | literal ahead =>
    rcases either ahead with rfl | later
    · exact .literal (FlatTypes.has_addLiteral.mpr (.inr rfl))
    · exact .waiting later
  | concrete ahead plain =>
    rcases either ahead with rfl | later
    · exact .concrete plain (FlatTypes.has_addName.mpr (.inr rfl))
    · exact .waiting later
  | again ahead known before =>
    rcases either ahead with rfl | later
    · exact .expanded known before
    · exact .waiting later
  | expand ahead known =>
    rcases either ahead with rfl | later
    · exact .expanded known List.mem_cons_self
    · exact .waiting (List.mem_append_left _ later)

private theorem Turn.keeps_handled (turn : Turn kinds state next) (handled : Handled kinds state stub) :
    Handled kinds next stub := by
  cases handled with
  | waiting member => exact turn.handles member
  | literal has => exact .literal (turn.keeps_found has)
  | concrete plain has => exact .concrete plain (turn.keeps_found has)
  | expanded known member => exact .expanded known (turn.keeps_expanded member)

private theorem Turn.covers (turn : Turn kinds state next) (covers : Covers kinds state) : Covers kinds next := by
  intro name member subtypes known stub among
  have earlier (before : name ∈ state.expanded) : Handled kinds next stub :=
    turn.keeps_handled (covers name before subtypes known stub among)
  cases turn with
  | expand ahead taken =>
    rcases List.mem_cons.mp member with rfl | before
    · cases taken.symm.trans known
      exact .waiting (List.mem_append_right _ among)
    · exact earlier before
  | _ => exact earlier member

/-- When nothing waits any more, whatever a handled reference reaches was found. -/
private theorem Handled.finds (distinct : Distinct kinds) (ended : state.waiting = []) (covers : Covers kinds state)
    (handled : Handled kinds state stub) (reaches : Reaches kinds stub target) : state.found.Has target := by
  have nothing {stub : Stub} : stub ∉ state.waiting := by simp [ended]
  induction reaches with
  | literal =>
    cases handled with
    | waiting member => exact absurd member nothing
    | literal has => exact has
  | concrete plain =>
    cases handled with
    | waiting member => exact absurd member nothing
    | concrete _ has => exact has
    | expanded known =>
      obtain ⟨flags, declared⟩ := declared_of_subtypes? known
      exact absurd declared (plain _ flags)
  | subtype declared member _ ih =>
    have known := subtypes?_of_declared distinct declared
    cases handled with
    | waiting member => exact absurd member nothing
    | concrete plain => simp [known] at plain
    | expanded _ before => exact ih (covers _ before _ known _ member)

/-- What was found before decides nothing about what waits. -/
private theorem run_waiting (steps : Nat) (expanded : List String) (waiting : List Stub) (found other : FlatTypes) :
    (run kinds steps ⟨expanded, waiting, found⟩).waiting = (run kinds steps ⟨expanded, waiting, other⟩).waiting := by
  induction steps generalizing expanded waiting found other with
  | zero => rfl
  | succ steps ih =>
    unfold run
    split
    next => rfl
    next =>
      cases waiting with
      | nil => exact ih ..
      | cons first rest =>
        cases first with
        | literal value => exact ih ..
        | named name =>
          simp only [step]
          cases subtypes? kinds name with
          | none => exact ih ..
          | some subtypes =>
            by_cases before : expanded.contains name = true
            · simpa only [if_pos before] using ih ..
            · simpa only [if_neg before] using ih ..

end Expansion

open Expansion

/-- No supertype is found, also where the limit cuts the search short. -/
theorem expandSupertype_plain (plain : found.Plain kinds) : (expandSupertype kinds name subtypes found).Plain kinds :=
  run_keeps (fun state => state.found.Plain kinds) Turn.plain expansionLimit plain

/-- Resolving a supertype finds what it reaches and nothing else. -/
private theorem has_expandSupertype (distinct : Distinct kinds) (limited : WithinLimit kinds) {flags : Flags}
    (declared : Declaration.supertype name subtypes flags ∈ kinds) :
    (expandSupertype kinds name subtypes found).Has target ↔ found.Has target ∨ Reaches kinds (.named name) target := by
  have known := subtypes?_of_declared distinct declared
  constructor
  · intro has
    have begin : Stays kinds (fun target => found.Has target ∨ Reaches kinds (.named name) target)
        ⟨[name], subtypes, found⟩ :=
      ⟨fun _ => .inl, fun _ member _ reaches => .inr (.subtype declared member reaches)⟩
    exact (run_keeps _ Turn.stays expansionLimit begin).found target has
  · rintro (before | reaches)
    · exact run_keeps (fun state => state.found.Has target) Turn.keeps_found expansionLimit before
    · have ended : (expansion kinds name subtypes found).waiting = [] :=
        (run_waiting ..).trans (limited name subtypes flags declared)
      have begin : Covers kinds ⟨[name], subtypes, found⟩ := by
        intro other member others same stub among
        cases List.mem_singleton.mp member
        cases known.symm.trans same
        exact .waiting among
      have covers := run_keeps _ Turn.covers expansionLimit begin
      have first : name ∈ (expansion kinds name subtypes found).expanded :=
        run_keeps (fun state => name ∈ state.expanded) Turn.keeps_expanded expansionLimit
          List.mem_cons_self
      exact Handled.finds distinct ended covers (.expanded known first) reaches

theorem has_flattenSupertype (distinct : Distinct kinds) (limited : WithinLimit kinds) {flags : Flags}
    (declared : Declaration.supertype name subtypes flags ∈ kinds) (target : Stub) :
    (flattenSupertype kinds name subtypes).Has target ↔ Reaches kinds (.named name) target :=
  (has_expandSupertype distinct limited declared).trans (or_iff_right FlatTypes.has_empty)

private theorem has_flattenStub (distinct : Distinct kinds) (limited : WithinLimit kinds) :
    (flattenStub kinds found stub).Has target ↔ found.Has target ∨ Reaches kinds stub target := by
  cases stub with
  | literal value =>
    have alone : Reaches kinds (.literal value) target ↔ target = .literal value :=
      ⟨fun reaches => by cases reaches; rfl, by rintro rfl; exact .literal value⟩
    rw [alone]
    exact FlatTypes.has_addLiteral
  | named name =>
    simp only [flattenStub]
    split
    next plain =>
      have none := plain_of_subtypes? plain
      have alone : Reaches kinds (.named name) target ↔ target = .named name := by
        constructor
        · intro reaches
          cases reaches with
          | concrete => rfl
          | subtype declared => exact absurd declared (none _ _)
        · rintro rfl
          exact .concrete none
      rw [alone]
      exact FlatTypes.has_addName
    next known =>
      obtain ⟨flags, declared⟩ := declared_of_subtypes? known
      exact has_expandSupertype distinct limited declared

/-- Flattening a list of references finds what they reach and nothing else. -/
theorem has_flatten (distinct : Distinct kinds) (limited : WithinLimit kinds) (stubs : List Stub) (target : Stub) :
    (flatten kinds stubs).Has target ↔ Reach kinds stubs target := by
  have added (stubs : List Stub) (found : FlatTypes) :
      (stubs.foldl (flattenStub kinds) found).Has target ↔ found.Has target ∨ Reach kinds stubs target := by
    induction stubs generalizing found with
    | nil => simp [Reach]
    | cons first rest ih =>
      rw [List.foldl_cons, ih, has_flattenStub distinct limited, or_assoc]
      simp [Reach]
  rw [flatten, added]
  exact or_iff_right FlatTypes.has_empty

end TreeQuery.Grammar
