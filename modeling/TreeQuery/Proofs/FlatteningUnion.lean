import TreeQuery.Proofs.ResolvedEnvironment
import TreeQuery.Proofs.SupertypeTraversal

/-! Resolving references one after the other. What was found before takes no part in an expansion, be it cut off or
not, so that each reference adds what it stands for by itself. What is resolved is left as it is. -/

namespace TreeQuery.Grammar

private theorem addAll_addNew (texts more : List String) (text : String) :
    (addNew more text).foldl addNew texts = addNew (more.foldl addNew texts) text := by
  unfold addNew
  split
  next before =>
    have among : text ∈ more.foldl addNew texts := (FlatTypes.mem_addAll ..).mpr (.inr (List.contains_iff_mem.mp before))
    exact (if_pos (List.contains_iff_mem.mpr among)).symm
  next => exact List.foldl_append

private theorem addAll_addAll (texts more further : List String) :
    (further.foldl addNew more).foldl addNew texts = further.foldl addNew (more.foldl addNew texts) := by
  induction further generalizing more with
  | nil => rfl
  | cons text rest ih => rw [List.foldl_cons, ih, addAll_addNew, List.foldl_cons]

namespace FlatTypes

private theorem extend_assoc (types more further : FlatTypes) :
    (types.extend more).extend further = types.extend (more.extend further) := by
  simp only [extend, addAll_addAll]

private theorem extend_empty (types : FlatTypes) : types.extend .empty = types := rfl

private theorem extend_addName (types : FlatTypes) (name : String) :
    types.extend (FlatTypes.empty.addName name) = types.addName name :=
  rfl

private theorem extend_addLiteral (types : FlatTypes) (value : String) :
    types.extend (FlatTypes.empty.addLiteral value) = types.addLiteral value := rfl

/-- References that name just these types, names and literals each in their order. -/
structure Spelled (types : FlatTypes) (stubs : List Stub) : Prop where
  names : stubs.filterMap (fun stub => if stub.isNamed then some stub.text else none) = types.names
  literals : stubs.filterMap (fun stub => if stub.isNamed then none else some stub.text) = types.literals

/-- The names, then the literals. -/
def stubs (types : FlatTypes) : List Stub := types.names.map .named ++ types.literals.map .literal

private theorem stubs_spelled (types : FlatTypes) : types.Spelled types.stubs := by
  constructor
  · rw [stubs, List.filterMap_append, List.filterMap_map, List.filterMap_map]
    change types.names.filterMap some ++ types.literals.filterMap (fun _ => none) = types.names
    simp
  · rw [stubs, List.filterMap_append, List.filterMap_map, List.filterMap_map]
    change types.names.filterMap (fun _ => none) ++ types.literals.filterMap some = types.literals
    simp

end FlatTypes

section Resolving

variable (kinds)

/-- An expansion adds to what was found before what it finds by itself, as far as the limit lets it. -/
private theorem expandSupertype_extend (name : String) (subtypes : List Stub) (found : FlatTypes) :
    expandSupertype kinds name subtypes found = found.extend (expandSupertype kinds name subtypes .empty) := by
  have after (found : FlatTypes) : expandSupertype kinds name subtypes found =
      found.extend (parts kinds ((breadthFirst kinds [name] subtypes).take expansionLimit)) :=
    (Expansion.run_upcoming kinds expansionLimit ⟨[name], subtypes, found⟩).2
  rw [after, after, ← FlatTypes.extend_assoc, FlatTypes.extend_empty]

private theorem flattenStub_extend (found : FlatTypes) (stub : Stub) :
    flattenStub kinds found stub = found.extend (flattenStub kinds .empty stub) := by
  cases stub with
  | literal value => exact (found.extend_addLiteral value).symm
  | named name =>
    simp only [flattenStub]
    cases subtypes? kinds name with
    | none => exact (found.extend_addName name).symm
    | some subtypes => exact expandSupertype_extend kinds name subtypes found

private theorem flatten_extend (found : FlatTypes) (stubs : List Stub) :
    stubs.foldl (flattenStub kinds) found = found.extend (flatten kinds stubs) := by
  induction stubs generalizing found with
  | nil => rfl
  | cons stub rest ih =>
    calc (stub :: rest).foldl (flattenStub kinds) found
      _ = (flattenStub kinds found stub).extend (flatten kinds rest) := ih _
      _ = found.extend ((flattenStub kinds .empty stub).extend (flatten kinds rest)) := by
        rw [flattenStub_extend, FlatTypes.extend_assoc]
      _ = found.extend (flatten kinds (stub :: rest)) := congrArg found.extend (ih _).symm

end Resolving

/-- Names that are no supertypes stand for themselves, as literals do. -/
private theorem flatten_spelled {kinds : List Declaration} {types : FlatTypes} {stubs : List Stub}
    (plain : types.Plain kinds) (spelled : types.Spelled stubs) : flatten kinds stubs = FlatTypes.empty.extend types := by
  obtain ⟨names, literals⟩ := types
  obtain ⟨rfl, rfl⟩ := spelled
  unfold flatten
  generalize FlatTypes.empty = found
  induction stubs generalizing found with
  | nil => rfl
  | cons stub rest ih =>
    cases stub with
    | literal value => exact ih plain _
    | named name =>
      obtain ⟨concrete, plain⟩ := List.forall_mem_cons.mp plain
      have first : flattenStub kinds found (.named name) = found.addName name := by
        simp only [flattenStub, show subtypes? kinds name = none from concrete]
      rw [List.foldl_cons, first]
      exact ih plain _

/-- Two lists of references together resolve to what the first resolves to, and then what the second adds to it. What is
resolved resolves to itself. -/
theorem flatten_union (kinds : List Declaration) (xs ys : List Stub) :
    flatten kinds (xs ++ ys) = (flatten kinds xs).extend (flatten kinds ys) ∧
      flatten kinds (flatten kinds xs).stubs = flatten kinds xs ∧
      ∀ stubs, (flatten kinds xs).Spelled stubs → flatten kinds stubs = flatten kinds xs := by
  have again (stubs : List Stub) (spelled : (flatten kinds xs).Spelled stubs) : flatten kinds stubs = flatten kinds xs :=
    calc flatten kinds stubs
      _ = FlatTypes.empty.extend (flatten kinds xs) := flatten_spelled (flatten_plain kinds xs) spelled
      _ = flatten kinds xs := (flatten_extend kinds .empty xs).symm
  refine ⟨?_, again _ (FlatTypes.stubs_spelled _), again⟩
  rw [flatten, List.foldl_append]
  exact flatten_extend kinds _ ys

/-- A supertype in a circle, one inside it, and a literal that comes first by itself. -/
theorem circle_union :
    let flags : Flags := ⟨false, false⟩
    let kinds : List Declaration :=
      [.supertype "a" [.named "b", .literal "x", .named "a", .named "c"] flags, .supertype "b" [.named "d", .named "c"] flags]
    (flatten kinds [.named "b", .literal "y"]).Spelled [.named "d", .literal "y", .named "c"] ∧
      flatten kinds [.named "b", .literal "y", .named "a"] = ⟨["d", "c"], ["y", "x"]⟩ ∧
      flatten kinds [.named "d", .literal "y", .named "c"] = ⟨["d", "c"], ["y"]⟩ := by
  intro flags kinds
  have first : flatten kinds [.named "b", .literal "y"] = ⟨["d", "c"], ["y"]⟩ := by decide +kernel
  have spelled : (flatten kinds [.named "b", .literal "y"]).Spelled [.named "d", .literal "y", .named "c"] := by
    rw [first]
    exact ⟨rfl, rfl⟩
  obtain ⟨union, _, again⟩ := flatten_union kinds [.named "b", .literal "y"] [.named "a"]
  refine ⟨spelled, union.trans ?_, (again _ spelled).trans first⟩
  decide +kernel

end TreeQuery.Grammar
