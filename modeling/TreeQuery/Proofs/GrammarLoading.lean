import Mathlib.Data.List.Induction
import TreeQuery.Analyzer
import TreeQuery.Proofs.EmptyEnvironment

/-! Loading grammars, one after another. The last request that put an environment in place decides
what an analyzer knows and offers. Before the first one it has no pools at all, not even those of the
empty environment, so that the built-in names are missing from what it offers. -/

namespace TreeQuery
open Grammar Completion Syntax

namespace Snapshot

/-- The pools are those that the environment gives rise to. -/
def Consistent (snapshot : Snapshot) : Prop := snapshot.pools = .ofEnvironment snapshot.env

instance (snapshot : Snapshot) : Decidable snapshot.Consistent := inferInstanceAs (Decidable (_ = _))

private theorem initial_inconsistent : ¬ initial.Consistent := by decide

/-- Items without the built-in names. -/
def unbuilt (items : List Item) : List Item := items.filter (·.kind ≠ .builtin)

private theorem unbuilt_captures (captures : Option CaptureIndex) (typing : Option String) :
    unbuilt (captureNames captures typing) = captureNames captures typing := by
  apply List.filter_eq_self.mpr
  intro item member
  cases captures with
  | none => cases member
  | some index =>
    obtain ⟨name, _, rfl⟩ := List.mem_map.mp member
    rfl

/-- Of the empty environment the built-in names are offered, and without pools not even these. -/
private theorem offer_unbuilt (captures : Option CaptureIndex) (context : Context) :
    offer .empty .empty captures context = unbuilt (offer .empty (.ofEnvironment .empty) captures context) := by
  have unfiltered {pools : Pools} {items : List Item} (filters : unfiltered? pools context = some items) :
      offer .empty pools captures context = items := by
    apply offer_unknown rfl rfl filters
    cases context.enclosing? <;> rfl
  cases context with
  | none => rfl
  | capture typing => exact (unbuilt_captures captures typing).symm
  | unhandled =>
    have whole : everything (.ofEnvironment .empty) captures =
        (Pools.ofEnvironment .empty).builtins.items true ++
          ((Pools.ofEnvironment .empty).builtins.items false ++ captureNames captures Option.none) := rfl
    rw [offer, offer, whole, unbuilt, List.filter_append, List.filter_append]
    exact (unbuilt_captures captures Option.none).symm
  | node wrapped | child wrapped | fieldValue wrapped =>
    rw [unfiltered rfl, unfiltered rfl]
    cases wrapped <;> rfl
  | fieldName | negatedField | stringContent =>
    rw [unfiltered rfl, unfiltered rfl]
    rfl

end Snapshot

namespace Analyzer

/-- A request to change the grammar. A refused description is an error to one, and empties the other. -/
inductive Request where
  | tryLoad (description : String)
  | load (description : String)
  | install (env : Environment)

/-- The environment that a request puts in place, whatever there was before. -/
def Request.installed? : Request → Option Environment
  | tryLoad description => (declarations description).toOption.map .ofDeclarations
  | load description => some (.ofText description)
  | install env => some env

def handle (analyzer : Analyzer) : Request → Analyzer
  | .tryLoad description => (analyzer.tryLoad description).toOption.getD analyzer
  | .load description => analyzer.load description
  | .install env => analyzer.withEnvironment env

def run (analyzer : Analyzer) (requests : List Request) : Analyzer := requests.foldl handle analyzer

private theorem load_eq (analyzer : Analyzer) (description : String) :
    analyzer.load description = analyzer.withEnvironment (.ofText description) := by
  unfold load tryLoad Environment.ofText
  cases declarations description <;> rfl

private theorem handle_eq (analyzer : Analyzer) (request : Request) :
    analyzer.handle request = (request.installed?.map analyzer.withEnvironment).getD analyzer := by
  cases request with
  | tryLoad description =>
    simp only [handle, tryLoad, Request.installed?]
    cases declarations description <;> rfl
  | load description => exact load_eq analyzer description
  | install env => rfl

/-- The last environment put in place is the one that counts. -/
private theorem run_eq (analyzer : Analyzer) (requests : List Request) :
    analyzer.run requests =
      ((requests.filterMap Request.installed?).getLast?.map analyzer.withEnvironment).getD analyzer := by
  induction requests generalizing analyzer with
  | nil => rfl
  | cons request later ih =>
    have stepped : analyzer.run (request :: later) = (analyzer.handle request).run later := rfl
    rw [stepped, ih, handle_eq, List.filterMap_cons]
    cases request.installed? with
    | none => rfl
    | some env =>
      rw [List.getLast?_cons]
      cases (later.filterMap Request.installed?).getLast? <;> rfl

private theorem withEnvironment_consistent (analyzer : Analyzer) (env : Environment) :
    (analyzer.withEnvironment env).snapshot.Consistent := rfl

/-- After any requests the pools fit the environment exactly if one of the requests put an environment
in place. Until then every cursor of every document is offered what it is after a refused description,
but for the built-in names. -/
theorem run_consistent_iff (config : Config) (requests : List Request) :
    (((new config).run requests).snapshot.Consistent ↔ ∃ request ∈ requests, request.installed?.isSome = true) ∧
      ((∀ request ∈ requests, request.installed? = none) →
        ∀ (analyzer : Analyzer) (description : String) (refusal : Refusal),
          declarations description = .error refusal → ∀ (document : Document) (offset : Nat),
            ((new config).run requests).completions document offset =
              ((analyzer.load description).completions document offset).map id Snapshot.unbuilt) := by
  constructor
  · rw [run_eq]
    cases last : (requests.filterMap Request.installed?).getLast? with
    | none =>
      have idle := List.filterMap_eq_nil_iff.mp (List.getLast?_eq_none_iff.mp last)
      constructor
      · intro consistent
        exact absurd consistent Snapshot.initial_inconsistent
      · intro ⟨request, member, installs⟩
        rw [idle request member] at installs
        cases installs
    | some env =>
      obtain ⟨request, member, installs⟩ := List.mem_filterMap.mp (List.mem_of_getLast? last)
      constructor
      · intro _
        exact ⟨request, member, Option.isSome_of_eq_some installs⟩
      · intro _
        exact withEnvironment_consistent (new config) env
  · intro idle analyzer description refusal refused document offset
    have untouched : (new config).run requests = new config := by
      rw [run_eq, List.filterMap_eq_nil_iff.mpr idle]
      rfl
    have emptied : (analyzer.load description).snapshot = .ofEnvironment .empty := by
      rw [load_eq, Environment.ofText, refused]
      rfl
    rw [untouched, completions, completions, emptied]
    exact Prod.ext rfl (Snapshot.offer_unbuilt ..)

theorem refused_try_unbuilt :
    ((new .default).run [.tryLoad ""]).completions (.ofText 0 "(a )") 3 =
      (((new .default).load "").completions (.ofText 0 "(a )") 3).map id Snapshot.unbuilt := by
  have idle : ∀ request ∈ [Request.tryLoad ""], request.installed? = none := by
    intro request member
    cases List.mem_singleton.mp member
    rfl
  exact (run_consistent_iff .default [.tryLoad ""]).2 idle (new .default) "" _ rfl _ 3

/-- Two analyzers without a grammar: one that was asked for nothing, one that refused a description. -/
theorem refused_offers_more :
    ¬ (new .default).snapshot.Consistent ∧
      ((new .default).completions (.ofText 0 "") 0).2 = [] ∧
      (((new .default).load "").completions (.ofText 0 "") 0).2.map Item.label = ["_", "ERROR", "MISSING"] := by
  decide +kernel

section Atomic

/-- What a request is answered with. Only a try can be refused. -/
def answer (analyzer : Analyzer) : Request → Except Refusal Unit
  | .tryLoad description => (analyzer.tryLoad description).map fun _ => ()
  | .load _ | .install _ => .ok ()

def AllRefused (analyzer : Analyzer) (requests : List Request) : Prop :=
  ∀ front request later, requests = front ++ request :: later →
    ∃ refusal, (analyzer.run front).answer request = .error refusal

/-- The environment that a request asks for, if it is not refused. -/
inductive Installs : Request → Environment → Prop
  | accepted {description : String} {kinds : List Declaration} (read : declarations description = .ok kinds) :
    Installs (.tryLoad description) (.ofDeclarations kinds)
  | load (description : String) : Installs (.load description) (.ofText description)
  | install (env : Environment) : Installs (.install env) env

variable {analyzer : Analyzer} {requests front : List Request} {request : Request} {refusal : Refusal}

private theorem run_append (analyzer : Analyzer) (front later : List Request) :
    analyzer.run (front ++ later) = (analyzer.run front).run later := List.foldl_append

private theorem handle_refused (refused : analyzer.answer request = .error refusal) : analyzer.handle request = analyzer := by
  cases request with
  | tryLoad description =>
    simp only [answer] at refused
    cases read : analyzer.tryLoad description with
    | ok loaded => simp [read, Except.map] at refused
    | error other => simp [handle, read, Except.toOption]
  | load description => cases refused
  | install env => cases refused

private theorem handle_accepted (accepted : analyzer.answer request = .ok ()) :
    ∃ env, Installs request env ∧ analyzer.handle request = analyzer.withEnvironment env := by
  cases request with
  | tryLoad description =>
    cases read : declarations description with
    | ok kinds => exact ⟨_, .accepted read, by simp [handle, tryLoad, read, Except.toOption]⟩
    | error other => simp [answer, tryLoad, read, Except.map] at accepted
  | load description => exact ⟨_, .load description, load_eq analyzer description⟩
  | install env => exact ⟨env, .install env, rfl⟩

private theorem AllRefused.append (before : AllRefused analyzer front)
    (refused : (analyzer.run front).answer request = .error refusal) : AllRefused analyzer (front ++ [request]) := by
  intro earlier other later split
  rcases List.append_eq_append_iff.mp split with ⟨between, rfl, onward⟩ | ⟨between, rfl, onward⟩
  · cases between with
    | nil =>
      obtain ⟨rfl, _⟩ := List.cons.inj onward
      exact ⟨refusal, by rwa [List.append_nil]⟩
    | cons first rest => simp at onward
  · cases between with
    | nil =>
      obtain ⟨rfl, _⟩ := List.cons.inj onward
      exact ⟨refusal, by rwa [List.append_nil] at refused⟩
    | cons first between =>
      obtain ⟨rfl, _⟩ := List.cons.inj onward
      exact before earlier other between rfl

/-- Loading is atomic. A refused try leaves environment and pools as they were, so that they are what the
last request asked for that was not refused, and empty if there is none. A load always gives what the
description alone gives. -/
theorem run_atomic (config : Config) (requests : List Request) :
    (∀ front request later refusal, requests = front ++ request :: later →
      ((new config).run front).answer request = .error refusal →
        ((new config).run (front ++ [request])).snapshot = ((new config).run front).snapshot) ∧
    (AllRefused (new config) requests ∧ ((new config).run requests).snapshot = ⟨.empty, .empty⟩ ∨
      ∃ front request later env, requests = front ++ request :: later ∧
        ((new config).run front).answer request = .ok () ∧
        AllRefused ((new config).run (front ++ [request])) later ∧
        Installs request env ∧ ((new config).run requests).snapshot = .ofEnvironment env) ∧
    ∀ description, ((new config).run (requests ++ [.load description])).snapshot.env = .ofText description := by
  refine ⟨fun front request later refusal _ refused => ?_, ?_, fun description => ?_⟩
  · rw [run_append]
    exact congrArg Analyzer.snapshot (handle_refused refused)
  · induction requests using List.reverseRecOn with
    | nil => exact .inl ⟨fun front request later split => by simp at split, rfl⟩
    | append_singleton front request ih =>
      have stepped : (new config).run (front ++ [request]) = ((new config).run front).handle request := run_append ..
      cases told : ((new config).run front).answer request with
      | error refusal =>
        rw [stepped, handle_refused told]
        rcases ih with ⟨refused, same⟩ | ⟨earlier, last, later, env, rfl, accepted, refused, installs, same⟩
        · exact .inl ⟨refused.append told, same⟩
        · have onward : (((new config).run (earlier ++ [last])).run later).answer request = .error refusal := by
            rwa [← run_append, List.append_assoc]
          exact .inr ⟨earlier, last, later ++ [request], env, by simp, accepted, refused.append onward, installs, same⟩
      | ok =>
        obtain ⟨env, installs, handled⟩ := handle_accepted told
        refine .inr ⟨front, request, [], env, rfl, told, fun front request later split => ?_, installs, ?_⟩
        · simp at split
        · rw [stepped, handled]
          rfl
  · rw [run_append]
    exact congrArg (·.snapshot.env) (load_eq ((new config).run requests) description)

end Atomic

/-- A description that reads as a list of entries, one of which has no name. -/
theorem nameless_entry_atomic :
    let loaded := [Request.load "[\x7b\"type\":\"a\",\"named\":true\x7d]"]
    let nameless := Request.tryLoad "[\x7b\"type\":\"\",\"named\":true\x7d]"
    ((new .default).run loaded).snapshot.env.kindNames = ["a"] ∧
      ((new .default).run (loaded ++ [nameless])).snapshot = ((new .default).run loaded).snapshot := by
  refine ⟨by decide +kernel, ?_⟩
  refine (run_atomic .default _).1 _ _ [] (.malformed "" .emptyName) rfl ?_
  decide +kernel

end Analyzer

end TreeQuery
