import TreeQuery.Analyzer
import TreeQuery.Proofs.CaptureFindings
import TreeQuery.Proofs.FieldOwners
import TreeQuery.Proofs.UnhandledContexts

/-! Capture names that are offered. Where a name is being typed, it is the name of a capture of the document, so that
the index has counted it: it is left out of what is offered exactly if it stands nowhere else. -/

namespace TreeQuery

namespace Syntax

variable {limit : Nat} {source : String} {token holder : Placed} {above : List Placed} {site : Site}

/-- The names of all captures, each as often as it is written. -/
def writtenNames (root : Tree) : List String := (CaptureIndex.nameTokens root).map Placed.text

/-- An identifier in a capture is its name. -/
private theorem capture_identifier (lineage : Lineage ⟨0, (parse limit source).tree⟩ (token :: holder :: above))
    (made : holder.kind = .node .capture) (word : token.kind = .token .identifier) : holder.identifier? = some token := by
  obtain ⟨children, shape⟩ := Placed.of_kind made
  obtain ⟨_, _, wellmade⟩ := parse_wellmade lineage.tail.mem_sites shape
  have inside := lineage.inside
  obtain ⟨start, tree⟩ := holder
  obtain rfl : tree = .node .capture children := shape
  rcases wellmade.capture with ⟨sign, rfl, sigil⟩ | ⟨sign, name, rfl, sigil, identifier⟩
  · obtain rfl : token = ⟨start, .leaf sign⟩ := List.mem_singleton.mp inside
    simp [Placed.kind, Tree.kind, sigil] at word
  · rcases List.mem_cons.mp inside with rfl | second
    · simp [Placed.kind, Tree.kind, sigil] at word
    · obtain rfl : token = ⟨start + (Tree.leaf sign).length, .leaf name⟩ := List.mem_singleton.mp second
      simp [Placed.identifier?, Placed.firstToken?, Placed.children, Tree.children, Placed.line, Placed.kind, Tree.kind,
        sigil, identifier]

private theorem mem_nameTokens (member : site ∈ (parse limit source).tree.nodeSites) (made : site.place.kind = .node .capture)
    (named : site.place.identifier? = some token) : token ∈ CaptureIndex.nameTokens (parse limit source).tree :=
  List.mem_filterMap.mpr ⟨site, member, by simp [Placed.isNode, made, named]⟩

namespace CaptureIndex

private theorem count_ofTree (root : Tree) (name : String) : (ofTree root).count name = (writtenNames root).count name := by
  rw [count, occurrences_ofTree, List.length_map, ← List.countP_eq_length_filter, writtenNames, List.count_eq_countP,
    List.countP_map]
  exact List.countP_congr fun token _ => by simp

end CaptureIndex

end Syntax

namespace Completion
open Syntax

variable {limit offset : Nat} {source : String} {enclosing terminal parent : Placed} {above : List Placed}
  {typing : Option String} {name : String}

/-- Of the rules for a pair the one for a name in a capture offers capture names. -/
private theorem contextIn_capture (offered : contextIn enclosing above terminal parent = .capture typing) :
    enclosing.kind = .node .capture ∧ typing = some terminal.text := by
  unfold contextIn at offered
  split at offered
  all_goals first
    | exact ⟨‹_›, (Context.capture.inj offered).symm⟩
    | grind [fieldValueIn, kindNameIn, identifierIn]

/-- The name that a cursor is said to be in is a name of a capture. -/
private theorem capture_typing (offered : classify (parse limit source).tree offset = .capture (some name)) :
    ∃ token ∈ CaptureIndex.nameTokens (parse limit source).tree, token.text = name := by
  unfold classify at offered
  split at offered
  next => cases offered
  next =>
    split at offered
    next => cases offered
    next =>
      split at offered
      next chain located =>
        have context := contextOf_told chain
        rw [offered] at context
        generalize same : Context.capture (some name) = found at context
        cases context with
        | silent | sign | apart => cases same
        | @pair enclosing terminal above around dispatched =>
          obtain ⟨held, typed⟩ := contextIn_capture same.symm
          have word := capture_terminal located dispatched held
          obtain ⟨place, rest, rfl⟩ := List.exists_cons_of_ne_nil (List.ne_nil_of_mem dispatched.terminal_mem)
          obtain rfl := token_first located dispatched.terminal_mem word
          have lineage := chain_lineage located
          have inside : enclosing ∈ rest := by
            rcases List.mem_cons.mp dispatched.enclosing_mem with rfl | above
            · rw [word] at held
              cases held
            · exact above
          obtain ⟨_, around, rfl⟩ := flat_nearest lineage inside held (by decide)
          have named := capture_identifier lineage held word
          have holder : ⟨enclosing, around⟩ ∈ (parse limit source).tree.nodeSites :=
            Tree.mem_nodeSites.mpr ⟨lineage.tail, _, held⟩
          exact ⟨_, mem_nameTokens holder held named, (Option.some.inj typed).symm⟩
      next => cases offered

/-- The names offered are those written, each once, but for the one being typed if it is written once. -/
private theorem captureNames_written (root : Syntax.Tree) (typing : Option String) :
    captureNames (some (.ofTree root)) typing =
      ((writtenNames root).eraseDups.filter fun name => some name ≠ typing || 1 < (writtenNames root).count name).map
        (.plain .capture) := by
  simp only [captureNames, CaptureIndex.names_ofTree, CaptureIndex.count_ofTree, writtenNames]
  congr

/-- To leave out a name unless it is repeated is to erase it if it stands once. -/
private theorem filter_unrepeated {names : List String} (member : name ∈ names) :
    (names.eraseDups.filter fun other => some other ≠ some name || 1 < names.count other) =
      if names.count name = 1 then names.eraseDups.erase name else names.eraseDups := by
  have positive := List.count_pos_iff.mpr member
  split
  next once =>
    rw [(Grammar.nodup_eraseDups names).erase_eq_filter]
    refine List.filter_congr fun other _ => ?_
    by_cases same : other = name
    · simp [same, once]
    · simp [same]
  next repeated =>
    refine List.filter_eq_self.mpr fun other _ => ?_
    by_cases same : other = name
    · subst same
      simp
      omega
    · simp [same]

private theorem captureNames_typing {root : Syntax.Tree} (member : name ∈ writtenNames root) :
    captureNames (some (.ofTree root)) (some name) =
      (if (writtenNames root).count name = 1 then (writtenNames root).eraseDups.erase name
        else (writtenNames root).eraseDups).map (.plain .capture) := by
  rw [captureNames_written, filter_unrepeated member]

private theorem captureNames_bare (root : Syntax.Tree) :
    captureNames (some (.ofTree root)) none = (writtenNames root).eraseDups.map (.plain .capture) := by
  rw [captureNames_written]
  simp

end Completion

namespace Analyzer
open Completion

/-- Where a capture is being typed the names of the document's captures are offered, each once and in the order in
which they appear first. One that is being typed is a name of the document, and is left out if it stands once. -/
theorem captures_offered (analyzer : Analyzer) (limit : Nat) (source : String) (offset : Nat) :
    let document := Document.ofText limit source
    let written := Syntax.writtenNames document.tree
    document.captures.names = written.eraseDups ∧
      (∀ name, classify document.tree offset = .capture (some name) → name ∈ document.captures.names ∧
        (analyzer.completions document offset).2 =
          (if written.count name = 1 then written.eraseDups.erase name else written.eraseDups).map (.plain .capture)) ∧
      (classify document.tree offset = .capture none →
        (analyzer.completions document offset).2 = written.eraseDups.map (.plain .capture)) := by
  intro document written
  have names : document.captures.names = written.eraseDups := Syntax.CaptureIndex.names_ofTree _
  refine ⟨names, fun name typed => ?_, fun bare => ?_⟩
  · obtain ⟨token, counted, rfl⟩ := capture_typing typed
    have member : token.text ∈ written := List.mem_map_of_mem counted
    refine ⟨names ▸ List.mem_eraseDups.mpr member, ?_⟩
    change offer _ _ _ (classify document.tree offset) = _
    rw [typed]
    exact captureNames_typing member
  · change offer _ _ _ (classify document.tree offset) = _
    rw [bare]
    exact captureNames_bare _

/-- In `(a) @b (#eq? @c @b) @` the name `c` is not offered to itself, `b` is, and both are at the bare sign. -/
theorem names_offered :
    let document := Document.ofText 8 "(a) @b (#eq? @c @b) @"
    (Analyzer.new .default).completions document 15 = (.capture (some "c"), [.plain .capture "b"]) ∧
      (Analyzer.new .default).completions document 6 =
        (.capture (some "b"), [.plain .capture "b", .plain .capture "c"]) ∧
      (Analyzer.new .default).completions document 21 =
        (.capture none, [.plain .capture "b", .plain .capture "c"]) := by
  intro document
  have written : Syntax.writtenNames document.tree = ["b", "c", "b"] := by decide +kernel
  have unique : classify document.tree 15 = .capture (some "c") := by decide +kernel
  have repeated : classify document.tree 6 = .capture (some "b") := by decide +kernel
  have bare : classify document.tree 21 = .capture none := by decide +kernel
  have offered (offset : Nat) := captures_offered (Analyzer.new .default) 8 "(a) @b (#eq? @c @b) @" offset
  refine ⟨Prod.ext unique ?_, Prod.ext repeated ?_, Prod.ext bare ?_⟩
  · rw [((offered 15).2.1 "c" unique).2, written]
    decide
  · rw [((offered 6).2.1 "b" repeated).2, written]
    decide
  · rw [(offered 21).2.2 bare, written]
    decide

end Analyzer

end TreeQuery
