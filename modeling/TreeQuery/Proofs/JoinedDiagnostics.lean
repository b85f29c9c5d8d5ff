import TreeQuery.Analyzer
import TreeQuery.Proofs.QueryConcatenation
import TreeQuery.Proofs.RegexFaults
import TreeQuery.Proofs.ReportOrder
import TreeQuery.Proofs.ReportPlaces

/-! The reports on two queries with a line break between them: those on the first, and then those on the second,
further on by the first and the line break. -/

namespace TreeQuery
open Syntax Diagnostic

variable {limit : Nat} {source other : String}

namespace Lint

/-- The reports of the checks on two queries that are read as one after the other. -/
private theorem run_joined (settings : Settings) {finder : Regex.Finder} (bounded : finder.Bounded)
    (tree : (parse limit (source ++ "\n" ++ other)).tree = .node .program
      ((parse limit source).tree.children ++ .leaf Token.lineBreak :: (parse limit other).tree.children)) :
    Report.sort (run settings (parse limit (source ++ "\n" ++ other)).tree finder) =
      Report.sort (run settings (parse limit source).tree finder) ++
        (Report.sort (run settings (parse limit other).tree finder)).map (Report.shift (source.utf8ByteSize + 1)) := by
  let distance := source.utf8ByteSize + 1
  let first := (runCheck settings (findings (parse limit source).tree) · finder)
  let second := (runCheck settings (findings (parse limit other).tree) · finder)
  have whole : run settings (parse limit (source ++ "\n" ++ other)).tree finder =
      Check.all.flatMap fun check => first check ++ (second check).map (Report.shift distance) := by
    obtain ⟨children, root⟩ := Completion.parse_program limit source
    obtain ⟨others, root'⟩ := Completion.parse_program limit other
    have far : distance = Tree.lengthOf children + Token.lineBreak.length := by
      have length := parse_length limit source
      rw [root] at length
      exact congrArg (· + 1) length.symm
    unfold run
    congr 1
    funext check
    rw [tree, root, root']
    dsimp only [Tree.children]
    rw [findings_joined children others Token.lineBreak far, runCheck_joined]
    simp only [first, second, root, root']
  have parted : Report.sort (Check.all.flatMap fun check => first check ++ (second check).map (Report.shift distance)) =
      Report.sort (Check.all.flatMap first) ++
        Report.sort (Check.all.flatMap fun check => (second check).map (Report.shift distance)) := by
    refine Report.sort_parted distance Check.all (fun check report member => Nat.lt_succ_of_le (runCheck_start bounded member)) ?_
    intro check report member
    obtain ⟨report, _, rfl⟩ := List.mem_map.mp member
    exact Nat.le_add_left _ _
  rw [whole, parted, ← List.map_flatMap, Report.sort_shift]
  rfl

end Lint

/-- Two queries, each read without reports of the parser, are read one after the other as what they are alone, and all
checks report on each of them what they report on it alone, if the faults of patterns are told in the patterns. -/
theorem Analyzer.diagnostics_joined (analyzer : Analyzer) (finder : Regex.Finder) (bounded : finder.Bounded)
    (quiet : (parse limit source).reports = [])
    (quiet_other : (parse limit other).reports = []) (closed : (parse limit source).tree.endsBare = false)
    (free : (solidKinds (Token.ofText other)).head? ≠ some .atSign) :
    (parse limit (source ++ "\n" ++ other)).reports = [] ∧
      (parse limit (source ++ "\n" ++ other)).tree = .node .program
        ((parse limit source).tree.children ++ .leaf Token.lineBreak :: (parse limit other).tree.children) ∧
      analyzer.diagnostics (.ofText limit (source ++ "\n" ++ other)) finder =
        analyzer.diagnostics (.ofText limit source) finder ++
          (analyzer.diagnostics (.ofText limit other) finder).map (Report.shift (source.utf8ByteSize + 1)) := by
  obtain ⟨silent, tree⟩ := parse_joined quiet quiet_other closed free
  have checked (text : String) (quiet : (parse limit text).reports = []) : analyzer.diagnostics (.ofText limit text) finder =
      Report.sort (Lint.run ⟨analyzer.snapshot.env, analyzer.config.suggestionDistance⟩ (parse limit text).tree finder) := by
    unfold diagnostics Document.ofText
    dsimp only [Document.tree]
    rw [quiet, List.nil_append]
  refine ⟨silent, tree, ?_⟩
  rw [checked _ silent, checked _ quiet, checked _ quiet_other]
  exact Lint.run_joined _ bounded tree

/-- An empty grouping and an empty list, each on its line. -/
theorem empty_containers_joined :
    (parse 512 ("()" ++ "\n" ++ "[]")).reports = [] ∧
      (parse 512 ("()" ++ "\n" ++ "[]")).tree = .node .program
        ((parse 512 "()").tree.children ++ .leaf Token.lineBreak :: (parse 512 "[]").tree.children) ∧
      (Analyzer.new .default).diagnostics (.ofText 512 ("()" ++ "\n" ++ "[]")) =
        [.of .emptyGrouping ⟨0, 2⟩] ++ [.of .emptyList ⟨3, 5⟩] := by
  obtain ⟨silent, tree, reports⟩ := @Analyzer.diagnostics_joined 512 "()" "[]" (.new .default) Regex.fault?
    Regex.fault?_bounded (by decide +kernel) (by decide +kernel) (by decide +kernel) (by decide +kernel)
  have first : (Analyzer.new .default).diagnostics (.ofText 512 "()") = [.of .emptyGrouping ⟨0, 2⟩] := by decide +kernel
  have second : (Analyzer.new .default).diagnostics (.ofText 512 "[]") = [.of .emptyList ⟨0, 2⟩] := by decide +kernel
  refine ⟨silent, tree, ?_⟩
  rw [reports, first, second]
  decide +kernel

end TreeQuery
