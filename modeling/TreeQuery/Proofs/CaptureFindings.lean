import TreeQuery.Proofs.CaptureTokens
import TreeQuery.Proofs.ReportOrder
import TreeQuery.Proofs.SupertypeTraversal

/-! What is kept and reported of captures. The index lists the names that a scan of the tokens finds right after
signs, and every sign without a name is reported once, whatever else is. -/

namespace TreeQuery

section Index
open Syntax

private theorem Registry.names_alter {α : Type} (registry : Registry α) (name : String) (change : Option α → α) :
    (registry.alter name change).names = Grammar.addNew registry.names name := by
  obtain ⟨entries⟩ := registry
  simp only [Registry.names, Registry.alter]
  induction entries with
  | nil => rfl
  | cons entry rest ih =>
    obtain ⟨key, value⟩ := entry
    rw [Registry.alterEntries]
    split
    next same => simp [Grammar.addNew, same]
    next other =>
      have other : ¬ name = key := Ne.symm other
      rw [List.map_cons, ih, Grammar.addNew, Grammar.addNew]
      simp only [List.map_cons, List.contains_cons, beq_eq_false_iff_ne.mpr other, Bool.false_or]
      split <;> rfl

namespace Syntax.CaptureIndex

private theorem names_insert (index : CaptureIndex) (name : String) (place : Text.Span) :
    (index.insert name place).names = Grammar.addNew index.names name := Registry.names_alter _ _ _

private theorem occurrences_insert (index : CaptureIndex) (name key : String) (place : Text.Span) :
    (index.insert name place).occurrences key = index.occurrences key ++ if name = key then [place] else [] := by
  rw [occurrences, insert, Registry.get?_alter]
  by_cases same : key = name
  · subst same
    simp [occurrences]
  · simp [occurrences, same, Ne.symm same]

theorem names_ofTree (root : Tree) : (ofTree root).names = ((nameTokens root).map Placed.text).eraseDups := by
  rw [← Grammar.foldl_addNew, List.foldl_map, ofTree]
  generalize nameTokens root = tokens
  have further (index : CaptureIndex) : (tokens.foldl (fun index name => index.insert name.text name.span) index).names =
      tokens.foldl (fun names name => Grammar.addNew names name.text) index.names := by
    induction tokens generalizing index with
    | nil => rfl
    | cons token rest ih => rw [List.foldl_cons, List.foldl_cons, ih, names_insert]
  exact further _

theorem occurrences_ofTree (root : Tree) (name : String) :
    (ofTree root).occurrences name = ((nameTokens root).filter (·.text = name)).map Placed.span := by
  rw [ofTree]
  generalize nameTokens root = tokens
  have further (index : CaptureIndex) :
      (tokens.foldl (fun index name => index.insert name.text name.span) index).occurrences name =
        index.occurrences name ++ (tokens.filter (·.text = name)).map Placed.span := by
    induction tokens generalizing index with
    | nil => simp
    | cons token rest ih =>
      rw [List.foldl_cons, ih, occurrences_insert, List.append_assoc, List.filter_cons]
      by_cases same : token.text = name <;> simp [same]
  exact further _

variable {limit : Nat} {source : String}
  (shallow : ∀ report ∈ (parse limit source).reports, report.kind ≠ .nestingTooDeep)
include shallow

private theorem names_tokens : (ofTree (parse limit source).tree).names =
    ((signedNames (spanned 0 (Token.ofText source))).map (·.1.text)).eraseDups := by
  rw [names_ofTree, nameTokens_tokens shallow, List.map_map]
  exact congrArg List.eraseDups (List.map_congr_left fun _ member => (signedNames_placed member).1)

private theorem occurrences_tokens (name : String) : (ofTree (parse limit source).tree).occurrences name =
    ((signedNames (spanned 0 (Token.ofText source))).filter (·.1.text = name)).map (·.2) := by
  rw [occurrences_ofTree, nameTokens_tokens shallow, List.filter_map, List.map_map]
  have same : (signedNames (spanned 0 (Token.ofText source))).filter ((fun place => decide (place.text = name)) ∘ placedToken) =
      (signedNames (spanned 0 (Token.ofText source))).filter (·.1.text = name) :=
    List.filter_congr fun _ member => by rw [Function.comp_apply, (signedNames_placed member).1]
  rw [same]
  exact List.map_congr_left fun _ member => (signedNames_placed (List.mem_filter.mp member).1).2

end Syntax.CaptureIndex

end Index

namespace Lint
open Syntax Diagnostic

variable {settings : Settings} {finder : Regex.Finder} {limit : Nat} {source : String}

/-- Only captures are checked for a name. -/
private theorem checksOf_hanging (site : Site) :
    (checksOf site).filter (· = .hangingCapture) =
      if site.place.isNode .capture && site.place.identifier?.isNone then [.hangingCapture] else [] := by
  by_cases capture : site.place.kind = .node .capture
  · have whole : checksOf site = if site.place.identifier?.isNone then [.hangingCapture] else [] := by
      simp [checksOf, capture]
    rw [whole, Placed.isNode, decide_eq_true capture, Bool.true_and]
    split <;> rfl
  · rw [Placed.isNode, decide_eq_false capture, Bool.false_and, if_neg Bool.false_ne_true]
    refine List.filter_eq_nil_iff.mpr fun check asked hanging => capture ?_
    obtain rfl := of_decide_eq_true hanging
    exact concerns asked

private theorem runCheck_other {check : Check} (other : check ≠ .hangingCapture) :
    (runCheck settings (findings (parse limit source).tree) check finder).filter (·.kind = .hangingCapture) = [] := by
  refine List.filter_eq_nil_iff.mpr fun report member => ?_
  obtain ⟨finding, among, rfl, found⟩ := mem_runCheck member
  obtain ⟨above, _, concerned⟩ := mem_findings among
  have source := reports_source concerned found
  intro kind
  rw [of_decide_eq_true kind] at source
  generalize finding.check = check at other source
  cases check with
  | hangingCapture => exact other rfl
  | node | field | negatedField | emptyContainer | missingFieldValue | missingParameters | predicate | regexPredicate =>
    exact absurd source (by decide)

private theorem runCheck_hanging (settings : Settings) (finder : Regex.Finder) (root : Tree) :
    runCheck settings (findings root) .hangingCapture finder = (root.nodeSites.filterMap fun site =>
      if site.place.isNode .capture && site.place.identifier?.isNone then some site.place.span else none).map
        (Report.of .hangingCapture) := by
  have each (site : Site) : ((checksOf site).map (Finding.mk · site.place)).flatMap (fun finding =>
      if finding.check = .hangingCapture then [Report.of .hangingCapture finding.place.span] else []) =
      ((checksOf site).filter (· = .hangingCapture)).map fun _ => Report.of .hangingCapture site.place.span := by
    induction checksOf site with
    | nil => rfl
    | cons check rest ih =>
      rw [List.map_cons, List.flatMap_cons, ih]
      by_cases same : check = .hangingCapture <;> simp [same]
  change (findings root).flatMap (fun finding =>
    if finding.check = .hangingCapture then [Report.of .hangingCapture finding.place.span] else []) = _
  rw [findings, List.flatMap_assoc, List.map_filterMap, List.filterMap_eq_flatMap_toList]
  refine List.flatMap_congr fun site _ => ?_
  rw [each, checksOf_hanging]
  split <;> rfl

private theorem run_hanging (settings : Settings) (finder : Regex.Finder) (limit : Nat) (source : String) :
    (run settings (parse limit source).tree finder).filter (·.kind = .hangingCapture) =
      ((parse limit source).tree.nodeSites.filterMap fun site =>
        if site.place.isNode .capture && site.place.identifier?.isNone then some site.place.span else none).map
          (Report.of .hangingCapture) := by
  have own : (runCheck settings (findings (parse limit source).tree) .hangingCapture finder).filter
        (·.kind = .hangingCapture) = runCheck settings (findings (parse limit source).tree) .hangingCapture finder := by
    rw [runCheck_hanging]
    refine List.filter_eq_self.mpr fun report member => ?_
    obtain ⟨span, _, rfl⟩ := List.mem_map.mp member
    rfl
  rw [run, List.filter_flatMap, ← runCheck_hanging settings finder, ← own]
  simp [Check.all, runCheck_other]

end Lint

namespace Analyzer
open Syntax Diagnostic

variable {limit : Nat} {source : String}

private theorem signs_spans (tokens : List (Token × Text.Span)) : ((signs tokens).map (·.1)).Sublist (tokens.map (·.2)) := by
  induction tokens with
  | nil => exact List.Sublist.slnil
  | cons token rest ih =>
    rw [signs]
    split
    · exact ih.cons_cons _
    · exact ih.cons _

/-- Signs come in the order of the text. -/
private theorem hangingSigns_ordered (source : String) :
    (hangingSigns (spanned 0 (Token.ofText source))).Pairwise fun span other => span.start < other.start := by
  obtain ⟨wide, apart⟩ := (Token.ofText_tiles source).ordered
  have ordered := apart.imp_of_mem fun first _ before => Nat.lt_of_lt_of_le (wide _ first).2 before
  exact ordered.sublist ((List.filter_sublist.map _).trans (signs_spans _))

private theorem diagnostics_hanging (analyzer : Analyzer) (finder : Regex.Finder)
    (shallow : ∀ report ∈ (parse limit source).reports, report.kind ≠ .nestingTooDeep) :
    (analyzer.diagnostics (.ofText limit source) finder).filter (·.kind = .hangingCapture) =
      (hangingSigns (spanned 0 (Token.ofText source))).map (Report.of .hangingCapture) := by
  let run := Lint.run ⟨analyzer.snapshot.env, analyzer.config.suggestionDistance⟩ (parse limit source).tree finder
  let own := (hangingSigns (spanned 0 (Token.ofText source))).map (Report.of .hangingCapture)
  have found : run.filter (·.kind = .hangingCapture) = own := by
    rw [Lint.run_hanging, ← hangingSigns_tokens shallow]
  have checked (report : Report) (hanging : decide (report.kind = .hangingCapture) = true) : report.kind.source ≠ "syntax" := by
    rw [of_decide_eq_true hanging]
    decide
  have same := analyzer.diagnostics_checked finder limit source checked
  rw [found] at same
  have ordered : own.Pairwise fun report other => report.precedes other = true :=
    List.pairwise_map.mpr ((hangingSigns_ordered source).imp Report.precedes_of_start)
  have among : own.Sublist ((parse limit source).reports ++ run) :=
    (found ▸ List.filter_sublist).trans (List.sublist_append_right _ _)
  -- Sorting moves no two of these past each other, and takes none away.
  have sorted : own.Sublist (analyzer.diagnostics (.ofText limit source) finder) :=
    List.sublist_mergeSort Report.precedes_trans Report.precedes_total ordered among
  have idle : own.filter (·.kind = .hangingCapture) = own := by simp only [← found, List.filter_filter, Bool.and_self]
  have within := sorted.filter (·.kind = .hangingCapture)
  rw [idle] at within
  exact (within.eq_of_length same.length_eq.symm).symm

/-- Captures are kept and reported as the tokens have them: the names right after signs, in their order, and one
report for every sign without a name. -/
theorem captures_of_tokens (analyzer : Analyzer) (finder : Regex.Finder) (limit : Nat) (source : String)
    (shallow : ∀ report ∈ (parse limit source).reports, report.kind ≠ .nestingTooDeep) :
    (Document.ofText limit source).captures.names =
        ((signedNames (spanned 0 (Token.ofText source))).map (·.1.text)).eraseDups ∧
      (∀ name,
        (Document.ofText limit source).captures.occurrences name =
          ((signedNames (spanned 0 (Token.ofText source))).filter (·.1.text = name)).map (·.2) ∧
        (Document.ofText limit source).captures.count name =
          (signedNames (spanned 0 (Token.ofText source))).countP (·.1.text = name)) ∧
      (analyzer.diagnostics (.ofText limit source) finder).filter (·.kind = .hangingCapture) =
        (hangingSigns (spanned 0 (Token.ofText source))).map (Report.of .hangingCapture) := by
  refine ⟨CaptureIndex.names_tokens shallow, fun name => ?_, diagnostics_hanging analyzer finder shallow⟩
  have occurrences := CaptureIndex.occurrences_tokens shallow name
  refine ⟨occurrences, ?_⟩
  change ((CaptureIndex.ofTree (parse limit source).tree).occurrences name).length = _
  rw [occurrences, List.length_map, List.countP_eq_length_filter]

theorem blank_hangs : (∀ report ∈ (parse 4 "(a) @b @ c").reports, report.kind ≠ .nestingTooDeep) ∧
    (Document.ofText 4 "(a) @b @ c").captures.names = ["b"] ∧
    (Document.ofText 4 "(a) @b @ c").captures.occurrences "b" = [⟨5, 6⟩] ∧
    ((new .default).diagnostics (.ofText 4 "(a) @b @ c")).filter (·.kind = .hangingCapture) =
      [.of .hangingCapture ⟨7, 8⟩] := by
  have shallow : ∀ report ∈ (parse 4 "(a) @b @ c").reports, report.kind ≠ .nestingTooDeep := by decide +kernel
  obtain ⟨names, each, hanging⟩ := captures_of_tokens (new .default) Regex.fault? 4 "(a) @b @ c" shallow
  exact ⟨shallow, names.trans (by decide +kernel), (each "b").1.trans (by decide +kernel), hanging.trans (by decide +kernel)⟩

end Analyzer

end TreeQuery
