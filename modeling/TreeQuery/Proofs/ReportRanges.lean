import TreeQuery.Analyzer
import TreeQuery.Proofs.LinePositions
import TreeQuery.Proofs.RegexFaults
import TreeQuery.Proofs.ReportPlaces
import TreeQuery.Proofs.ReportSpots

/-! What diagnostics mark of a text. The parser and the checks mark tokens, and between tokens is between characters. A
fault of a regular expression is marked by the characters of its pattern, which stand in the text as they do in the
pattern, or else by the whole string. Only what is missing at the end of a text has nothing to be marked by. -/

namespace TreeQuery

namespace Text.Span

variable {span : Span} {text part : String}

private theorem Fits.of_valid (ordered : span.start ≤ span.stop) (start : (String.Pos.Raw.mk span.start).IsValid text)
    (stop : (String.Pos.Raw.mk span.stop).IsValid text) : span.Fits text :=
  ⟨ordered, stop.le_utf8ByteSize, start, stop⟩

/-- What stands in a text at a span. -/
def Reads (span : Span) (text part : String) : Prop :=
  ∃ front back, text = front ++ part ++ back ∧ span.start = front.utf8ByteSize ∧ span.stop = span.start + part.utf8ByteSize

theorem Fits.reads (fits : span.Fits text) : ∃ part, span.Reads text part := by
  obtain ⟨front, rest, whole, starts⟩ := LineIndex.isValid_iff.mp fits.start
  obtain ⟨before, back, split, stops⟩ := LineIndex.isValid_iff.mp fits.stop
  have ordered := fits.ordered
  rw [starts, stops] at ordered
  obtain ⟨middle, rfl⟩ : ∃ middle, before = front ++ middle := by
    rcases List.append_eq_append_iff.mp (whole.symm.trans split) with ⟨middle, same, _⟩ | ⟨middle, rfl, _⟩
    · exact ⟨middle, same⟩
    · cases middle with
      | nil => exact ⟨[], by simp⟩
      | cons c middle =>
        have wide := c.utf8Size_pos
        rw [utf8Length_append, utf8Length_cons] at ordered
        omega
  have size (chars : List Char) : (String.ofList chars).utf8ByteSize = utf8Length chars := by
    rw [← utf8Length_toList, String.toList_ofList]
  refine ⟨String.ofList middle, String.ofList front, String.ofList back, ?_, starts.trans (size front).symm, ?_⟩
  · rw [← String.ofList_append, ← String.ofList_append, ← split, String.ofList_toList]
  · rw [starts, stops, size, utf8Length_append]

theorem Reads.fits (reads : span.Reads text part) : span.Fits text := by
  obtain ⟨front, back, rfl, starts, stops⟩ := reads
  refine .of_valid (stops ▸ Nat.le_add_right ..) ?_ ?_
  · exact String.Pos.Raw.isValid_iff_exists_append.mpr
      ⟨front, part ++ back, String.append_assoc .., congrArg String.Pos.Raw.mk starts⟩
  · refine String.Pos.Raw.isValid_iff_exists_append.mpr ⟨front ++ part, back, rfl, congrArg String.Pos.Raw.mk ?_⟩
    rw [stops, starts, String.utf8ByteSize_append]

/-- What stands in a part of a text stands in the text, further on by what is before the part. -/
private theorem Reads.inside {before after : String} (reads : span.Reads text part) :
    (Span.mk (before.utf8ByteSize + span.start) (before.utf8ByteSize + span.stop)).Reads (before ++ text ++ after) part := by
  obtain ⟨front, back, rfl, starts, stops⟩ := reads
  refine ⟨before ++ front, back ++ after, ?_, ?_, ?_⟩
  · simp only [String.append_assoc]
  · rw [starts, String.utf8ByteSize_append]
  · rw [stops, Nat.add_assoc]

end Text.Span

/-- A report that can be shown in a text. Its mark is empty only where something is missing at the end, or in a regular
expression. -/
structure Diagnostic.Report.Fits (report : Report) (text : String) : Prop where
  span : report.span.Fits text
  related : ∀ place ∈ report.related, place.span.Fits text
  empty : report.span.start = report.span.stop →
    report.kind.isGap = true ∧ report.span.start = text.utf8ByteSize ∨ report.kind = .invalidRegex

namespace Syntax

variable {limit offset : Nat} {text : String} {span : Text.Span} {place : Placed} {above : List Placed}

private theorem Cut.isValid (cut : Cut (Token.ofText text) offset) : (String.Pos.Raw.mk offset).IsValid text := by
  obtain ⟨before, after, whole, rfl⟩ := cut
  refine String.Pos.Raw.isValid_iff_exists_append.mpr
    ⟨String.join (before.map Token.text), String.join (after.map Token.text), ?_, ?_⟩
  · rw [← String.join_append, ← List.map_append, ← whole, Token.ofText_joins]
  · rw [← Token.length_join]
    rfl

private theorem Covers.fits (covers : Covers (Token.ofText text) span) : span.Fits text :=
  .of_valid (Nat.le_of_lt covers.wide) covers.start.isValid covers.stop.isValid

/-- A place in a text reads as what stands there. -/
private theorem Lineage.around (lineage : Lineage ⟨0, (parse limit text).tree⟩ (place :: above)) :
    ∃ before after, text = before ++ place.text ++ after ∧ place.start = before.utf8ByteSize := by
  obtain ⟨before, after, leaves, begins⟩ := lineage.leaves
  refine ⟨String.join (before.map Token.text), String.join (after.map Token.text), ?_, ?_⟩
  · rw [Placed.text, Tree.text, String.append_assoc, ← String.join_append, ← List.map_append, ← String.join_append,
      ← List.map_append, ← leaves, parse_leaves, Token.ofText_joins]
  · rw [begins, Nat.zero_add, Token.length_join]

/-- What a word of a text reads somewhere the text reads there. -/
theorem Lineage.reads {part : String} (lineage : Lineage ⟨0, (parse limit text).tree⟩ (place :: above))
    (reads : span.Reads place.text part) :
    (Text.Span.mk (place.start + span.start) (place.start + span.stop)).Reads text part := by
  obtain ⟨before, after, whole, begins⟩ := lineage.around
  have inside := @Text.Span.Reads.inside span place.text part before after reads
  rwa [← whole, ← begins] at inside

end Syntax

private theorem Diagnostic.Report.Spans.fits {report : Report} {text : String} (spans : report.Spans (Syntax.Token.ofText text)) :
    report.Fits text :=
  ⟨spans.covered.fits, fun place member => (spans.related place member).fits,
    fun empty => absurd empty (Nat.ne_of_lt spans.covered.wide)⟩

/-- The parser's reports are at tokens, but for gaps behind the last. -/
private theorem Syntax.parse_reports_fit {limit : Nat} {text : String} {report : Diagnostic.Report}
    (member : report ∈ (parse limit text).reports) : report.Fits text := by
  obtain ⟨_, pinned⟩ := parse_pinned limit text
  obtain ⟨alone, covered | ⟨gap, behind⟩⟩ := pinned.ranged report member
  · exact Diagnostic.Report.Spans.fits ⟨covered, by simp [alone]⟩
  · have valid : Cut (Token.ofText text) (Text.total Token.length (Token.ofText text)) := ⟨_, [], (List.append_nil _).symm, rfl⟩
    have size : Text.total Token.length (Token.ofText text) = text.utf8ByteSize := by
      rw [← Token.length_join, Token.ofText_joins]
    refine ⟨?_, by simp [alone], fun _ => .inl ⟨gap, by rw [behind, size]⟩⟩
    rw [behind]
    exact .of_valid (Nat.le_refl _) valid.isValid valid.isValid

namespace Lint
open Syntax Diagnostic

variable {settings : Settings} {limit : Nat} {text : String} {place string : Placed} {above : List Placed} {report : Report}
  {check : Check} {finder : Regex.Finder}

/-- Where the pattern is written without escapes, its characters are those between the quotes. -/
private theorem spanInString_fits {span : Text.Span} (lineage : Lineage ⟨0, (parse limit text).tree⟩ (string :: above))
    (made : string.kind = .node .string) (fits : span.Fits string.stringValue) :
    (spanInString string string.stringValue span).Fits text := by
  rcases spanInString_cases string string.stringValue span with whole | ⟨content, found, same, _, inside⟩
  · have covered := lineage.covers_opened made rfl
    rw [parse_leaves] at covered
    rw [whole]
    exact covered.fits
  · obtain ⟨part, reads⟩ := fits.reads
    rw [← same] at reads
    rw [inside]
    exact (Lineage.reads (.child lineage (Completion.firstToken?_child found).1) reads).fits

private theorem reports_fit (bounded : finder.Bounded) (lineage : Lineage ⟨0, (parse limit text).tree⟩ (place :: above))
    (concerned : check.Concerns place above) (member : report ∈ check.reports settings finder place) : report.Fits text := by
  by_cases plain : check = .regexPredicate
  · subst plain
    obtain ⟨string, parameters, fault, within, made, outcome, rfl⟩ := mem_checkRegex lineage member
    exact ⟨spanInString_fits within made (bounded outcome), nofun, fun _ => .inr rfl⟩
  · have spans := (reports_judged lineage concerned plain member).spans
    rw [parse_leaves] at spans
    exact spans.fits

end Lint

/-- Every diagnostic can be shown in the text that it is of, whatever the grammar, the settings and the text are, if the
faults of patterns are told in the patterns. -/
theorem Analyzer.diagnostics_fit (analyzer : Analyzer) (finder : Regex.Finder) (bounded : finder.Bounded) (limit : Nat)
    (text : String) : ∀ report ∈ analyzer.diagnostics (.ofText limit text) finder, report.Fits text := by
  intro report member
  rcases List.mem_append.mp (List.mem_mergeSort.mp member) with parsed | found
  · exact Syntax.parse_reports_fit parsed
  · obtain ⟨check, _, found⟩ := List.mem_flatMap.mp found
    obtain ⟨finding, among, rfl, found⟩ := Lint.mem_runCheck found
    obtain ⟨above, lineage, concerned⟩ := Lint.mem_findings among
    exact Lint.reports_fit bounded lineage concerned found

open Diagnostic in
/-- The name of a field, missing at the end of a text. -/
theorem missing_name_fits :
    Report.of .expectedFieldName ⟨5, 5⟩ ∈ (Analyzer.new .default).diagnostics (.ofText 512 "(é !") ∧
      (Report.of .expectedFieldName ⟨5, 5⟩).Fits "(é !" := by
  have parsed : Report.of .expectedFieldName ⟨5, 5⟩ ∈ (Syntax.parse 512 "(é !").reports := by decide +kernel
  have listed : Report.of .expectedFieldName ⟨5, 5⟩ ∈ (Analyzer.new .default).diagnostics (.ofText 512 "(é !") :=
    List.mem_mergeSort.mpr (List.mem_append_left _ parsed)
  exact ⟨listed, Analyzer.diagnostics_fit _ _ Regex.fault?_bounded _ _ _ listed⟩

end TreeQuery
