import TreeQuery.CommandLine.Run
import TreeQuery.Proofs.LinePositions

/-! The two ways to tell a command where the cursor is: a byte offset, or a line and a column, both counted
from one. They come to the same, and a line is refused only if the query does not have it. -/

namespace TreeQuery

namespace Text

private theorem split_length (start : Nat) (read rest : List Char) :
    (Line.split start read rest).length = rest.count '\n' + 1 := by
  induction rest generalizing start read with
  | nil => rfl
  | cons c rest ih =>
    rw [Line.split]
    by_cases feed : c = '\n'
    · rw [if_pos feed, List.length_cons, ih, feed, List.count_cons_self]
    · rw [if_neg feed, ih, List.count_cons_of_ne feed]

private theorem LineIndex.lineCount_ofText (text : String) : (LineIndex.ofText text).lineCount = text.toList.count '\n' + 1 :=
  split_length 0 [] text.toList

private theorem LineIndex.offset?_none_iff (text : String) (place : Position) :
    (LineIndex.ofText text).offset? place = none ↔ text.toList.count '\n' < place.line := by
  have count := lineCount_ofText text
  rw [lineCount] at count
  rw [LineIndex.offset?, Option.map_eq_none_iff, List.getElem?_eq_none_iff, count, Nat.succ_le_iff]

end Text

namespace CommandLine
open Text

variable {load : Loader Id} {source : QuerySource} {path : String} {query : Query} {analyzer : Analyzer}

/-- What a completion writes for a cursor at an offset. -/
def answer (analyzer : Analyzer) (query : Query) (isCompact : Bool) (offset : Nat) : Outcome :=
  let (context, items) := analyzer.completions (analyzer.document query.text) offset
  .written ((completionsValue context items).write isCompact)

section
variable (given : loadQuery load source = pure query) (accepted : loadAnalyzer load path = pure analyzer)
include given accepted

private theorem runComplete_eq (cursor : Cursor) (isCompact : Bool) : runComplete load source path cursor isCompact =
    match cursorOffset (analyzer.document query.text) cursor with
    | .ok offset => pure (answer analyzer query isCompact offset)
    | .error failure => throw failure := by
  rw [runComplete, given, accepted, pure_bind, pure_bind]
  dsimp only
  cases cursorOffset (analyzer.document query.text) cursor <;> rfl

private theorem cursorOutside_iff (line column : Nat) (isCompact : Bool) :
    runComplete load source path (.place line column) isCompact = throw (.cursorOutside line column) ↔
      query.text.toList.count '\n' + 1 < line := by
  have missing : (analyzer.document query.text).offset? ⟨line - 1, column - 1⟩ = none ↔ _ :=
    LineIndex.offset?_none_iff query.text ⟨line - 1, column - 1⟩
  have beyond : query.text.toList.count '\n' < line - 1 ↔ query.text.toList.count '\n' + 1 < line := by omega
  rw [runComplete_eq given accepted, ← beyond, ← missing, cursorOffset]
  cases (analyzer.document query.text).offset? ⟨line - 1, column - 1⟩ with
  | none => exact ⟨fun _ => rfl, fun _ => rfl⟩
  | some offset => exact ⟨nofun, nofun⟩

/-- At a boundary between characters, but not inside a line break, the offset and the position counted from
one are the same cursor. -/
theorem cursor_forms_agree (isCompact : Bool) {before after : String} (whole : query.text = before ++ after)
    (kept : ¬ BreakSplit before.toList after.toList) :
    let document := analyzer.document query.text
    let place := document.position before.utf8ByteSize
    let outcome := answer analyzer query isCompact before.utf8ByteSize
    runComplete load source path (.offset before.utf8ByteSize) isCompact = pure outcome ∧
    runComplete load source path (.place (place.line + 1) (place.column + 1)) isCompact = pure outcome ∧
    analyzer.completionsAt document place = analyzer.completions document before.utf8ByteSize ∧
    ∀ line column, runComplete load source path (.place line column) isCompact = throw (.cursorOutside line column) ↔
      query.text.toList.count '\n' + 1 < line := by
  intro document place outcome
  have returns : document.offset? place = some before.utf8ByteSize :=
    ((LineIndex.position_inverts query.text).2.2.1 before after whole).2 kept
  refine ⟨runComplete_eq given accepted _ _, ?_, ?_, fun line column => cursorOutside_iff given accepted line column _⟩
  · have reached : cursorOffset document (.place (place.line + 1) (place.column + 1)) = .ok before.utf8ByteSize := by
      rw [cursorOffset, Nat.add_sub_cancel, Nat.add_sub_cancel, returns]
    rw [runComplete_eq given accepted, reached]
  · rw [Analyzer.completionsAt, returns]

end

/-- One file, which holds a grammar of one literal. -/
def oneLiteral : Loader Id
  | .file "grammar.json" => .ok "[\x7b\"type\": \"+\", \"named\": false\x7d]"
  | _ => .error .notFound

theorem mixed_widths_agree :
    let query : Query := ⟨"<query>", "é\r\n𝕏b"⟩
    let analyzer := (Analyzer.new .default).withEnvironment (.ofDeclarations [.literal "+" ⟨false, false⟩])
    loadQuery oneLiteral (.text query.text) = pure query ∧ loadAnalyzer oneLiteral "grammar.json" = pure analyzer ∧
      query.text = "é\r\n𝕏" ++ "b" ∧ ¬ BreakSplit "é\r\n𝕏".toList "b".toList ∧
      runComplete oneLiteral (.text query.text) "grammar.json" (.place 2 3) true =
        runComplete oneLiteral (.text query.text) "grammar.json" (.offset 8) true ∧
      runComplete oneLiteral (.text query.text) "grammar.json" (.place 3 1) true = throw (.cursorOutside 3 1) := by
  intro query analyzer
  have given : loadQuery oneLiteral (.text query.text) = pure query := rfl
  have accepted : loadAnalyzer oneLiteral "grammar.json" = pure analyzer := by
    have read : Grammar.declarations "[\x7b\"type\": \"+\", \"named\": false\x7d]" = .ok [.literal "+" ⟨false, false⟩] := by
      decide +kernel
    have loaded : (Analyzer.new .default).tryLoad "[\x7b\"type\": \"+\", \"named\": false\x7d]" = .ok analyzer := by
      rw [Analyzer.tryLoad, read]
    have opened : loadFile oneLiteral "grammar.json" = pure "[\x7b\"type\": \"+\", \"named\": false\x7d]" := rfl
    rw [loadAnalyzer, opened, pure_bind, loaded]
  have parts : query.text = "é\r\n𝕏" ++ "b" := by decide +kernel
  have kept : ¬ BreakSplit "é\r\n𝕏".toList "b".toList := fun split => absurd split.1 (by decide)
  obtain ⟨offset, place, -, lines⟩ := cursor_forms_agree given accepted true parts kept
  have size : "é\r\n𝕏".utf8ByteSize = 8 := by decide +kernel
  have shown : (analyzer.document query.text).position 8 = ⟨1, 2⟩ := by
    change (LineIndex.ofText "é\r\n𝕏b").position 8 = ⟨1, 2⟩
    decide +kernel
  rw [size, shown] at place
  rw [size] at offset
  exact ⟨given, accepted, parts, kept, place.trans offset.symm, (lines 3 1).mpr (by decide)⟩

end CommandLine

end TreeQuery
