import TreeQuery.Proofs.ParserLeaves
import TreeQuery.Proofs.ShiftedPlaces
import TreeQuery.Proofs.TokenSeams
import TreeQuery.Proofs.TreeSites

/-! Whole lines are cut into tokens by themselves. A string that is not closed, a comment and garbage end with their line
at the latest, and whether a token begins or how far it goes depends on nothing behind the next line break. -/

namespace TreeQuery.Syntax

namespace Token

/-- A text that ends in a line break, or is empty. -/
def WholeLines (text : List Char) : Prop := ∀ last ∈ text.getLast?, last = '\n'

section Scanning

variable {c : Char} {text rest : List Char}

private theorem WholeLines.cases (lines : WholeLines (c :: rest)) : c = '\n' ∧ rest = [] ∨ ∃ front, rest = front ++ ['\n'] := by
  rcases List.eq_nil_or_concat rest with rfl | ⟨front, last, rfl⟩
  · exact .inl ⟨lines c rfl, rfl⟩
  · have ends : last = '\n' := lines last (by simp [List.getLast?_cons])
    exact .inr ⟨front, by rw [ends, List.concat_eq_append]⟩

private theorem WholeLines.drop (lines : WholeLines text) (count : Nat) : WholeLines (text.drop count) := by
  intro last ends
  rw [List.getLast?_drop] at ends
  split at ends
  · cases ends
  · exact lines last ends

/-- Where no token begins the line goes on. -/
private theorem WholeLines.behind (lines : WholeLines (c :: rest)) (none : longest? c rest = none) :
    rest ≠ [] ∧ WholeLines rest := by
  refine ⟨?_, lines.drop 1⟩
  rintro rfl
  rw [lines c rfl] at none
  cases none

private theorem longest?_whole (lines : WholeLines (c :: rest)) (more : List Char) :
    longest? c (rest ++ more) = longest? c rest := by
  rcases lines.cases with ⟨rfl, rfl⟩ | ⟨front, rfl⟩
  · rfl
  · have split : front ++ ['\n'] ++ more = front ++ '\n' :: more := List.append_assoc ..
    have run (continues : Char → Bool) (stops : continues '\n' = false) :
        ((front ++ '\n' :: more).takeWhile continues).length = ((front ++ ['\n']).takeWhile continues).length := by
      rw [takeWhile_line stops, takeWhile_line stops]
    have string : stringLength (front ++ '\n' :: more) = stringLength (front ++ ['\n']) := by
      rw [stringLength_line, stringLength_line]
    -- A carriage return looks at the next character, which is in the line.
    have next : (front ++ '\n' :: more).head? = (front ++ ['\n']).head? := by cases front <;> rfl
    rw [split]
    unfold longest?
    simp only [run continuesName rfl, run isBlank rfl, run (· ≠ '\n') rfl, string, next]

private theorem garbageLength_whole (lines : WholeLines text) (filled : text ≠ []) (more : List Char) :
    garbageLength (text ++ more) = garbageLength text := by
  induction text with
  | nil => exact absurd rfl filled
  | cons c rest ih =>
    rw [List.cons_append, garbageLength, garbageLength, longest?_whole lines]
    split
    · rfl
    next nowhere =>
      obtain ⟨left, later⟩ := lines.behind (Option.not_isSome_iff_eq_none.mp nowhere)
      rw [ih later left]

private theorem garbageLength_le (text : List Char) : garbageLength text ≤ text.length := by
  induction text with
  | nil => exact Nat.le_refl _
  | cons c rest ih =>
    rw [garbageLength]
    split
    · exact Nat.zero_le _
    · exact Nat.succ_le_succ ih

/-- What is cut off a text of whole lines is in it, and is the same whatever stands behind. -/
private theorem piece_whole {piece : TokenKind × Nat} (lines : WholeLines (c :: rest))
    (found : (longest? c rest).getD (.garbage, garbageLength rest) = piece) : piece.2 ≤ rest.length ∧
      ∀ more, (longest? c (rest ++ more)).getD (.garbage, garbageLength (rest ++ more)) = piece := by
  cases begins : longest? c rest with
  | some longest =>
    obtain rfl : longest = piece := by simpa [begins] using found
    exact ⟨longest?_within begins, fun more => by rw [longest?_whole lines, begins, Option.getD_some]⟩
  | none =>
    obtain rfl : (.garbage, garbageLength rest) = piece := by simpa [begins] using found
    obtain ⟨left, later⟩ := lines.behind begins
    exact ⟨garbageLength_le rest, fun more => by
      rw [longest?_whole lines, begins, Option.getD_none, garbageLength_whole later left]⟩

private theorem scan_whole (lines : WholeLines text) (more : List Char) : scan (text ++ more) = scan text ++ scan more := by
  -- The induction goes from token to token, as the lines are cut.
  fun_induction scan text with
  | case1 => rfl
  | case2 c rest kind taken found ih =>
    obtain ⟨within, same⟩ := piece_whole lines found
    have later := ih (lines.drop (taken + 1))
    rw [List.cons_append, scan, same more]
    dsimp only
    rw [List.take_append_of_le_length within, List.drop_append_of_le_length within, later, List.cons_append]

end Scanning

private theorem ofText_whole (source other : String) :
    ofText (source ++ "\n" ++ other) = ofText (source ++ "\n") ++ ofText other := by
  have lines : WholeLines (source ++ "\n").toList := by
    intro last ends
    simpa [eq_comm] using ends
  rw [ofText, String.toList_append, scan_whole lines, List.flatMap_append]
  rfl

end Token

open Text (Span)

private theorem spanned_shift (distance start : Nat) (tokens : List Token) :
    spanned (start + distance) tokens = (spanned start tokens).map (Prod.map id (Span.shift distance)) := by
  induction tokens generalizing start with
  | nil => rfl
  | cons token rest ih =>
    rw [spanned, spanned, List.map_cons, ← ih, Nat.add_right_comm]
    rfl

/-- A line break parts the tokens of a text: those of what ends with it, and those of what follows, further on, which are
all that begin behind it, whatever stands before. -/
theorem Token.lines_parted (source other : String) :
    let later := (spanned 0 (ofText other)).map (Prod.map id (Span.shift (source.utf8ByteSize + 1)))
    spanned 0 (ofText (source ++ "\n" ++ other)) = spanned 0 (ofText (source ++ "\n")) ++ later ∧
      (spanned 0 (ofText (source ++ "\n" ++ other))).filter (source.utf8ByteSize + 1 ≤ ·.2.start) = later := by
  intro later
  have size : (source ++ "\n").utf8ByteSize = source.utf8ByteSize + 1 := String.utf8ByteSize_append
  have parted : spanned 0 (ofText (source ++ "\n" ++ other)) = spanned 0 (ofText (source ++ "\n")) ++ later := by
    rw [ofText_whole, spanned_append, ← length_join, ofText_joins, size, spanned_shift]
  refine ⟨parted, ?_⟩
  have tiles := ofText_tiles (source ++ "\n")
  rw [parted, List.filter_append, List.filter_eq_nil_iff.mpr, List.filter_eq_self.mpr, List.nil_append]
  · rintro _ member
    obtain ⟨_, _, rfl⟩ := List.mem_map.mp member
    exact decide_eq_true (Nat.le_add_left ..)
  · intro token member
    have own := List.mem_map_of_mem (f := Prod.snd) member
    have wide := (tiles.ordered.1 _ own).2
    have within := tiles.stop_le.2 _ own
    rw [decide_eq_true_iff]
    omega

end TreeQuery.Syntax
