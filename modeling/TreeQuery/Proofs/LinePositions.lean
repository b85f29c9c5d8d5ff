import Mathlib.Data.List.DropRight
import TreeQuery.Proofs.LineColumns

/-! Positions against the text itself. A place between two characters is its line's number and the
units of the line before it, and both conversions come back to where they started. A column between
the two units of a character is the exception: its offset is inside the character. -/

namespace TreeQuery.Text

/-- Part of a text is a line: `above` is before it, `below` from its terminator on. A carriage return
before the line feed is part of the terminator. -/
structure LineAt (text above content below : List Char) : Prop where
  whole : text = above ++ (content ++ below)
  opens : above = [] ∨ above.getLast? = some '\n'
  single : '\n' ∉ content
  closes : below = [] ∨ (below.head? = some '\n' ∧ content.getLast? ≠ some '\r') ∨ ['\r', '\n'] <+: below

/-- What stands in the last line of a text. -/
def tail (before : List Char) : List Char := before.rtakeWhile (· ≠ '\n')

/-- The position after some text: its line feeds and the units after the last of them. -/
def Position.after (before : List Char) : Position := ⟨before.count '\n', utf16Length (tail before)⟩

/-- Between a carriage return and its line feed. -/
def BreakSplit (before after : List Char) : Prop := before.getLast? = some '\r' ∧ after.head? = some '\n'

/-- No place in the content of a line is inside a terminator. -/
private theorem LineAt.unsplit {text above content below front back : List Char} (line : LineAt text above content below)
    (split : content = front ++ back) : ¬ BreakSplit (above ++ front) (back ++ below) := by
  rintro ⟨carriage, feed⟩
  cases back with
  | cons c rest =>
    obtain rfl : c = '\n' := Option.some.inj feed
    exact line.single (split ▸ List.mem_append_right _ List.mem_cons_self)
  | nil =>
    rw [List.append_nil] at split
    subst split
    rcases line.closes with rfl | ⟨-, plain⟩ | ⟨rest, rfl⟩
    · cases feed
    · rcases List.eq_nil_or_concat content with rfl | ⟨front, last, rfl⟩
      · rcases line.opens with rfl | opens <;> simp_all
      · exact plain (by simpa using carriage)
    · cases feed

/-- Every number up to that of the line feeds is a line's. -/
private theorem exists_lineAt {text : List Char} {number : Nat} (inside : number ≤ text.count '\n') :
    ∃ above content below, LineAt text above content below ∧ above.count '\n' = number := by
  induction number generalizing text with
  | zero =>
    by_cases fed : '\n' ∈ text
    · obtain ⟨first, rest, rfl, single⟩ := List.eq_append_cons_of_mem fed
      rcases List.eq_nil_or_concat first with rfl | ⟨content, last, rfl⟩
      · exact ⟨[], [], '\n' :: rest, ⟨rfl, .inl rfl, single, .inr (.inl ⟨rfl, by simp⟩)⟩, rfl⟩
      · by_cases carriage : last = '\r'
        · subst carriage
          exact ⟨[], content, '\r' :: '\n' :: rest,
            ⟨by simp, .inl rfl, fun member => single (by simp [member]), .inr (.inr ⟨rest, rfl⟩)⟩, rfl⟩
        · exact ⟨[], content.concat last, '\n' :: rest,
            ⟨by simp, .inl rfl, by simpa using single, .inr (.inl ⟨rfl, by simpa using carriage⟩)⟩, rfl⟩
    · exact ⟨[], text, [], ⟨by simp, .inl rfl, fed, .inl rfl⟩, rfl⟩
  | succ number ih =>
    have fed : '\n' ∈ text := List.count_pos_iff.mp (by omega)
    obtain ⟨first, rest, rfl, single⟩ := List.eq_append_cons_of_mem fed
    have none := List.count_eq_zero.mpr single
    have fewer : number ≤ rest.count '\n' := by simpa [none] using inside
    obtain ⟨above, content, below, line, count⟩ := ih fewer
    refine ⟨first ++ '\n' :: above, content, below, ⟨by simp [line.whole], .inr ?_, line.single, line.closes⟩,
      by simp [none, count]⟩
    rcases line.opens with rfl | opens
    · simp
    · rw [List.getLast?_append_of_ne_nil _ (List.cons_ne_nil _ _), List.getLast?_cons, opens]
      rfl

section Split
open Line

variable {read front above after : List Char} {start : Nat}

private theorem split_starts {line : Line} (member : line ∈ split start read after) : start ≤ line.start := by
  induction after generalizing start read with
  | nil => simp_all [split]
  | cons c rest ih =>
    rw [split] at member
    split at member
    · rcases List.mem_cons.mp member with rfl | later
      · exact Nat.le_refl _
      · have := ih later
        omega
    · exact ih member

private theorem split_stop (start : Nat) (read after : List Char) :
    (split start read after).getLast?.map stop = some (start + utf8Length read + utf8Length after) := by
  induction after generalizing start read with
  | nil => simp [split, stop]
  | cons c rest ih =>
    rw [split]
    split
    next feed =>
      subst feed
      have last := ih (start + utf8Length read + 1) []
      obtain ⟨line, found⟩ : ∃ line, (split (start + utf8Length read + 1) [] rest).getLast? = some line := by
        cases found : (split (start + utf8Length read + 1) [] rest).getLast? with
        | none => simp [found] at last
        | some line => exact ⟨line, rfl⟩
      rw [List.getLast?_cons, found, Option.getD_some, Option.map_some, ← Option.map_some, ← found, last, utf8Length_nil,
        utf8Length_cons, show Char.utf8Size '\n' = 1 from rfl, Nat.add_zero, Nat.add_assoc]
    next =>
      rw [ih, utf8Length_cons, utf8Length_cons]
      exact congrArg some (by omega)

private theorem split_front (start : Nat) (read after : List Char) (single : '\n' ∉ front) :
    split start read (front ++ after) = split start (front.reverse ++ read) after := by
  induction front generalizing read with
  | nil => rfl
  | cons c rest ih =>
    rw [List.mem_cons, not_or] at single
    rw [List.cons_append, split, if_neg (Ne.symm single.1), ih _ single.2, List.reverse_cons, List.append_assoc]
    rfl

/-- The lines above one that opens after a line feed are read without it. -/
private theorem split_above (start : Nat) (read after : List Char) (opens : above.getLast? = some '\n') :
    ∃ upper, split start read (above ++ after) = upper ++ split (start + utf8Length read + utf8Length above) [] after ∧
      upper.length = above.count '\n' ∧ ∀ line ∈ upper, line.start ≤ start + utf8Length read + utf8Length above := by
  induction above generalizing start read with
  | nil => cases opens
  | cons c rest ih =>
    rw [List.cons_append, split, utf8Length_cons]
    by_cases feed : c = '\n'
    · subst feed
      have size : Char.utf8Size '\n' = 1 := rfl
      by_cases last : rest = []
      · subst last
        exact ⟨[⟨start, withoutReturn read.reverse⟩], by simp [size], by simp, by simp; omega⟩
      · rw [List.getLast?_cons_of_ne_nil last] at opens
        obtain ⟨upper, same, count, starts⟩ := ih (start + utf8Length read + 1) [] opens
        rw [utf8Length_nil] at same starts
        refine ⟨⟨start, withoutReturn read.reverse⟩ :: upper, ?_, by simp [count], ?_⟩
        · rw [if_pos rfl, same, size, List.cons_append, Nat.add_zero, Nat.add_assoc _ 1]
        · intro line member
          rcases List.mem_cons.mp member with rfl | member
          · exact Nat.le_trans (Nat.le_add_right ..) (Nat.le_add_right ..)
          · have := starts line member
            omega
    · have more : rest ≠ [] := by
        rintro rfl
        exact feed (by simpa using opens)
      rw [List.getLast?_cons_of_ne_nil more] at opens
      obtain ⟨upper, same, count, starts⟩ := ih start (c :: read) opens
      have moved : start + utf8Length (c :: read) + utf8Length rest =
          start + utf8Length read + (c.utf8Size + utf8Length rest) := by
        rw [utf8Length_cons]
        omega
      rw [moved] at same starts
      exact ⟨upper, by rw [if_neg feed, same], by simp [count, feed], starts⟩

/-- The line that is being read holds what was read, but for a carriage return that a line feed follows. -/
private theorem split_head (start : Nat) (read after : List Char) :
    ∃ content lower, split start read after = ⟨start, content⟩ :: lower ∧
      (∀ line ∈ lower, start + utf8Length read < line.start) ∧
      (read.reverse <+: content ∨ read.reverse = content ++ ['\r'] ∧ after.head? = some '\n') := by
  induction after generalizing read with
  | nil => exact ⟨read.reverse, [], rfl, by simp, .inl (List.prefix_refl _)⟩
  | cons c rest ih =>
    rw [split]
    by_cases feed : c = '\n'
    · refine ⟨withoutReturn read.reverse, _, if_pos feed, ?_, ?_⟩
      · intro line member
        exact split_starts member
      · unfold withoutReturn
        split
        next closed =>
          exact .inr ⟨(List.dropLast_append_getLast? _ closed).symm, congrArg some feed⟩
        next => exact .inl (List.prefix_refl _)
    · obtain ⟨content, lower, same, starts, held⟩ := ih (c :: read)
      refine ⟨content, lower, by rw [if_neg feed, same], ?_, ?_⟩
      · intro line member
        have := starts line member
        rw [utf8Length_cons] at this
        omega
      · rw [List.reverse_cons] at held
        rcases held with held | ⟨held, -⟩
        · exact .inl ((List.prefix_append _ _).trans held)
        · exact .inl ((List.append_inj' held rfl).1 ▸ List.prefix_refl _)

end Split

section Tail

variable {above front : List Char}

private theorem tail_split (before : List Char) :
    ∃ above, before = above ++ tail before ∧ (above = [] ∨ above.getLast? = some '\n') ∧ '\n' ∉ tail before := by
  refine ⟨before.rdropWhile (· ≠ '\n'), List.rdropWhile_append_rtakeWhile.symm, ?_, ?_⟩
  · by_cases none : before.rdropWhile (· ≠ '\n') = []
    · exact .inl none
    · have last := List.rdropWhile_last_not _ before none
      exact .inr (by rw [List.getLast?_eq_some_getLast none]; simpa using last)
  · intro member
    simpa using List.mem_rtakeWhile_imp member

private theorem tail_append (opens : above = [] ∨ above.getLast? = some '\n') (single : '\n' ∉ front) :
    tail (above ++ front) = front := by
  have plain : ∀ c ∈ front.reverse, (c ≠ '\n') := fun c member same => single (same ▸ List.mem_reverse.mp member)
  have none : above.reverse.takeWhile (· ≠ '\n') = [] := by
    rcases opens with rfl | opens
    · rfl
    · rw [← List.head?_reverse] at opens
      cases flipped : above.reverse with
      | nil => rfl
      | cons c rest => simp_all
  rw [tail, List.rtakeWhile, List.reverse_append, List.takeWhile_append_of_pos (by simpa using plain), none,
    List.append_nil, List.reverse_reverse]

private theorem after_append (opens : above = [] ∨ above.getLast? = some '\n') (single : '\n' ∉ front) :
    Position.after (above ++ front) = ⟨above.count '\n', utf16Length front⟩ := by
  rw [Position.after, tail_append opens single, List.count_append, List.count_eq_zero.mpr single, Nat.add_zero]

end Tail

namespace LineIndex
open Line

variable {text : String} {above content below front before after : List Char} {index : LineIndex} {upper lower : List Line}
  {line : Line} {offset : Nat}

private theorem length_ofText (text : String) : (ofText text).length = utf8Length text.toList := by
  rw [length, ofText, split_stop, Option.getD_some, utf8Length_nil, Nat.zero_add]

/-- The lines around a line that opens after `above` and of which `front` is read. -/
structure Around (index : LineIndex) (above front after : List Char) (upper : List Line) (content : List Char)
    (lower : List Line) : Prop where
  lines : index.lines = upper ++ ⟨utf8Length above, content⟩ :: lower
  count : upper.length = above.count '\n'
  started : ∀ line ∈ upper, line.start ≤ utf8Length above
  later : ∀ line ∈ lower, utf8Length above + utf8Length front < line.start
  held : front <+: content ∨ front = content ++ ['\r'] ∧ after.head? = some '\n'

private theorem ofText_above {rest : List Char} (whole : text.toList = above ++ rest)
    (opens : above = [] ∨ above.getLast? = some '\n') :
    ∃ upper, (ofText text).lines = upper ++ split (utf8Length above) [] rest ∧ upper.length = above.count '\n' ∧
      ∀ line ∈ upper, line.start ≤ utf8Length above := by
  rw [ofText, whole]
  rcases opens with rfl | opens
  · exact ⟨[], rfl, rfl, by simp⟩
  · simpa using split_above 0 [] rest opens

private theorem lineAt_lines (line : LineAt text.toList above content below) :
    (ofText text).lines[above.count '\n']? = some ⟨utf8Length above, content⟩ := by
  obtain ⟨upper, lines, count, -⟩ := ofText_above line.whole line.opens
  have head : ∃ lower, split (utf8Length above) [] (content ++ below) = ⟨utf8Length above, content⟩ :: lower := by
    rw [split_front _ _ _ line.single, List.append_nil]
    rcases line.closes with rfl | ⟨feed, plain⟩ | ⟨rest, rfl⟩
    · exact ⟨[], by simp [split]⟩
    · obtain ⟨rest, rfl⟩ := List.head?_eq_some_iff.mp feed
      exact ⟨split (utf8Length above + utf8Length content + 1) [] rest, by simp [split, withoutReturn, plain]⟩
    · exact ⟨split (utf8Length above + utf8Length ('\r' :: content.reverse) + 1) [] rest, by simp [split, withoutReturn]⟩
  obtain ⟨lower, head⟩ := head
  rw [lines, head, ← count]
  simp

private theorem ofText_around (whole : text.toList = above ++ (front ++ after)) (opens : above = [] ∨ above.getLast? = some '\n')
    (single : '\n' ∉ front) : ∃ upper content lower, Around (ofText text) above front after upper content lower := by
  obtain ⟨upper, same, count, started⟩ := ofText_above whole opens
  obtain ⟨content, lower, head, later, held⟩ := split_head (utf8Length above) front.reverse after
  rw [utf8Length_reverse] at later
  rw [List.reverse_reverse] at held
  rw [split_front _ _ _ single, List.append_nil, head] at same
  exact ⟨upper, content, lower, same, count, started, later, held⟩

namespace Around

variable (around : Around index above front after upper content lower)
include around

private theorem position (inside : utf8Length above + utf8Length front ≤ index.length) :
    index.position (utf8Length above + utf8Length front) = ⟨above.count '\n', utf16Length front⟩ := by
  have reached : ∀ line ∈ upper, decide (line.start ≤ utf8Length above + utf8Length front) = true := fun line member =>
    decide_eq_true (Nat.le_trans (around.started line member) (Nat.le_add_right ..))
  have passed : lower.takeWhile (fun line => decide (line.start ≤ utf8Length above + utf8Length front)) = [] := by
    cases same : lower with
    | nil => rfl
    | cons line rest =>
      have := around.later line (same ▸ List.mem_cons_self)
      exact List.takeWhile_cons_of_neg (by simpa using this)
  have units : unitsBefore content (utf8Length front) = utf16Length front := by
    rcases around.held with ⟨back, rfl⟩ | ⟨rfl, -⟩
    · simpa using unitsBefore_append front back 0
    · have past := unitsBefore_append content [] 1
      rw [List.append_nil] at past
      rw [utf8Length_append, utf16Length_append]
      exact past
  rw [LineIndex.position, Nat.min_eq_left inside, around.lines, List.takeWhile_append_of_pos reached,
    List.takeWhile_cons_of_pos (by simp), passed, List.getLast?_concat]
  simp [units, around.count]

private theorem offset? (held : front <+: content) :
    index.offset? ⟨above.count '\n', utf16Length front⟩ = some (utf8Length above + utf8Length front) := by
  obtain ⟨back, rfl⟩ := held
  simp [LineIndex.offset?, around.lines, ← around.count, bytesBefore_front]

end Around

section Walks

/-- The byte offset of a position by the walk over its line's wide characters. -/
def walkOffset? (index : LineIndex) (position : Position) : Option Nat := do
  let line ← index.lines[position.line]?
  let size ← line.stop.psub line.start
  return line.start + min (WideCharacter.widen position.column (WideCharacter.ofLine 0 line.content)) size

/-- The position of a byte offset by the walk over its line's wide characters. None where a
subtraction would go below zero. -/
def walkPosition? (index : LineIndex) (offset : Nat) : Option Position := do
  let offset := min offset index.length
  let number ← (index.lines.takeWhile (·.start ≤ offset)).length.psub 1
  let line ← index.lines[number]?
  let bytes ← offset.psub line.start
  let column ← WideCharacter.narrow? bytes bytes (WideCharacter.ofLine 0 line.content)
  return ⟨number, column⟩

private theorem walkOffset?_eq (index : LineIndex) (p : Position) : index.walkOffset? p = index.offset? p := by
  unfold walkOffset? LineIndex.offset?
  cases index.lines[p.line]? with
  | none => rfl
  | some line =>
    have walked := WideCharacter.widen_ofLine line.content 0 p.column
    rw [Nat.zero_add, Nat.zero_add, Nat.zero_add] at walked
    have size : line.stop - line.start = utf8Length line.content := by rw [stop, Nat.add_sub_cancel_left]
    simp [Nat.psub_eq_sub (show line.start ≤ line.stop from Nat.le_add_right ..), size, walked]

private theorem walkPosition?_eq (text : String) (offset : Nat) :
    (ofText text).walkPosition? offset = some ((ofText text).position offset) := by
  unfold walkPosition? LineIndex.position
  generalize min offset (ofText text).length = offset
  obtain ⟨content, rest, first, -⟩ := split_head 0 [] text.toList
  have lines : (ofText text).lines = ⟨0, content⟩ :: rest := first
  generalize reached : (ofText text).lines.takeWhile (·.start ≤ offset) = before
  obtain ⟨line, last⟩ : ∃ line, before.getLast? = some line := by
    rw [← reached, lines, List.takeWhile_cons_of_pos (by simp), List.getLast?_cons]
    exact ⟨_, rfl⟩
  obtain ⟨above, same⟩ := List.getLast?_eq_some_iff.mp last
  have start : line.start ≤ offset := by
    have member : line ∈ (ofText text).lines.takeWhile (·.start ≤ offset) := by simp [reached, same]
    simpa using List.mem_takeWhile_imp member
  have found : (ofText text).lines[above.length]? = some line := by
    rw [← List.takeWhile_append_dropWhile (p := (·.start ≤ offset)) (l := (ofText text).lines), reached, same]
    simp
  have walked := WideCharacter.narrow?_ofLine line.content 0 0 (offset - line.start)
  rw [Nat.zero_add, Nat.zero_add] at walked
  simp [reached, same, Nat.psub_eq_sub, found, start, walked]

end Walks

private theorem boundary_around (whole : text.toList = before ++ after) :
    ∃ above front upper content lower, before = above ++ front ∧
      Position.after before = ⟨above.count '\n', utf16Length front⟩ ∧
      Around (ofText text) above front after upper content lower := by
  obtain ⟨above, same, opens, single⟩ := tail_split before
  generalize tail before = front at same single
  subst same
  obtain ⟨upper, content, lower, around⟩ := ofText_around (by rw [whole, List.append_assoc]) opens single
  exact ⟨above, front, upper, content, lower, rfl, after_append opens single, around⟩

private theorem position_after (whole : text.toList = before ++ after) :
    (ofText text).position (utf8Length before) = Position.after before := by
  obtain ⟨above, front, _, _, _, rfl, place, around⟩ := boundary_around whole
  rw [place, utf8Length_append]
  refine around.position ?_
  rw [length_ofText, whole, utf8Length_append, utf8Length_append]
  exact Nat.le_add_right ..

private theorem offset?_after (whole : text.toList = before ++ after) (kept : ¬ BreakSplit before after) :
    (ofText text).offset? (Position.after before) = some (utf8Length before) := by
  obtain ⟨above, front, _, _, _, rfl, place, around⟩ := boundary_around whole
  rw [place, utf8Length_append]
  refine around.offset? (around.held.resolve_right ?_)
  rintro ⟨rfl, feed⟩
  exact kept ⟨by simp [← List.append_assoc], feed⟩

/-- Both conversions are exact at every boundary between characters, and undo each other. The walks
over the wide characters, every subtraction in them checked, come to the same. -/
theorem position_inverts (text : String) :
    (∀ p, (ofText text).walkOffset? p = (ofText text).offset? p) ∧
    (∀ offset, (ofText text).walkPosition? offset = some ((ofText text).position offset)) ∧
    (∀ before after : String, text = before ++ after →
      (ofText text).position before.utf8ByteSize = Position.after before.toList ∧
      (¬ BreakSplit before.toList after.toList →
        (ofText text).offset? ((ofText text).position before.utf8ByteSize) = some before.utf8ByteSize)) ∧
    ∀ p above content below front, LineAt text.toList above content below → front <+: content →
      p = ⟨above.count '\n', utf16Length front⟩ → ((ofText text).offset? p).map (ofText text).position = some p := by
  refine ⟨walkOffset?_eq _, walkPosition?_eq text, fun before after whole => ?_, ?_⟩
  · have whole : text.toList = before.toList ++ after.toList := by rw [whole, String.toList_append]
    rw [← utf8Length_toList, position_after whole]
    exact ⟨rfl, offset?_after whole⟩
  · rintro _ above content below front line ⟨back, rfl⟩ rfl
    have whole : text.toList = (above ++ front) ++ (back ++ below) := by rw [line.whole]; simp
    have single : '\n' ∉ front := fun member => line.single (List.mem_append_left _ member)
    rw [← after_append line.opens single, offset?_after whole (line.unsplit rfl), Option.map_some, position_after whole]

theorem mixed_widths_invert :
    "é\r\n𝕏b" = "é\r\n𝕏" ++ "b" ∧ ¬ BreakSplit "é\r\n𝕏".toList "b".toList ∧
      LineAt "é\r\n𝕏b".toList ['é', '\r', '\n'] ['𝕏', 'b'] [] ∧ ['𝕏'] <+: ['𝕏', 'b'] ∧
      (ofText "é\r\n𝕏b").offset? ((ofText "é\r\n𝕏b").position 8) = some 8 ∧
      ((ofText "é\r\n𝕏b").offset? ⟨1, 2⟩).map (ofText "é\r\n𝕏b").position = some ⟨1, 2⟩ := by
  have parts : "é\r\n𝕏b" = "é\r\n𝕏" ++ "b" := by decide +kernel
  have kept : ¬ BreakSplit "é\r\n𝕏".toList "b".toList := fun split => absurd split.1 (by decide)
  have line : LineAt "é\r\n𝕏b".toList ['é', '\r', '\n'] ['𝕏', 'b'] [] := ⟨rfl, .inr rfl, by decide, .inl rfl⟩
  have front : ['𝕏'] <+: ['𝕏', 'b'] := ⟨['b'], rfl⟩
  obtain ⟨-, -, inverts, columns⟩ := position_inverts "é\r\n𝕏b"
  exact ⟨parts, kept, line, front, (inverts _ _ parts).2 kept, columns _ _ _ _ _ line front rfl⟩

section Boundaries

theorem isValid_iff : (String.Pos.Raw.mk offset).IsValid text ↔
    ∃ front back, text.toList = front ++ back ∧ offset = utf8Length front := by
  rw [String.Pos.Raw.isValid_iff_exists_append]
  constructor
  · rintro ⟨before, after, whole, place⟩
    refine ⟨before.toList, after.toList, by rw [whole, String.toList_append], ?_⟩
    rw [utf8Length_toList]
    exact congrArg String.Pos.Raw.byteIdx place
  · rintro ⟨front, back, whole, rfl⟩
    refine ⟨String.ofList front, String.ofList back, ?_, ?_⟩
    · rw [← String.ofList_append, ← whole, String.ofList_toList]
    · rw [← String.toList_ofList (l := front), utf8Length_toList, String.toList_ofList]
      rfl

/-- No boundary is inside a character. -/
private theorem not_isValid_inside {c : Char} {back : List Char} (whole : text.toList = front ++ c :: back)
    (later : utf8Length front < offset) (sooner : offset < utf8Length front + c.utf8Size) :
    ¬ (String.Pos.Raw.mk offset).IsValid text := by
  rw [isValid_iff]
  rintro ⟨before, after, parts, rfl⟩
  rw [whole] at parts
  rcases List.append_eq_append_iff.mp parts with ⟨more, rfl, rest⟩ | ⟨more, rfl, -⟩
  · cases more with
    | nil => simp at later
    | cons d more =>
      obtain ⟨rfl, -⟩ := List.cons.inj rest
      simp at sooner
  · simp at later

/-- In an existing line every column has an offset within the line's content. The offset is a boundary
between characters just when the column is not between the two units of one. -/
theorem offset?_isValid_iff (text : String) (p : Position) (inside : p.line ≤ text.toList.count '\n') :
    ∃ above content below offset, LineAt text.toList above content below ∧ above.count '\n' = p.line ∧
      (ofText text).offset? p = some offset ∧
      utf8Length above ≤ offset ∧ offset ≤ utf8Length above + utf8Length content ∧
      ((String.Pos.Raw.mk offset).IsValid text ↔ ¬ Halves content p.column) := by
  obtain ⟨above, content, below, line, count⟩ := exists_lineAt inside
  refine ⟨above, content, below, utf8Length above + bytesBefore content p.column, line, count, ?_, Nat.le_add_right ..,
    Nat.add_le_add_left (bytesBefore_le ..) _, ?_, ?_⟩
  · rw [offset?, ← count, lineAt_lines line]
    rfl
  · intro valid halved
    obtain ⟨front, c, back, rfl, later, sooner⟩ := halved.bytesBefore
    have whole : text.toList = (above ++ front) ++ c :: (back ++ below) := by simpa using line.whole
    refine not_isValid_inside whole ?_ ?_ valid
    · rw [utf8Length_append]
      omega
    · rw [utf8Length_append]
      omega
  · intro apart
    rw [isValid_iff, line.whole]
    rcases column_cases content p.column with ⟨front, back, rfl, same⟩ | past | halved
    · exact ⟨above ++ front, back ++ below, by simp, by rw [same, bytesBefore_front, utf8Length_append]⟩
    · exact ⟨above ++ content, below, by simp, by rw [bytesBefore_past past, utf8Length_append]⟩
    · exact absurd halved apart

theorem wide_line_valid : 1 ≤ "é\n𝕏b".toList.count '\n' ∧
    ∃ above content below offset, LineAt "é\n𝕏b".toList above content below ∧ above.count '\n' = 1 ∧
      (ofText "é\n𝕏b").offset? ⟨1, 2⟩ = some offset ∧
      utf8Length above ≤ offset ∧ offset ≤ utf8Length above + utf8Length content ∧
      ((String.Pos.Raw.mk offset).IsValid "é\n𝕏b" ↔ ¬ Halves content 2) :=
  ⟨by decide, offset?_isValid_iff _ ⟨1, 2⟩ (by decide)⟩

/-- The column between the two units of a character comes to its last byte. -/
theorem halved_character_invalid : LineAt "𝕏".toList [] ['𝕏'] [] ∧ (ofText "𝕏").offset? ⟨0, 1⟩ = some 3 ∧
    ¬ (String.Pos.Raw.mk 3).IsValid "𝕏" := by
  refine ⟨⟨rfl, .inl rfl, by decide, .inl rfl⟩, by decide, ?_⟩
  exact not_isValid_inside (show "𝕏".toList = [] ++ '𝕏' :: [] from rfl) (by decide) (by decide)

end Boundaries

end LineIndex

end TreeQuery.Text
