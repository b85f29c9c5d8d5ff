import Mathlib.Data.String.Basic
import Mathlib.Data.Nat.PSub
import TreeQuery.Text.LineIndex

/-! Columns of a line in bytes and in units. Characters of one byte count the same in both, so a walk
over the wide characters alone converts: it adds what each has in bytes more than in units, or takes
it off again. -/

namespace TreeQuery.Text

def utf16Length (chars : List Char) : Nat := total utf16Size chars

@[simp] theorem utf8Length_nil : utf8Length [] = 0 := rfl

@[simp] theorem utf8Length_cons (c : Char) (rest : List Char) :
    utf8Length (c :: rest) = c.utf8Size + utf8Length rest := rfl

@[simp] theorem utf8Length_append (front back : List Char) :
    utf8Length (front ++ back) = utf8Length front + utf8Length back := total_append ..

@[simp] theorem utf8Length_reverse (chars : List Char) : utf8Length chars.reverse = utf8Length chars := by
  induction chars with
  | nil => rfl
  | cons c rest ih => simp [ih, Nat.add_comm]

@[simp] theorem utf16Length_nil : utf16Length [] = 0 := rfl

@[simp] theorem utf16Length_cons (c : Char) (rest : List Char) :
    utf16Length (c :: rest) = utf16Size c + utf16Length rest := rfl

@[simp] theorem utf16Length_append (front back : List Char) :
    utf16Length (front ++ back) = utf16Length front + utf16Length back := total_append ..

theorem utf8Length_toList (text : String) : utf8Length text.toList = text.utf8ByteSize := by
  rw [← String.utf8Len_toList]
  induction text.toList with
  | nil => rfl
  | cons c rest ih => rw [String.utf8Len_cons, ← ih, Nat.add_comm]; rfl

private theorem utf16Size_cases (c : Char) :
    (c.utf8Size = 1 ∧ utf16Size c = 1) ∨ (c.utf8Size = 2 ∧ utf16Size c = 1) ∨
      (c.utf8Size = 3 ∧ utf16Size c = 1) ∨ (c.utf8Size = 4 ∧ utf16Size c = 2) := by
  simp only [Char.utf8Size, utf16Size, UInt32.le_iff_toNat_le, UInt32.lt_iff_toNat_lt, UInt32.toNat_ofNatLT]
  have plane : (0x10000 : UInt32).toNat = 65536 := rfl
  split_ifs <;> omega

namespace Line

@[simp] theorem bytesBefore_zero (content : List Char) : bytesBefore content 0 = 0 := by
  cases content <;> rfl

@[simp] theorem unitsBefore_zero (content : List Char) : unitsBefore content 0 = 0 := by
  cases content with
  | nil => rfl
  | cons c rest => simp [unitsBefore, Nat.not_le.mpr c.utf8Size_pos]

private theorem bytesBefore_cons (c : Char) (rest : List Char) (column : Nat) :
    bytesBefore (c :: rest) column =
      if column = 0 then 0 else if column < utf16Size c then c.utf8Size - (utf16Size c - column)
      else c.utf8Size + bytesBefore rest (column - utf16Size c) := by
  cases column with
  | zero => rfl
  | succ column => rfl

theorem unitsBefore_append (front back : List Char) (bytes : Nat) :
    unitsBefore (front ++ back) (utf8Length front + bytes) = utf16Length front + unitsBefore back bytes := by
  induction front with
  | nil => simp
  | cons c rest ih =>
    rw [List.cons_append, unitsBefore, utf8Length_cons, Nat.add_assoc, if_pos (Nat.le_add_right ..),
      Nat.add_sub_cancel_left, ih, utf16Length_cons, Nat.add_assoc]

private theorem bytesBefore_append (front back : List Char) (column : Nat) :
    bytesBefore (front ++ back) (utf16Length front + column) = utf8Length front + bytesBefore back column := by
  induction front with
  | nil => simp
  | cons c rest ih =>
    have sizes := utf16Size_cases c
    rw [List.cons_append, bytesBefore_cons, utf16Length_cons, Nat.add_assoc, if_neg (by omega), if_neg (by omega),
      Nat.add_sub_cancel_left, ih, utf8Length_cons, Nat.add_assoc]

theorem bytesBefore_le (content : List Char) (column : Nat) : bytesBefore content column ≤ utf8Length content := by
  induction content generalizing column with
  | nil => cases column <;> simp [bytesBefore]
  | cons c rest ih =>
    have := ih (column - utf16Size c)
    rw [bytesBefore_cons, utf8Length_cons]
    split_ifs <;> omega

theorem bytesBefore_front (front back : List Char) : bytesBefore (front ++ back) (utf16Length front) = utf8Length front := by
  simpa using bytesBefore_append front back 0

theorem bytesBefore_past {content : List Char} {column : Nat} (past : utf16Length content ≤ column) :
    bytesBefore content column = utf8Length content := by
  have bytes := bytesBefore_append content [] (column - utf16Length content)
  rw [List.append_nil, Nat.add_sub_cancel' past] at bytes
  rw [bytes]
  cases column - utf16Length content <;> rfl

/-- A column between the two units of a character. -/
def Halves (content : List Char) (column : Nat) : Prop :=
  ∃ front c back, content = front ++ c :: back ∧ utf16Length front < column ∧ column < utf16Length front + utf16Size c

/-- Such a column comes to a byte in the middle of the character. -/
theorem Halves.bytesBefore {content : List Char} {column : Nat} (halved : Halves content column) :
    ∃ front c back, content = front ++ c :: back ∧ utf8Length front < bytesBefore content column ∧
      bytesBefore content column < utf8Length front + c.utf8Size := by
  obtain ⟨front, c, back, rfl, later, sooner⟩ := halved
  obtain ⟨units, rfl⟩ := Nat.exists_eq_add_of_lt later
  have sizes := utf16Size_cases c
  refine ⟨front, c, back, rfl, ?_⟩
  rw [Nat.add_assoc, bytesBefore_append, bytesBefore_cons, if_neg (by omega), if_pos (by omega)]
  omega

/-- A column is past some characters of the line, past its end or in a character. -/
theorem column_cases (content : List Char) (column : Nat) :
    (∃ front back, content = front ++ back ∧ column = utf16Length front) ∨ utf16Length content ≤ column ∨
      Halves content column := by
  induction content generalizing column with
  | nil => exact .inr (.inl (Nat.zero_le _))
  | cons c rest ih =>
    by_cases start : column = 0
    · exact .inl ⟨[], c :: rest, rfl, start⟩
    by_cases short : column < utf16Size c
    · exact .inr (.inr ⟨[], c, rest, rfl, Nat.pos_of_ne_zero start, by simpa using short⟩)
    obtain ⟨column, rfl⟩ := Nat.exists_eq_add_of_le (Nat.not_lt.mp short)
    rcases ih column with ⟨front, back, rfl, rfl⟩ | past | ⟨front, d, back, rfl, later, sooner⟩
    · exact .inl ⟨c :: front, back, rfl, rfl⟩
    · exact .inr (.inl (Nat.add_le_add_left past _))
    · exact .inr (.inr ⟨c :: front, d, back, rfl, by rw [utf16Length_cons]; omega, by rw [utf16Length_cons]; omega⟩)

end Line

/-- A character of more than one byte: its byte column, its bytes and its units. -/
structure WideCharacter where
  start : Nat
  bytes : Nat
  units : Nat
deriving Repr, DecidableEq

namespace WideCharacter

/-- The wide characters of a line, or of what is left of it from a byte column on. -/
def ofLine (column : Nat) : List Char → List WideCharacter
  | [] => []
  | c :: rest =>
    if 1 < c.utf8Size then ⟨column, c.utf8Size, utf16Size c⟩ :: ofLine (column + c.utf8Size) rest
    else ofLine (column + c.utf8Size) rest

/-- A column in units widened to bytes: what each character that starts before it has in bytes more
than in units is added. -/
def widen (column : Nat) : List WideCharacter → Nat
  | [] => column
  | wide :: rest => if column ≤ wide.start then column else widen (column + (wide.bytes - wide.units)) rest

/-- A column in bytes narrowed to units: what each character that stops before it has in bytes more
than in units is taken off. None where a subtraction would go below zero. -/
def narrow? (bytes column : Nat) : List WideCharacter → Option Nat
  | [] => some column
  | wide :: rest =>
    if bytes < wide.start + wide.bytes then some column
    else do
      let surplus ← wide.bytes.psub wide.units
      let column ← column.psub surplus
      narrow? bytes column rest

private theorem widen_short {start column : Nat} (content : List Char) (short : column ≤ start) :
    widen column (ofLine start content) = column := by
  induction content generalizing start with
  | nil => rfl
  | cons c rest ih =>
    rw [ofLine]
    split
    · rw [widen, if_pos short]
    · exact ih (by omega)

private theorem narrow?_short {start bytes : Nat} (content : List Char) (column : Nat) (short : bytes ≤ start) :
    narrow? bytes column (ofLine start content) = some column := by
  induction content generalizing start with
  | nil => rfl
  | cons c rest ih =>
    rw [ofLine]
    split
    · rw [narrow?, if_pos (show bytes < start + c.utf8Size by omega)]
    · exact ih (by omega)

/-- The widened column, no further than the line's end, is the model's. -/
theorem widen_ofLine (content : List Char) (start column : Nat) :
    min (widen (start + column) (ofLine start content)) (start + utf8Length content) =
      start + Line.bytesBefore content column := by
  induction content generalizing start column with
  | nil => cases column <;> simp [ofLine, widen, Line.bytesBefore]
  | cons c rest ih =>
    by_cases begin : column = 0
    · subst begin
      rw [Nat.add_zero, widen_short _ (Nat.le_refl _), Line.bytesBefore_zero]
      omega
    have sizes := utf16Size_cases c
    have step := ih (start + c.utf8Size) (column - utf16Size c)
    rw [Line.bytesBefore_cons, if_neg begin, utf8Length_cons, ← Nat.add_assoc]
    by_cases wide : 1 < c.utf8Size
    · rw [ofLine, if_pos wide, widen, if_neg (show ¬ start + column ≤ start by omega)]
      by_cases short : column < utf16Size c
      · rw [if_pos short, widen_short _ (show start + column + (c.utf8Size - utf16Size c) ≤ start + c.utf8Size by omega)]
        omega
      · have same : start + column + (c.utf8Size - utf16Size c) = start + c.utf8Size + (column - utf16Size c) := by omega
        rw [if_neg short, same, step, Nat.add_assoc]
    · have same : start + column = start + c.utf8Size + (column - utf16Size c) := by omega
      rw [ofLine, if_neg wide, if_neg (show ¬ column < utf16Size c by omega), same, step, Nat.add_assoc]

/-- Narrowing never goes below zero, and comes to the model's column. -/
theorem narrow?_ofLine (content : List Char) (start units bytes : Nat) :
    narrow? (start + bytes) (units + bytes) (ofLine start content) = some (units + Line.unitsBefore content bytes) := by
  induction content generalizing start units bytes with
  | nil => rfl
  | cons c rest ih =>
    have sizes := utf16Size_cases c
    by_cases passed : c.utf8Size ≤ bytes
    · have step := ih (start + c.utf8Size) (units + utf16Size c) (bytes - c.utf8Size)
      have ahead : start + bytes = start + c.utf8Size + (bytes - c.utf8Size) := by omega
      rw [Line.unitsBefore, if_pos passed, ← Nat.add_assoc, ← step, ← ahead]
      by_cases wide : 1 < c.utf8Size
      · have column : units + bytes - (c.utf8Size - utf16Size c) = units + utf16Size c + (bytes - c.utf8Size) := by omega
        rw [ofLine, if_pos wide, narrow?, if_neg (show ¬ start + bytes < start + c.utf8Size by omega)]
        simp only [Nat.psub_eq_sub (show utf16Size c ≤ c.utf8Size by omega), Option.bind_eq_bind, Option.bind_some,
          Nat.psub_eq_sub (show c.utf8Size - utf16Size c ≤ units + bytes by omega), column]
      · have column : units + bytes = units + utf16Size c + (bytes - c.utf8Size) := by omega
        rw [ofLine, if_neg wide, column]
    · rw [Line.unitsBefore, if_neg passed, ofLine]
      split
      · rw [narrow?, if_pos (show start + bytes < start + c.utf8Size by omega)]
      · exact narrow?_short _ _ (by omega)

end WideCharacter

end TreeQuery.Text
