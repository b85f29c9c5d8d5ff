import TreeQuery.Text.Escape

/-! Literals survive being written as strings of a query: what is escaped reads back as it was. -/

namespace TreeQuery.Text

theorem unescapeChars_plain {c : Char} (plain : c ≠ '\\') (rest : List Char) :
    unescapeChars (c :: rest) = c :: unescapeChars rest := by
  cases rest <;> simp [unescapeChars, plain]

private theorem unescapeChars_escapeChar (c : Char) (rest : List Char) :
    unescapeChars (escapeChar c ++ rest) = c :: unescapeChars rest := by
  unfold escapeChar
  split
  next => rfl
  next => rfl
  next => rfl
  next => rfl
  next => rfl
  next plain _ _ _ => exact unescapeChars_plain plain rest

theorem unescapeChars_escaped (text : List Char) : unescapeChars (text.flatMap escapeChar) = text := by
  induction text with
  | nil => rfl
  | cons c rest ih => rw [List.flatMap_cons, unescapeChars_escapeChar, ih]

/-- No two literals are written alike. -/
theorem quote_injective {literal other : String} (same : quote literal = quote other) : literal = other := by
  have inside := List.append_cancel_right (List.cons.inj (String.ofList_injective same)).2
  have read := congrArg unescapeChars inside
  rw [unescapeChars_escaped, unescapeChars_escaped] at read
  exact String.toList_inj.mp read

end TreeQuery.Text
