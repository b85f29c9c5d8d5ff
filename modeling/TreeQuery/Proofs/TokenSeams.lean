import TreeQuery.Proofs.WrittenTokens

/-! Texts put together at a line break. No token but a carriage return before it goes on over a line
break, so that the tokens of both texts are found again with the line break between them. -/

namespace TreeQuery.Syntax.Token

variable {c : Char} {rest more : List Char}

theorem takeWhile_line {continues : Char → Bool} (stops : continues '\n' = false) :
    (rest ++ '\n' :: more).takeWhile continues = rest.takeWhile continues := by
  induction rest with
  | nil => simp [stops]
  | cons c rest ih => rw [List.cons_append, List.takeWhile_cons, List.takeWhile_cons, ih]

theorem stringLength_line : stringLength (rest ++ '\n' :: more) = stringLength rest := by
  fun_induction stringLength rest with
  | case1 => simp [stringLength]
  | case2 => simp [stringLength]
  | case3 rest => simp [stringLength]
  | case4 c rest other ih => simp [stringLength, other, ih]
  | case5 rest single pair => simp [stringLength]
  | case6 rest single pair => simp [stringLength]
  | case7 c rest single pair quote line ih =>
    have escape := not_backslash single pair
    rw [List.cons_append, stringLength_plain quote escape line, ih, Nat.add_comm]

theorem stringLength_le : stringLength rest ≤ rest.length := by
  fun_induction stringLength rest <;> simp_all

theorem longest?_within {found : TokenKind × Nat} (some : longest? c rest = some found) : found.2 ≤ rest.length := by
  have within (continues : Char → Bool) : (rest.takeWhile continues).length ≤ rest.length :=
    (List.takeWhile_sublist _).length_le
  unfold longest? at some
  -- One branch for each way in which a token begins.
  repeat' split at some
  all_goals cases some
  all_goals first | exact Nat.zero_le _ | exact within _ | exact stringLength_le | skip
  next => split <;> first | exact Nat.zero_le _ | exact within _
  next pair =>
    have line : rest.head? = Option.some '\n' := by simpa using (Bool.and_eq_true_iff.mp pair).2
    obtain ⟨further, rfl⟩ := List.head?_eq_some_iff.mp line
    exact Nat.le_add_left ..

/-- A token that begins here is the same with a line break behind it. -/
private theorem longest?_line {found : TokenKind × Nat} (some : longest? c rest = some found) :
    longest? c (rest ++ '\n' :: more) = Option.some found := by
  have run (continues : Char → Bool) (stops : continues '\n' = false) :
      ((rest ++ '\n' :: more).takeWhile continues).length = (rest.takeWhile continues).length :=
    congrArg List.length (takeWhile_line stops)
  have paired : (c == '\r' && (rest ++ '\n' :: more).head? == Option.some '\n') =
      (c == '\r' && rest.head? == Option.some '\n') := by
    cases rest with
    | cons next rest => rfl
    | nil =>
      -- No token begins with a carriage return at the end.
      have other : c ≠ '\r' := by
        rintro rfl
        cases some
      simp [other]
  rw [← some]
  unfold longest?
  simp only [run continuesName rfl, run isBlank rfl, run (· ≠ '\n') rfl, stringLength_line, paired]

private theorem scan_line {text : List Char} (clean : ∀ piece ∈ scan text, piece.1 ≠ .garbage) :
    scan (text ++ '\n' :: more) = scan text ++ (.newline, ['\n']) :: scan more := by
  fun_induction scan text with
  | case1 => exact @scan_token _ more _ 0 rfl
  | case2 c rest kind taken found ih =>
    have begins : longest? c rest = some (kind, taken) := by
      cases longest : longest? c rest with
      | some pair => exact congrArg some (by simpa [longest] using found)
      | none =>
        rw [longest] at found
        exact absurd (congrArg Prod.fst found).symm (clean _ List.mem_cons_self)
    have within : taken ≤ rest.length := longest?_within begins
    rw [List.cons_append, scan_token (longest?_line begins), List.take_append_of_le_length within,
      List.drop_append_of_le_length within, ih fun piece member => clean piece (List.mem_cons_of_mem _ member)]
    rfl

def lineBreak : Token := ⟨.newline, "\n"⟩

/-- The tokens of two texts with a line break between them, if the first text has no garbage. -/
theorem ofText_line {source other : String} (clean : ∀ token ∈ ofText source, token.kind ≠ .garbage) :
    ofText (source ++ "\n" ++ other) = ofText source ++ lineBreak :: ofText other := by
  have whole : ∀ piece ∈ scan source.toList, piece.1 ≠ .garbage := by
    rintro ⟨kind, characters⟩ member rfl
    exact clean ⟨.garbage, String.ofList characters⟩ (List.mem_flatMap.mpr ⟨_, member, List.mem_singleton.mpr rfl⟩) rfl
  have characters : (source ++ "\n" ++ other).toList = source.toList ++ '\n' :: other.toList := by
    simp [String.toList_append]
  rw [ofText, characters, scan_line whole, List.flatMap_append, List.flatMap_cons]
  rfl

end TreeQuery.Syntax.Token
