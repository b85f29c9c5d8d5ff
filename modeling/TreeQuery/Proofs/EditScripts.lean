import Mathlib.Order.Bounds.Basic
import TreeQuery.Text.EditDistance

/-! Edit scripts: single characters put in, taken out or replaced, one after another. The rows that are filled
for two names hold the distances of all their beginnings. So the edit distance is the length of a shortest
script from one name to the other, from which its laws as a distance follow, and what is suggested for a name
is the earliest of the names nearest to it. -/

namespace TreeQuery.Text

/-- A single character is put in, taken out or replaced. -/
inductive Edit : List Char → List Char → Prop
  | insert (front back : List Char) (c : Char) : Edit (front ++ back) (front ++ c :: back)
  | delete (front back : List Char) (c : Char) : Edit (front ++ c :: back) (front ++ back)
  | replace (front back : List Char) (c d : Char) : Edit (front ++ c :: back) (front ++ d :: back)

/-- So many edits, one after another. -/
inductive Edits : Nat → List Char → List Char → Prop
  | none (text : List Char) : Edits 0 text text
  | next {n : Nat} {source middle target : List Char} (edit : Edit source middle) (later : Edits n middle target) :
    Edits (n + 1) source target

variable {n m : Nat} {c d : Char} {source middle target : List Char}

private theorem Edit.symm (edit : Edit source target) : Edit target source := by
  cases edit with
  | insert front back c => exact .delete front back c
  | delete front back c => exact .insert front back c
  | replace front back c d => exact .replace front back d c

private theorem Edit.cons (c : Char) (edit : Edit source target) : Edit (c :: source) (c :: target) := by
  cases edit with
  | insert front back d => exact .insert (c :: front) back d
  | delete front back d => exact .delete (c :: front) back d
  | replace front back d e => exact .replace (c :: front) back d e

private theorem Edit.reverse (edit : Edit source target) : Edit source.reverse target.reverse := by
  cases edit with
  | insert front back c => simpa using Edit.insert back.reverse front.reverse c
  | delete front back c => simpa using Edit.delete back.reverse front.reverse c
  | replace front back c d => simpa using Edit.replace back.reverse front.reverse c d

namespace Edits

private theorem trans (first : Edits n source middle) (later : Edits m middle target) : Edits (n + m) source target := by
  induction first with
  | none => rwa [Nat.zero_add]
  | next edit _ ih =>
    rw [Nat.succ_add_eq_add_succ]
    exact .next edit (ih later)

private theorem symm (edits : Edits n source target) : Edits n target source := by
  induction edits with
  | none => exact .none _
  | next edit _ ih => exact ih.trans (.next edit.symm (.none _))

/-- What is in front of both texts can be left alone. -/
private theorem cons (c : Char) (edits : Edits n source target) : Edits n (c :: source) (c :: target) := by
  induction edits with
  | none => exact .none _
  | next edit _ ih => exact .next (edit.cons c) ih

private theorem eq_of_zero (edits : Edits 0 source target) : source = target := by
  cases edits
  rfl

private theorem reverse (edits : Edits n source target) : Edits n source.reverse target.reverse := by
  induction edits with
  | none => exact .none _
  | next edit _ ih => exact .next edit.reverse ih

end Edits

/-- How far it is from one text to another, told by how far it is with less in front of either. -/
def distance : (source target : List Char) → Nat
  | [], target => target.length
  | _ :: source, [] => source.length + 1
  | c :: source, d :: target =>
    min (min (distance source (d :: target) + 1) (distance (c :: source) target + 1))
      (distance source target + if c = d then 0 else 1)
termination_by source target => source.length + target.length

section Recursion

private theorem distance_nil_left (target : List Char) : distance [] target = target.length := by
  rw [distance]

private theorem distance_nil_right (source : List Char) : distance source [] = source.length := by
  cases source with
  | nil => exact distance_nil_left []
  | cons c source => rw [distance, List.length_cons]

private theorem distance_cons (c d : Char) (source target : List Char) :
    distance (c :: source) (d :: target) =
      min (min (distance source (d :: target) + 1) (distance (c :: source) target + 1))
        (distance source target + if c = d then 0 else 1) := by
  rw [distance]

end Recursion

private theorem edits_distance (source target : List Char) : Edits (distance source target) source target := by
  induction source generalizing target with
  | nil =>
    rw [distance_nil_left]
    induction target with
    | nil => exact .none []
    | cons d target ih => exact .next (.insert [] [] d) (ih.cons d)
  | cons c source ih =>
    induction target with
    | nil =>
      rw [distance_nil_right, List.length_cons, ← distance_nil_right]
      exact .next (.delete [] source c) (ih [])
    | cons d target shorter =>
      -- The character in front is put in, taken out, kept or replaced, whichever is cheapest.
      have least := distance_cons c d source target
      by_cases inserted : distance (c :: source) (d :: target) = distance (c :: source) target + 1
      · rw [inserted]
        exact .next (.insert [] (c :: source) d) (shorter.cons d)
      by_cases deleted : distance (c :: source) (d :: target) = distance source (d :: target) + 1
      · rw [deleted]
        exact .next (.delete [] source c) (ih (d :: target))
      by_cases same : c = d
      · have kept : distance (c :: source) (d :: target) = distance source target := by
          rw [if_pos same] at least
          omega
        rw [kept, same]
        exact (ih target).cons d
      · have replaced : distance (c :: source) (d :: target) = distance source target + 1 := by
          rw [if_neg same] at least
          omega
        rw [replaced]
        exact .next (.replace [] source c d) ((ih target).cons d)

section Bounds

private theorem distance_cons_left (c : Char) (source target : List Char) :
    distance (c :: source) target ≤ distance source target + 1 := by
  cases target with
  | nil => rw [distance_nil_right, distance_nil_right, List.length_cons]
  | cons d target =>
    have least := distance_cons c d source target
    omega

private theorem distance_cons_right (d : Char) (source target : List Char) :
    distance source (d :: target) ≤ distance source target + 1 := by
  cases source with
  | nil => rw [distance_nil_left, distance_nil_left, List.length_cons]
  | cons c source =>
    have least := distance_cons c d source target
    omega

private theorem distance_le_cons (c : Char) (source target : List Char) :
    distance source target ≤ distance (c :: source) target + 1 := by
  induction target with
  | nil =>
    rw [distance_nil_right, distance_nil_right, List.length_cons]
    omega
  | cons d target ih =>
    have least := distance_cons c d source target
    have wider := distance_cons_right d source target
    omega

private theorem distance_replace (c d : Char) (source target : List Char) :
    distance (c :: source) target ≤ distance (d :: source) target + 1 := by
  induction target with
  | nil => simp [distance_nil_right]
  | cons e target ih =>
    have least := distance_cons d e source target
    have bound := distance_cons c e source target
    have cost : (if c = e then 0 else 1) ≤ 1 := by split <;> omega
    omega

private theorem distance_keep (c : Char) (near : ∀ target, distance source target ≤ distance middle target + 1)
    (target : List Char) : distance (c :: source) target ≤ distance (c :: middle) target + 1 := by
  induction target with
  | nil => simpa [distance_nil_right] using near []
  | cons d target ih =>
    have least := distance_cons c d middle target
    have bound := distance_cons c d source target
    have here := near target
    have there := near (d :: target)
    omega

private theorem Edit.distance_le (edit : Edit source middle) (target : List Char) :
    distance source target ≤ distance middle target + 1 := by
  cases edit with
  | insert front back c =>
    induction front generalizing target with
    | nil => exact distance_le_cons c back target
    | cons d front ih => exact distance_keep d ih target
  | delete front back c =>
    induction front generalizing target with
    | nil => exact distance_cons_left c back target
    | cons d front ih => exact distance_keep d ih target
  | replace front back c d =>
    induction front generalizing target with
    | nil => exact distance_replace c d back target
    | cons e front ih => exact distance_keep e ih target

private theorem distance_self (text : List Char) : distance text text = 0 := by
  induction text with
  | nil => exact distance_nil_left []
  | cons c text ih =>
    have least := distance_cons c c text text
    rw [if_pos rfl] at least
    omega

private theorem Edits.distance_le (edits : Edits n source target) : distance source target ≤ n := by
  induction edits with
  | none text => exact Nat.le_of_eq (distance_self text)
  | @next n _ _ target edit _ ih =>
    have nearer := edit.distance_le target
    omega

end Bounds

/-- A shortest script has as many edits as the distance says. -/
private theorem distance_least (source target : List Char) : IsLeast {n | Edits n source target} (distance source target) :=
  ⟨edits_distance source target, fun _ edits => edits.distance_le⟩

section Rows

/-- The distances of a text to longer and longer beginnings of another. Texts that are passed are given backwards,
so that the character passed last is in front. -/
def row (source : List Char) : (behind target : List Char) → List Nat
  | behind, [] => [distance source behind]
  | behind, d :: target => distance source behind :: row source (d :: behind) target

private theorem row_cons (source behind target : List Char) :
    row source behind target = distance source behind :: (row source behind target).tail := by
  cases target <;> rfl

private theorem fillRow_row (c : Char) (source behind target : List Char) :
    fillRow c (distance (c :: source) behind) target (row source behind target) = (row (c :: source) behind target).tail := by
  induction target generalizing behind with
  | nil => rfl
  | cons d target ih =>
    have further := ih (d :: behind)
    rw [row_cons source (d :: behind), distance_cons] at further
    rw [row, row_cons source (d :: behind), fillRow, further, ← distance_cons, ← row_cons, row, List.tail_cons]

private theorem nextRow_row (c : Char) (source target : List Char) :
    nextRow target source.length (row source [] target) c = row (c :: source) [] target := by
  rw [nextRow, row_cons (c :: source), ← fillRow_row, distance_nil_right, List.length_cons]

private theorem lastRow_row (before source target : List Char) :
    lastRow target before.length (row before [] target) source = row (source.reverse ++ before) [] target := by
  induction source generalizing before with
  | nil => rfl
  | cons c source ih =>
    rw [lastRow, nextRow_row, ← List.length_cons, ih, List.reverse_cons, List.append_assoc, List.singleton_append]

private theorem row_nil (behind target : List Char) : row [] behind target = List.range' behind.length (target.length + 1) := by
  induction target generalizing behind with
  | nil => rw [row, distance_nil_left]; rfl
  | cons d target ih =>
    rw [row, ih, distance_nil_left]
    exact (List.range'_succ ..).symm

private theorem row_getD (source behind target : List Char) :
    (row source behind target).getD target.length 0 = distance source (target.reverse ++ behind) := by
  induction target generalizing behind with
  | nil => rfl
  | cons d target ih =>
    rw [row, List.length_cons, List.getD_cons_succ, ih, List.reverse_cons, List.append_assoc, List.singleton_append]

/-- What the rows come to is the distance of both texts, read backwards. -/
private theorem characterDistance_eq (source target : List Char) :
    characterDistance source target = distance source.reverse target.reverse := by
  have first : List.range (target.length + 1) = row [] [] target := (List.range_eq_range' ..).trans (row_nil [] target).symm
  have last : lastRow target 0 (row [] [] target) source = row (source.reverse ++ []) [] target := lastRow_row [] source target
  unfold characterDistance
  split
  next empty => rw [List.length_eq_zero_iff.mp empty, List.reverse_nil, distance_nil_left, List.length_reverse]
  next =>
    split
    next empty => rw [List.length_eq_zero_iff.mp empty, List.reverse_nil, distance_nil_right, List.length_reverse]
    next => rw [first, last, row_getD, List.append_nil, List.append_nil]

/-- A script stays one when all its texts are read backwards. -/
private theorem editDistance_scripts (source target : String) :
    IsLeast {n | Edits n source.toList target.toList} (editDistance source target) := by
  have backwards := distance_least source.toList.reverse target.toList.reverse
  rw [editDistance, characterDistance_eq]
  refine ⟨?_, fun n edits => backwards.2 edits.reverse⟩
  have forwards := Edits.reverse backwards.1
  rwa [List.reverse_reverse, List.reverse_reverse] at forwards

end Rows

section Nearest

/-- The earliest of those candidates that are nearest to a name, and near enough. -/
def IsNearest (limit : Nat) (name : String) (candidates : List String) (found : String) : Prop :=
  editDistance name found ≤ limit ∧ ∃ before after, candidates = before ++ found :: after ∧
    (∀ earlier ∈ before, editDistance name found < editDistance name earlier) ∧
    ∀ later ∈ after, editDistance name found ≤ editDistance name later

variable {limit least : Nat} {name found other : String} {candidates : List String}

private theorem IsNearest.unique (first : IsNearest limit name candidates found)
    (second : IsNearest limit name candidates other) :
    found = other := by
  obtain ⟨_, before, after, rfl, nearer, near⟩ := first
  obtain ⟨_, front, back, split, closer, close⟩ := second
  rcases List.append_eq_append_iff.mp split with ⟨between, rfl, onward⟩ | ⟨between, rfl, onward⟩
  · cases between with
    | nil => exact (List.cons.inj onward).1
    | cons first between =>
      obtain ⟨rfl, rfl⟩ := List.cons.inj onward
      have apart := closer found (by simp)
      have ordered := near other (by simp)
      omega
  · cases between with
    | nil => exact (List.cons.inj onward).1.symm
    | cons first between =>
      obtain ⟨rfl, rfl⟩ := List.cons.inj onward
      have apart := nearer other (by simp)
      have ordered := close found (by simp)
      omega

private theorem nearestWithin_none (none : nearestWithin limit name candidates = none) :
    ∀ candidate ∈ candidates, limit < editDistance name candidate := by
  induction candidates with
  | nil => exact nofun
  | cons first rest ih =>
    rw [nearestWithin] at none
    split at none
    next => cases none
    next empty =>
      have far : ¬ editDistance name first ≤ limit := by simpa using none
      intro candidate member
      rcases List.mem_cons.mp member with rfl | later
      · omega
      · exact ih empty candidate later

private theorem nearestWithin_some (some : nearestWithin limit name candidates = some (least, found)) :
    least = editDistance name found ∧ IsNearest limit name candidates found := by
  induction candidates generalizing least found with
  | nil => cases some
  | cons first rest ih =>
    rw [nearestWithin] at some
    split at some
    next nearest other held =>
      obtain ⟨rfl, near, before, after, rfl, closer, close⟩ := ih held
      by_cases nearer : editDistance name first ≤ editDistance name other
      · rw [if_pos nearer] at some
        cases some
        refine ⟨rfl, by omega, [], _, rfl, nofun, fun later member => ?_⟩
        rcases List.mem_append.mp member with inside | inside
        · have apart := closer later inside
          omega
        rcases List.mem_cons.mp inside with rfl | inside
        · exact nearer
        · have apart := close later inside
          omega
      · rw [if_neg nearer] at some
        cases some
        refine ⟨rfl, near, first :: before, after, rfl, fun earlier member => ?_, close⟩
        rcases List.mem_cons.mp member with rfl | inside
        · omega
        · exact closer earlier inside
    next empty =>
      have far := nearestWithin_none empty
      split at some
      next near =>
        cases some
        refine ⟨rfl, near, [], rest, rfl, nofun, fun later member => ?_⟩
        have apart := far later member
        omega
      next => cases some

private theorem nearest?_eq_none_iff :
    nearest? name candidates limit = none ↔ ∀ candidate ∈ candidates, limit < editDistance name candidate := by
  rw [nearest?, Option.map_eq_none_iff]
  refine ⟨nearestWithin_none, fun far => ?_⟩
  cases held : nearestWithin limit name candidates with
  | none => rfl
  | some nearest =>
    obtain ⟨_, near, before, after, rfl, _⟩ := nearestWithin_some held
    have apart := far nearest.2 (by simp)
    omega

private theorem nearest?_eq_some_iff :
    nearest? name candidates limit = some found ↔ IsNearest limit name candidates found := by
  constructor
  · intro some
    obtain ⟨⟨least, _⟩, held, rfl⟩ := Option.map_eq_some_iff.mp some
    exact (nearestWithin_some held).2
  · intro nearest
    cases held : nearest? name candidates limit with
    | none =>
      obtain ⟨near, before, after, rfl, _⟩ := nearest
      have apart := nearest?_eq_none_iff.mp held found (by simp)
      omega
    | some other =>
      obtain ⟨⟨least, _⟩, within, rfl⟩ := Option.map_eq_some_iff.mp held
      exact congrArg some ((nearestWithin_some within).2.unique nearest)

end Nearest

/-- The edit distance of two names is the least number of insertions, deletions and replacements of single
characters that lead from one to the other. So it is a distance, and what is suggested for a name is the
earliest of the candidates nearest to it, if these are near enough. -/
theorem editDistance_least :
    (∀ source target : String, IsLeast {n | Edits n source.toList target.toList} (editDistance source target)) ∧
    (∀ source target, editDistance source target = editDistance target source) ∧
    (∀ source target, editDistance source target = 0 ↔ source = target) ∧
    (∀ source middle target, editDistance source target ≤ editDistance source middle + editDistance middle target) ∧
    ∀ (name : String) (candidates : List String) (limit : Nat),
      (∀ found, nearest? name candidates limit = some found ↔ IsNearest limit name candidates found) ∧
      (nearest? name candidates limit = none ↔ ∀ candidate ∈ candidates, limit < editDistance name candidate) := by
  have least := editDistance_scripts
  refine ⟨least, fun source target => ?_, fun source target => ?_, fun source middle target => ?_,
    fun name candidates limit => ⟨fun found => nearest?_eq_some_iff, nearest?_eq_none_iff⟩⟩
  · apply Nat.le_antisymm
    · exact (least source target).2 (Edits.symm (least target source).1)
    · exact (least target source).2 (Edits.symm (least source target).1)
  · constructor
    · intro none
      have edits : Edits (editDistance source target) source.toList target.toList := (least source target).1
      rw [none] at edits
      exact String.toList_injective edits.eq_of_zero
    · rintro rfl
      exact Nat.eq_zero_of_le_zero ((least source source).2 (.none _))
  · exact (least source target).2 (Edits.trans (least source middle).1 (least middle target).1)

/-- Of two names as near, the earlier one. -/
example : nearest? "listing" ["string", "linting", "lasting"] 2 = some "linting" := by decide +kernel

end TreeQuery.Text
