/-! Edit distance between names, and the nearest of several names. A distance counts
insertions, deletions and substitutions of single characters. -/

namespace TreeQuery.Text

/-- The rest of a row of distances, those of a text that ends in `c` to longer and longer beginnings of `target`.
`left` is the distance before them, and `above` is the row of the text without `c` from there on. -/
def fillRow (c : Char) : (left : Nat) → (target : List Char) → (above : List Nat) → List Nat
  | left, d :: target, diagonal :: above :: rest =>
    let cost := if c = d then 0 else 1
    let here := min (min (above + 1) (left + 1)) (diagonal + cost)
    here :: fillRow c here target (above :: rest)
  | _, _, _ => []

/-- The row of a text of `length` characters with `c` behind it. -/
def nextRow (target : List Char) (length : Nat) (above : List Nat) (c : Char) : List Nat :=
  (length + 1) :: fillRow c (length + 1) target above

/-- The row of a text of `length` characters, which has the row `above`, with `source` behind it. -/
def lastRow (target : List Char) : (length : Nat) → (above : List Nat) → (source : List Char) → List Nat
  | _, above, [] => above
  | length, above, c :: source => lastRow target (length + 1) (nextRow target length above c) source

def characterDistance (source target : List Char) : Nat :=
  if source.length = 0 then target.length
  else if target.length = 0 then source.length
  else (lastRow target 0 (List.range (target.length + 1)) source).getD target.length 0

def editDistance (source target : String) : Nat := characterDistance source.toList target.toList

/-- The earliest of the nearest candidates with its distance, unless even these are more
than `limit` edits away. -/
def nearestWithin (limit : Nat) (name : String) : List String → Option (Nat × String)
  | [] => none
  | candidate :: rest =>
    let distance := editDistance name candidate
    match nearestWithin limit name rest with
    | some (least, found) => some (if distance ≤ least then (distance, candidate) else (least, found))
    | none => if distance ≤ limit then some (distance, candidate) else none

def nearest? (name : String) (candidates : List String) (limit : Nat) : Option String :=
  (nearestWithin limit name candidates).map (·.2)

end TreeQuery.Text
