/-! Sums of a measure over a list. -/

namespace TreeQuery.Text

variable {α : Type} (size : α → Nat)

def total (items : List α) : Nat := items.foldr (fun item sum => size item + sum) 0

@[simp] theorem total_nil : total size [] = 0 := rfl

@[simp] theorem total_cons (item : α) (rest : List α) :
    total size (item :: rest) = size item + total size rest := rfl

@[simp] theorem total_append (items rest : List α) :
    total size (items ++ rest) = total size items + total size rest := by
  induction items with
  | nil => simp
  | cons item items ih => simp [ih, Nat.add_assoc]

end TreeQuery.Text
