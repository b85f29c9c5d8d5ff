/-! Names listed for a reader: each between backticks, and the number of those left out. -/

namespace TreeQuery.Text

def backticked (name : String) : String := "`" ++ name ++ "`"

/-- The first `limit` items, and how many more there are. -/
def listing (items : List String) (limit : Nat) : String :=
  let shown := ", ".intercalate ((items.take limit).map backticked)
  if items.length ≤ limit then shown
  else shown ++ ", ... (" ++ toString (items.length - limit) ++ " more)"

end TreeQuery.Text
