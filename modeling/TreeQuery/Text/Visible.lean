import TreeQuery.Text.Columns
import TreeQuery.Text.Total

/-! Texts as they are shown in a terminal. Controls show as pictures of their own, a tab as
four blanks, and a character that would change the direction of the text as a sign of
replacement. -/

namespace TreeQuery.Text

/-- Joins characters into one picture. It is left out, so that what is joined keeps its width. -/
def isJoiner (c : Char) : Bool := c.toNat = 0x200d

def changesDirection (c : Char) : Bool :=
  (0x202a ≤ c.toNat && c.toNat ≤ 0x202e) || (0x2066 ≤ c.toNat && c.toNat ≤ 0x2069)

/-- What is shown for a character. A line break is kept. -/
def visibleChar (c : Char) : List Char :=
  if c = '\t' then [' ', ' ', ' ', ' ']
  else if c = '\n' then [c]
  else if c.toNat < 0x20 then [Char.ofNat (0x2400 + c.toNat)]
  else if c.toNat = 0x7f then ['\u2421']
  else if isJoiner c then []
  else if changesDirection c then ['\ufffd']
  else [c]

def visible (text : List Char) : List Char := text.flatMap visibleChar

def columns (text : List Char) : Nat := total columnsOf (visible text)

end TreeQuery.Text
