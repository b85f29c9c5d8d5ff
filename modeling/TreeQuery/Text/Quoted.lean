import TreeQuery.Text.Unprintable

/-! A text between double quotes, with everything that would not show written as an escape. -/

namespace TreeQuery.Text

def hexDigits (n : Nat) : List Char := Nat.toDigits 16 n

def displayChar : Char → List Char
  | '"' => ['\\', '"']
  | '\\' => ['\\', '\\']
  | '\n' => ['\\', 'n']
  | '\r' => ['\\', 'r']
  | '\t' => ['\\', 't']
  | '\x00' => ['\\', '0']
  | c =>
    if isUnprintable c then ['\\', 'u', '\x7b'] ++ hexDigits c.toNat ++ ['\x7d'] else [c]

def quoted (text : String) : String :=
  String.ofList ('"' :: (text.toList.flatMap displayChar ++ ['"']))

end TreeQuery.Text
