import TreeQuery.Decimal.Shortest
import TreeQuery.Json.Reader

/-! Numbers in JSON: passed over where nobody wants them, and read where a message has to
show them. A number without fraction and exponent that fits a machine word is an integer. -/

namespace TreeQuery.Json

/-- A double without its sign, with the fewest digits that identify it: plain from the fifth
place after the point up to sixteen before it, otherwise with a signed exponent. -/
def floatingText (size : Float) : String :=
  if size == 0 then "0.0" else
  let decimal := (Decimal.Binary.ofBits size.toBits).shortest
  let digits := Nat.toDigits 10 decimal.digits
  let count : Int := digits.length
  let point := count + decimal.exponent
  let zeros (n : Int) := List.replicate n.toNat '0'
  String.ofList <|
    if 0 ≤ decimal.exponent && point ≤ 16 then digits ++ zeros decimal.exponent ++ ['.', '0']
    else if 0 < point && point ≤ 16 then digits.take point.toNat ++ ['.'] ++ digits.drop point.toNat
    else if -5 < point && point ≤ 0 then ['0', '.'] ++ zeros (-point) ++ digits
    else
      let mantissa := if digits.length = 1 then digits else digits.take 1 ++ ['.'] ++ digits.drop 1
      mantissa ++ ['e', if 0 < point then '+' else '-'] ++ Nat.toDigits 10 (point - 1).natAbs

def wordLimit : Nat := Nat.pow 2 64 - 1

/-- Digits taken up by a significand while it stays a machine word, how many these are, and
how many are left. -/
def absorb (significand taken : Nat) : List Nat → Nat × Nat × Nat
  | [] => (significand, taken, 0)
  | digit :: rest =>
    if wordLimit < significand * 10 + digit then (significand, taken, rest.length + 1)
    else absorb (significand * 10 + digit) (taken + 1) rest

/-- Divides by a power of ten, in steps that the divisor can represent. -/
def divideByPower (size : Float) (power : Nat) : Float :=
  if power ≤ 308 then size / Float.ofScientific 1 false power
  else if size == 0 then size
  else divideByPower (size / 1e308) (power - 308)
termination_by power

def scaled? (significand : Nat) (exponent : Int) : Option Float :=
  let size := Float.ofNat significand
  if exponent < 0 then some (divideByPower size (-exponent).toNat)
  else if exponent ≤ 308 then
    let product := size * Float.ofScientific 1 false exponent.toNat
    if product.isInf then none else some product
  else if significand = 0 then some size
  else none

/-- How many digits of an exponent are read until it is beyond all bounds, if it ever is. -/
def boundlessAfter? (value read : Nat) : List Nat → Option Nat
  | [] => none
  | digit :: rest =>
    if Nat.pow 2 31 - 1 < value * 10 + digit then some (read + 1)
    else boundlessAfter? (value * 10 + digit) (read + 1) rest

namespace Reader

def floating (negative : Bool) (size : Option Float) : Reader Found :=
  match size with
  | none => failHere .numberOutOfRange
  | some size => return .floating ((if negative then "-" else "") ++ floatingText size)

def exponent (negative : Bool) (significand : Nat) (power : Int) : Reader Found := do
  advance
  let sign ← peek
  if sign = some '+' || sign = some '-' then advance
  match ← peek with
  | none => failHere .eofInValue
  | some first =>
    if !first.isDigit then failNext .invalidNumber
    else
      let start ← fun input => .done input.offset input
      let read ← digits
      let value : Nat := read.foldl (fun value digit => 10 * value + digit) 0
      match boundlessAfter? 0 0 read with
      | some count =>
        if significand ≠ 0 && sign ≠ some '-' then fun _ => .failed ⟨.numberOutOfRange, start + count⟩
        else floating negative (some 0)
      | none =>
        floating negative (scaled? significand (if sign = some '-' then power - value else power + value))

def fraction (negative : Bool) (significand : Nat) (power : Int) : Reader Found := do
  advance
  let read ← digits
  if read.isEmpty then
    if (← peek).isSome then failNext .invalidNumber else failNext .eofInValue
  else
    let (significand, taken, _) := absorb significand 0 read
    match ← peek with
    | some 'e' | some 'E' => exponent negative significand (power - taken)
    | _ => floating negative (scaled? significand (power - taken))

def number (negative : Bool) : Reader Found := do
  match ← peek with
  | none => failHere .eofInValue
  | some first =>
    if !first.isDigit then failNext .invalidNumber
    else
      advance
      if first == '0' && (← peek).any Char.isDigit then failNext .invalidNumber
      let read ← digits
      let (significand, _, left) := absorb (first.toNat - '0'.toNat) 0 read
      match ← peek with
      | some '.' => fraction negative significand left
      | some 'e' | some 'E' => exponent negative significand left
      | _ =>
        if left ≠ 0 then floating negative (scaled? significand left)
        else if !negative then return .integer significand
        else if 0 < significand && significand ≤ Nat.pow 2 63 then return .integer (-significand)
        else floating true (some (Float.ofNat significand))

def skipExponent : Reader Unit := do
  advance
  let sign ← peek
  if sign = some '+' || sign = some '-' then advance
  if (← peek).any Char.isDigit then skipDigits else failNext .invalidNumber

def skipFraction : Reader Unit := do
  advance
  unless (← peek).any Char.isDigit do failNext .invalidNumber
  skipDigits
  match ← peek with
  | some 'e' | some 'E' => skipExponent
  | _ => return

def skipNumber : Reader Unit := do
  unless (← peek).any Char.isDigit do failNext .invalidNumber
  if (← peek) = some '0' then
    advance
    if (← peek).any Char.isDigit then failNext .invalidNumber
  else skipDigits
  match ← peek with
  | some '.' => skipFraction
  | some 'e' | some 'E' => skipExponent
  | _ => return

end Reader

end TreeQuery.Json
