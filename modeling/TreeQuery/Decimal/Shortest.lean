/-! The shortest decimal that reads back as a given binary fraction. Everything is decided
in exact arithmetic on whole numbers. -/

namespace TreeQuery.Decimal

/-- The value `significand * 2 ^ exponent`. Below a power of two the next value is only half
as far away as above it. -/
structure Binary where
  significand : Nat
  exponent : Int
  narrowBelow : Bool
deriving Repr, DecidableEq

def Binary.ofBits (bits : UInt64) : Binary :=
  let exponent := ((bits >>> 52) &&& 0x7FF).toNat
  let fraction := (bits &&& 0xFFFFFFFFFFFFF).toNat
  if exponent == 0 then ⟨fraction, -1074, false⟩
  else ⟨Nat.pow 2 52 + fraction, (exponent : Int) - 1075, fraction == 0 && exponent > 1⟩

structure Scientific where
  digits : Nat
  exponent : Int
deriving Repr, DecidableEq

/-- Compares `a * 10 ^ i` with `b * 2 ^ j`. -/
def compareScaled (a : Nat) (i : Int) (b : Nat) (j : Int) : Ordering :=
  compare (a * Nat.pow 10 i.toNat * Nat.pow 2 (-j).toNat) (b * Nat.pow 2 j.toNat * Nat.pow 10 (-i).toNat)

/-- Whether the decimal is nearer to the value than to its neighbours, or as near and the
significand even. -/
def Binary.readsBack (value : Binary) (decimal : Scientific) : Bool :=
  let low := 4 * value.significand - (if value.narrowBelow then 1 else 2)
  let high := 4 * value.significand + 2
  let even := value.significand % 2 == 0
  let atLow := compareScaled decimal.digits decimal.exponent low (value.exponent - 2)
  let atHigh := compareScaled decimal.digits decimal.exponent high (value.exponent - 2)
  (atLow == .gt || even && atLow == .eq) && (atHigh == .lt || even && atHigh == .eq)

def Binary.floorAt (value : Binary) (power : Int) : Nat :=
  value.significand * Nat.pow 2 value.exponent.toNat * Nat.pow 10 (-power).toNat /
    (Nat.pow 2 (-value.exponent).toNat * Nat.pow 10 power.toNat)

/-- The decimal on the grid of a power of ten that reads back, the nearer of two, and of two
equally near the even one. -/
def Binary.onGrid? (value : Binary) (power : Int) : Option Scientific :=
  let below := value.floorAt power
  let lower : Scientific := ⟨below, power⟩
  let upper : Scientific := ⟨below + 1, power⟩
  match value.readsBack lower, value.readsBack upper with
  | false, false => none
  | true, false => some lower
  | false, true => some upper
  | true, true =>
    match compareScaled (2 * below + 1) power (2 * value.significand) value.exponent with
    | .gt => some lower
    | .lt => some upper
    | .eq => some (if below % 2 == 0 then lower else upper)

/-- The number of digits before the point, from a first guess: the least `k` from there on
with the value below `10 ^ k`. -/
def Binary.scaleFrom (value : Binary) (guess : Int) : Nat → Int
  | 0 => guess
  | fuel + 1 =>
    if compareScaled 1 guess value.significand value.exponent == .gt then guess
    else value.scaleFrom (guess + 1) fuel

/-- The power of ten just above the value. The first guess is at most one too small. -/
def Binary.scale (value : Binary) : Int :=
  let log2 : Int := value.significand.log2 + value.exponent
  value.scaleFrom (log2 * 1233 / 4096 - 1) 8

def stripZeros : Nat → Scientific → Scientific
  | 0, decimal => decimal
  | fuel + 1, decimal =>
    if decimal.digits ≠ 0 && decimal.digits % 10 == 0 then
      stripZeros fuel ⟨decimal.digits / 10, decimal.exponent + 1⟩
    else decimal

def Binary.shortest (value : Binary) : Scientific :=
  let scale := value.scale
  let found := (List.range 17).findSome? fun (count : Nat) => value.onGrid? (scale - (count + 1 : Int))
  stripZeros 20 (found.getD ⟨value.floorAt (scale - 17), scale - 17⟩)

end TreeQuery.Decimal
