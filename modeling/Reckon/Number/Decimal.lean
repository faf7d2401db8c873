import Reckon.Number.Binary

namespace Reckon

structure Decimal where
  digits : Nat
  exponent : Int
  deriving DecidableEq, Repr

namespace Decimal

-- Powers here are those of natural numbers, whatever other powers are in scope.
attribute [local instance (high)] instPowNat

def num (d : Decimal) : Nat :=
  d.digits * 10 ^ d.exponent.toNat

def den (d : Decimal) : Nat :=
  10 ^ (-d.exponent).toNat

/-- The ordinal of the magnitude that `d` reads as. -/
def ordinal (d : Decimal) : Nat :=
  Number.nearest (d.num * Number.unit) d.den

def toFloat (negative : Bool) (d : Decimal) : Float :=
  Number.ofOrdinal negative d.ordinal

def ofRun (run : List Char) : Decimal :=
  let whole := run.takeWhile (· ≠ '.')
  let fraction := (run.dropWhile (· ≠ '.')).drop 1
  ⟨Nat.ofDigitChars 10 (whole ++ fraction) 0, -(fraction.length : Int)⟩

def trim (d : Decimal) : Decimal :=
  if d.digits ≠ 0 ∧ d.digits % 10 = 0 then trim ⟨d.digits / 10, d.exponent + 1⟩ else d
termination_by d.digits
decreasing_by grind

end Decimal

end Reckon
