/-!
Binary64 numbers by their bits. Every finite magnitude is a natural number of units of `2 ^ -1074`,
the smallest positive number, so magnitudes are compared, divided and rounded as natural numbers.
The ordinal of a magnitude is its place among all of them, and is what the low 63 bits hold.
-/

namespace Reckon.Number

-- Powers here are those of natural numbers, whatever other powers are in scope.
attribute [local instance (high)] instPowNat

def binade : Nat := 2 ^ (52 : Nat)

def signBit : Nat := 2 ^ (63 : Nat)

/-- The `n`-th magnitude from zero upwards, in units of `2 ^ -1074`. -/
def units (n : Nat) : Nat :=
  if n < binade then n else (binade + n % binade) * 2 ^ (n / binade - 1)

def unit : Nat := 2 ^ (1074 : Nat)

def infinity : Nat := 2047 * binade

def roundDiv (num den : Nat) : Nat :=
  let quotient := num / den
  let rest := num % den
  if 2 * rest < den then quotient
  else if den < 2 * rest then quotient + 1
  else quotient + quotient % 2

/--
The ordinal of the magnitude nearest to `num / den` units, a half going to the even ordinal. The
magnitudes near a quotient of `53 + e` bits are `2 ^ e` units apart, and an ordinal has the parity
of its significand.
-/
def nearest (num den : Nat) : Nat :=
  let e := (num / den).log2 - 52
  min infinity (e * binade + roundDiv num (den * 2 ^ e))

def isNegative (v : Float) : Bool :=
  signBit ≤ v.toBits.toNat

def ordinal (v : Float) : Nat :=
  v.toBits.toNat % signBit

def ofOrdinal (negative : Bool) (n : Nat) : Float :=
  Float.ofBits (UInt64.ofNat (if negative then signBit + n else n))

def notANumber : Float := Float.ofBits 0x7ff8000000000000

/--
What a division truncated toward zero leaves, exactly and with the sign of the dividend. An infinite
divisor exceeds every finite dividend and leaves it as it is.
-/
def remainder (x y : Float) : Float :=
  if x.isNaN || y.isNaN || x.isInf || y == 0 then notANumber
  else ofOrdinal (isNegative x) (nearest (units (ordinal x) % units (ordinal y)) 1)

theorem roundDiv_one (n : Nat) : roundDiv n 1 = n := by
  simp [roundDiv, Nat.mod_one]

theorem nearest_le_infinity (num den : Nat) : nearest num den ≤ infinity :=
  Nat.min_le_left ..

end Reckon.Number
