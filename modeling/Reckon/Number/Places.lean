import Reckon.Number.Layout

namespace Reckon.Places

-- Powers here are those of natural numbers, whatever other powers are in scope.
attribute [local instance (high)] instPowNat

def sign (v : Float) : List Char :=
  if Number.isNegative v then ['-'] else []

def fixed (places : Nat) (v : Float) : List Char :=
  sign v ++ (Decimal.round (Number.ordinal v) (-places)).positional

def scientific (places : Nat) (v : Float) : List Char :=
  let n := Number.ordinal v
  let e := if n = 0 then 0 else Decimal.magnitude n
  let d := Decimal.round n (e - places)
  let carried : Decimal := if d.digits = 10 ^ (places + 1) then ⟨10 ^ places, d.exponent + 1⟩ else d
  if n = 0 then sign v ++ ['0', '.'] ++ List.replicate places '0' ++ ['e', '+', '0', '0']
  else sign v ++ carried.scientific

end Reckon.Places
