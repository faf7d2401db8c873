import Reckon.Number.Decimal

/-!
The decimal with the fewest digits that reads back as a given magnitude, and of those the nearest
to it. Grids of 1, 2, … 17 digits are tried in turn; a grid that has a point which reads back has
one among the two neighbours of the magnitude.
-/

namespace Reckon.Decimal

-- Powers here are those of natural numbers, whatever other powers are in scope.
attribute [local instance (high)] instPowNat

/-- The exponent `e` with `10 ^ e ≤ v < 10 ^ (e + 1)`, `v` being the positive magnitude of ordinal
`n`. -/
def magnitude (n : Nat) : Int :=
  (Nat.toDigits 10 (Number.units n * 10 ^ (324 : Nat) / Number.unit)).length - 325

def scaled (n : Nat) (g : Int) : Nat × Nat :=
  (Number.units n * 10 ^ (-g).toNat, Number.unit * 10 ^ g.toNat)

def round (n : Nat) (g : Int) : Decimal :=
  ⟨Number.roundDiv (scaled n g).1 (scaled n g).2, g⟩

def onGrid (n : Nat) (g : Int) : Option Decimal :=
  let below := (scaled n g).1 / (scaled n g).2
  let near := (round n g).digits
  let far := if near = below then below + 1 else below
  [⟨near, g⟩, ⟨far, g⟩].find? (·.ordinal = n)

def exact (n : Nat) : Decimal :=
  ⟨Number.units n * 5 ^ (1074 : Nat), -1074⟩

def shortest (n : Nat) : Decimal :=
  if n = 0 then ⟨0, 0⟩
  else
    let e := magnitude n
    (((List.range 17).findSome? fun k : Nat => onGrid n (e - k)).getD (exact n)).trim

end Reckon.Decimal
