import Reckon.Evaluator
import Reckon.Number.Decimal

namespace Reckon

inductive Datum (α : Type)
  | integer : Int → Datum α
  | real : Float → Datum α
  | missing : Datum α
  | object : α → Datum α

abbrev Column (α : Type) := List (Input (Datum α))

namespace Column

def integer? : Input (Datum α) → Option Int
  | .other (.integer n) => some n
  | _ => none

def isNumeric : Input (Datum α) → Bool
  | .text _ | .other (.object _) => false
  | _ => true

def isMissing : Input (Datum α) → Bool
  | .other .missing => true
  | _ => false

def toReal : Input (Datum α) → Input (Datum α)
  | .other (.integer n) => .other (.real (Decimal.toFloat (n < 0) ⟨n.natAbs, 0⟩))
  | x => x

def fit (ns : List Int) : Bool :=
  ns.all (fun n => -Number.signBit ≤ n && n < 2 * Number.signBit) &&
    !(ns.any (· < 0) && ns.any (Number.signBit ≤ ·))

/-- Whether integers are rounded: all values are numbers or missing and not all are integers. It is
given up at an integer that does not fit, but none is looked at behind a missing value. -/
def rounds (xs : Column α) : Bool :=
  xs.all isNumeric && xs.any (fun x => (integer? x).isNone) &&
    fit ((xs.takeWhile fun x => !isMissing x).filterMap integer?)

def tabled (xs : Column α) : Column α :=
  if xs.rounds then xs.map toReal else xs

end Column

structure Frame (β α : Type) where
  labels : List β
  expressions : Column α
  results : List Float
  errors : List (Option String)

namespace Frame

def ofRows (rows : List (Row β (Datum α))) : Frame β α where
  labels := rows.map Row.label
  expressions := Column.tabled (rows.map Row.expression)
  results := rows.map fun r => r.result?.getD Number.notANumber
  errors := rows.map Row.error?

end Frame

def Evaluator.frame (e : Evaluator) (xs : List (β × Input (Datum α))) :
    Except Failure (Frame β α) × Evaluator :=
  ((e.many xs).1.map Frame.ofRows, (e.many xs).2)

end Reckon
