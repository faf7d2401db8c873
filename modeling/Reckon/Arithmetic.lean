import Reckon.Error

namespace Reckon

/-- Powers. The square, the square root and the reciprocal are correctly rounded; the root keeps the
sign of zero and is NaN for negative infinity. -/
def power (x y : Float) : Float :=
  if y == 2 then x * x
  else if y == 0.5 then x.sqrt
  else if y == -1 then 1 / x
  else x.pow y

def Operator.apply : Operator → Float → Float → Except DomainError Float
  | .add, x, y => .ok (x + y)
  | .sub, x, y => .ok (x - y)
  | .mul, x, y => .ok (x * y)
  | .div, x, y => if y == 0 then .error .divisionByZero else .ok (x / y)
  | .mod, x, y => .ok (Number.remainder x y)
  | .pow, x, y => .ok (power x y)

def Func.apply : Func → Float → Except DomainError Float
  | .sin, x => .ok x.sin
  | .cos, x => .ok x.cos
  | .tan, x => .ok x.tan
  | .sqrt, x => if x < 0 then .error .sqrt else .ok x.sqrt
  | .ln, x => if x ≤ 0 then .error .ln else .ok x.log
  | .log10, x => if x ≤ 0 then .error .log10 else .ok x.log10

end Reckon
