import Reckon.Number.Shortest

namespace Reckon

namespace Decimal

def positional (d : Decimal) : List Char :=
  let digits := Nat.toDigits 10 d.digits
  match d.exponent with
  | .ofNat e => digits ++ List.replicate e '0'
  | .negSucc p =>
    let padded := List.replicate (p + 2 - digits.length) '0' ++ digits
    padded.take (padded.length - (p + 1)) ++ '.' :: padded.drop (padded.length - (p + 1))

def leading (d : Decimal) : Int :=
  d.exponent + (Nat.toDigits 10 d.digits).length - 1

def scientific (d : Decimal) : List Char :=
  let e := d.leading
  let size := Nat.toDigits 10 e.natAbs
  let head := match Nat.toDigits 10 d.digits with
    | first :: second :: more => first :: '.' :: second :: more
    | digits => digits
  head ++ 'e' :: (if e < 0 then '-' else '+') :: (List.replicate (2 - size.length) '0' ++ size)

end Decimal

structure Layout where
  isPositional : Int → Bool
  wholeEnd : List Char
  negativeZero : String

namespace Layout

/-- Never an exponent, nothing behind a whole number, one zero. -/
def display : Layout where
  isPositional _ := true
  wholeEnd := []
  negativeZero := "0"

/-- An exponent below `0.0001` and from `10 ^ 16` on, `.0` behind a whole number, a signed zero. -/
def record : Layout where
  isPositional e := -4 ≤ e && e < 16
  wholeEnd := ['.', '0']
  negativeZero := "-0.0"

def ofDecimal (l : Layout) (d : Decimal) : List Char :=
  if l.isPositional d.leading then
    d.positional ++ (if 0 ≤ d.exponent then l.wholeEnd else [])
  else d.scientific

def write (l : Layout) (v : Float) : String :=
  if v.isNaN then "nan"
  else if v.isInf then (if Number.isNegative v then "-inf" else "inf")
  else if Number.isNegative v then
    if v == 0 then l.negativeZero
    else String.ofList ('-' :: l.ofDecimal (Decimal.shortest (Number.ordinal v)))
  else String.ofList (l.ofDecimal (Decimal.shortest (Number.ordinal v)))

end Layout

def display (v : Float) : String :=
  Layout.display.write v

end Reckon
