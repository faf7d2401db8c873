import Reckon.Expr

namespace Reckon

inductive Rank
  | sum
  | term
  | power
  | atom
  deriving DecidableEq, Repr

/-- `Derives rank ts t`: the tokens `ts` are an expression of the class `rank` with the tree `t`. -/
inductive Derives : Rank → List Token → Expr → Prop
  | add : Derives .sum ls l → Derives .term rs r →
    Derives .sum (ls ++ .operator (.listed .add) :: rs) (.binary .add l r)
  | sub : Derives .sum ls l → Derives .term rs r →
    Derives .sum (ls ++ .operator (.listed .sub) :: rs) (.binary .sub l r)
  | mul : Derives .term ls l → Derives .power rs r →
    Derives .term (ls ++ .operator (.listed .mul) :: rs) (.binary .mul l r)
  | div : Derives .term ls l → Derives .power rs r →
    Derives .term (ls ++ .operator (.listed .div) :: rs) (.binary .div l r)
  | mod : Derives .term ls l → Derives .power rs r →
    Derives .term (ls ++ .operator (.listed .mod) :: rs) (.binary .mod l r)
  | pow : Derives .atom ls l → Derives .power rs r →
    Derives .power (ls ++ .operator (.listed .pow) :: rs) (.binary .pow l r)
  | number (v : Float) : Derives .atom [.number v] (.number v)
  | group : Derives .sum ts t → Derives .atom (.leftParen :: ts ++ [.rightParen]) t
  | call (f : Func) : Derives .sum ts t →
    Derives .atom (.function (.listed f) :: .leftParen :: ts ++ [.rightParen]) (.unary f t)
  | ofTerm : Derives .term ts t → Derives .sum ts t
  | ofPower : Derives .power ts t → Derives .term ts t
  | ofAtom : Derives .atom ts t → Derives .power ts t

theorem Derives.ne_nil (h : Derives rank ts t) : ts ≠ [] := by
  induction h <;> simp_all

end Reckon
