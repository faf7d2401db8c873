import Reckon.Postfix

namespace Reckon

inductive Expr
  | number : Float → Expr
  | unary : Func → Expr → Expr
  | binary : Operator → Expr → Expr → Expr
  deriving DecidableEq

namespace Expr

/-- The value of a tree. The left operand comes before the right one, and the first error counts. -/
def eval : Expr → Except DomainError Float
  | .number v => .ok v
  | .unary f x => do f.apply (← x.eval)
  | .binary o l r => do
    let x ← l.eval
    let y ← r.eval
    o.apply x y

def ordered : Expr → List Token
  | .number v => [.number v]
  | .unary f x => x.ordered ++ [.function (.listed f)]
  | .binary o l r => l.ordered ++ r.ordered ++ [.operator (.listed o)]

theorem foldlM_ordered (t : Expr) (stack : List Float) :
    t.ordered.foldlM Postfix.apply stack = (Postfix.domain t.eval).map (· :: stack) := by
  induction t generalizing stack with
  | number v => rfl
  | unary f x ih =>
    simp only [ordered, eval, List.foldlM_append, ih]
    cases x.eval with
    | error e => rfl
    | ok v => cases h : f.apply v <;> simp [Postfix.apply, h, Except.map, bind, Except.bind, pure,
        Except.pure]
  | binary o l r ihl ihr =>
    simp only [ordered, eval, List.foldlM_append, ihl]
    cases l.eval with
    | error e => rfl
    | ok v =>
      simp only [Postfix.domain_ok, Except.map, bind, Except.bind, ihr]
      cases r.eval with
      | error e => rfl
      | ok w => cases h : o.apply v w <;> simp [Postfix.apply, h, Except.map, bind, Except.bind,
          pure, Except.pure]

theorem eval_ordered (t : Expr) : Postfix.eval t.ordered = Postfix.domain t.eval := by
  simp only [Postfix.eval, foldlM_ordered]
  cases t.eval <;> rfl

end Expr

end Reckon
