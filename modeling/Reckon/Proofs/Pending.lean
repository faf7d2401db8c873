import Reckon.Proofs.Derivation
import Reckon.Proofs.Except

namespace Reckon.Postfix

def advance (stack : List Pending) : List Token → Except Failure (List Token × List Pending)
  | [] => .ok ([], stack)
  | t :: ts => do
    let (out, stack) ← step stack t
    let (more, stack) ← advance stack ts
    return (out ++ more, stack)

theorem advance_append (stack : List Pending) (ts us : List Token) :
    advance stack (ts ++ us) = do
      let (out, stack) ← advance stack ts
      let (more, stack) ← advance stack us
      return (out ++ more, stack) := by
  induction ts generalizing stack with
  | nil => cases h : advance stack us <;> simp [advance, h]
  | cons t ts ih =>
    simp only [List.cons_append, advance]
    cases step stack t with
    | error f => rfl
    | ok r =>
      simp only [ok_bind, ih]
      cases advance r.2 ts with
      | error f => rfl
      | ok r' =>
        simp only [ok_bind, pure_eq_ok]
        cases advance r'.2 us <;> simp

theorem run_eq_advance (stack : List Pending) (ts : List Token) :
    run stack ts = do
      let (out, stack) ← advance stack ts
      return out ++ (← popAll stack) := by
  induction ts generalizing stack with
  | nil => cases h : popAll stack <;> simp [run, advance, h]
  | cons t ts ih =>
    simp only [run, advance]
    cases step stack t with
    | error f => rfl
    | ok r =>
      simp only [ok_bind, ih]
      cases advance r.2 ts with
      | error f => rfl
      | ok r' =>
        simp only [ok_bind, pure_eq_ok]
        cases popAll r'.2 <;> simp

theorem run_append (stack : List Pending) (ts us : List Token) :
    run stack (ts ++ us) = do
      let (out, stack) ← advance stack ts
      return out ++ (← run stack us) := by
  simp only [run_eq_advance, advance_append]
  cases advance stack ts with
  | error f => rfl
  | ok r =>
    simp only [ok_bind]
    cases advance r.2 us with
    | error f => rfl
    | ok r' =>
      simp only [ok_bind, pure_eq_ok]
      cases popAll r'.2 <;> simp

def released : List Pending → List Token
  | [] => []
  | .operator o :: below => .operator o :: released below
  | .function f :: below => .function f :: released below
  | .leftParen :: below => released below

theorem released_append (p q : List Pending) : released (p ++ q) = released p ++ released q := by
  induction p with
  | nil => rfl
  | cons x p ih => cases x <;> simp [released, ih]

theorem popGroup_append {p : List Pending} (h : .leftParen ∉ p) (below : List Pending) :
    popGroup (p ++ .leftParen :: below) =
      (popGroup (.leftParen :: below)).map fun r => (released p ++ r.1, r.2) := by
  induction p with
  | nil => cases h : popGroup (.leftParen :: below) <;> simp [h, released]
  | cons x p ih =>
    simp only [List.mem_cons, not_or] at h
    cases x with
    | leftParen => exact absurd rfl h.1
    | operator o =>
      simp only [List.cons_append, popGroup, ih h.2]
      cases popGroup (.leftParen :: below) <;> rfl
    | function f =>
      simp only [List.cons_append, popGroup, ih h.2]
      cases popGroup (.leftParen :: below) <;> rfl

theorem popAll_eq_ok {p : List Pending} {out : List Token} :
    popAll p = .ok out ↔ .leftParen ∉ p ∧ released p = out := by
  induction p generalizing out with
  | nil => simp [popAll, released]
  | cons x p ih =>
    cases x <;> simp only [popAll, released, map_eq_ok, ih, List.mem_cons] <;> grind

end Reckon.Postfix
