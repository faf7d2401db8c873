import Reckon.Proofs.Operands
import Reckon.Proofs.Balance

namespace Reckon.Postfix

theorem popBefore_below {p q : List Pending} {out : List Token}
    (h : popBefore o p = .ok (out, q)) (below : List Pending) :
    popBefore o (p ++ .leftParen :: below) = .ok (out, q ++ .leftParen :: below) := by
  induction p generalizing out with
  | nil => cases h; rfl
  | cons x p ih =>
    cases x with
    | leftParen => cases h; rfl
    | function f => cases h; rfl
    | operator top =>
      rw [popBefore] at h
      rw [List.cons_append, popBefore]
      cases before : precedes top o with
      | error f => rw [before] at h; cases h
      | ok b =>
        rw [before] at h
        cases b with
        | false => cases h; rfl
        | true =>
          obtain ⟨⟨more, rest⟩, pop, eq⟩ := map_eq_ok.1 h
          cases eq
          simp [ih pop]

theorem popGroup_below {p q : List Pending} {out : List Token}
    (h : popGroup p = .ok (out, q)) (below : List Pending) :
    popGroup (p ++ .leftParen :: below) = .ok (out, q ++ .leftParen :: below) := by
  fun_induction popGroup p generalizing out with
  | case1 => cases h
  | case2 f rest => cases h; rfl
  | case3 rest plain =>
    cases h
    cases q with
    | nil => rfl
    | cons x q =>
      cases x with
      | function f => exact absurd rfl (plain f q)
      | operator o => rfl
      | leftParen => rfl
  | case4 o rest ih =>
    obtain ⟨⟨more, rest⟩, pop, eq⟩ := map_eq_ok.1 h
    cases eq
    simp [popGroup, ih pop]
  | case5 f rest ih =>
    obtain ⟨⟨more, rest⟩, pop, eq⟩ := map_eq_ok.1 h
    cases eq
    simp [popGroup, ih pop]

theorem step_below {p q : List Pending} {out : List Token} (h : step p t = .ok (out, q))
    (below : List Pending) :
    step (p ++ .leftParen :: below) t = .ok (out, q ++ .leftParen :: below) := by
  cases t with
  | number v => cases h; rfl
  | function f => cases h; rfl
  | operator o =>
    obtain ⟨⟨popped, rest⟩, pop, eq⟩ := map_eq_ok.1 h
    cases eq
    simp [step, popBefore_below pop]
  | leftParen s => cases h; rfl
  | rightParen s => exact popGroup_below h below
  | comma s => cases h; rfl
  | unknown s => cases h

theorem advance_below {p q : List Pending} {ts out : List Token}
    (h : advance p ts = .ok (out, q)) (below : List Pending) :
    advance (p ++ .leftParen :: below) ts = .ok (out, q ++ .leftParen :: below) := by
  induction ts generalizing p out with
  | nil => cases h; rfl
  | cons t ts ih =>
    obtain ⟨⟨first, mid⟩, one, h⟩ := bind_eq_ok.1 h
    obtain ⟨⟨more, last⟩, rest, h⟩ := bind_eq_ok.1 h
    cases h
    simp [advance, step_below one, ih rest]

theorem run_group {ts out : List Token} (h : ofTokens ts = .ok out) (stack : List Pending)
    (rest : List Token) :
    run stack (.leftParen :: ts ++ .rightParen :: rest) = do
      let (call, below) ← popGroup (.leftParen :: stack)
      return out ++ (call ++ (← run below rest)) := by
  rw [ofTokens, run_eq_advance] at h
  obtain ⟨⟨first, p⟩, ahead, h⟩ := bind_eq_ok.1 h
  obtain ⟨last, pop, h⟩ := bind_eq_ok.1 h
  obtain ⟨closed, rfl⟩ := popAll_eq_ok.1 pop
  cases h
  have inside := advance_below ahead stack
  rw [List.nil_append] at inside
  have group : advance stack (.leftParen :: ts) = .ok (first, p ++ .leftParen :: stack) := by
    simp [advance, step, inside]
  rw [run_append, group]
  simp only [ok_bind, run, step, popGroup_append closed]
  cases popGroup (.leftParen :: stack) with
  | error f => rfl
  | ok r =>
    simp only [map_ok, ok_bind]
    cases run r.2 rest <;> simp

theorem eval_append_of_eval {ts : List Token} (h : eval ts = .ok v) (front rest : List Token) :
    eval (front ++ (ts ++ rest)) = eval (front ++ .number v :: rest) := by
  have value (stack : List Float) : ts.foldlM apply stack = .ok (v :: stack) :=
    foldlM_frame (foldlM_of_eval h) stack
  simp only [eval, List.foldlM_append, value]
  rfl

def compute (ts : List Token) : Except Failure Float := ofTokens ts >>= eval

variable {ts out : List Token}

theorem compute_group (order : ofTokens ts = .ok out) (value : eval out = .ok v)
    (front rest : List Token) :
    compute (front ++ (.leftParen :: ts ++ .rightParen :: rest)) =
      compute (front ++ (.leftParen :: [.number v] ++ .rightParen :: rest)) := by
  have number : ofTokens [.number v] = .ok [.number v] := rfl
  simp only [compute, ofTokens, run_append, run_group order, run_group number]
  cases advance [] front with
  | error f => rfl
  | ok r =>
    simp only [ok_bind]
    cases popGroup (.leftParen :: r.2) with
    | error f => rfl
    | ok s =>
      simp only [ok_bind]
      cases run s.2 rest with
      | error f => rfl
      | ok more => exact eval_append_of_eval value _ _

theorem compute_group_front (order : ofTokens ts = .ok out) (value : eval out = .ok v)
    (rest : List Token) :
    compute (.leftParen :: ts ++ .rightParen :: rest) = compute (.number v :: rest) := by
  simp only [compute, ofTokens, run_group order, run, step, popGroup, ok_bind]
  cases run [] rest with
  | error f => rfl
  | ok more => exact eval_append_of_eval value [] more

end Reckon.Postfix
