import Reckon.Proofs.Pending
import Reckon.Proofs.Gaps

namespace Reckon.Postfix

open Token

def inPostfixOrder (t : Token) : Bool := t.kind ∈ TokenKind.inPostfixOrder

theorem popBefore_released {stack below : List Pending} {out : List Token}
    (h : popBefore o stack = .ok (out, below)) :
    released stack = out ++ released below ∧ stack.count .leftParen = below.count .leftParen := by
  induction stack generalizing out with
  | nil => simp_all [popBefore]
  | cons x stack ih =>
    cases x with
    | leftParen => simp_all [popBefore]
    | function f => simp_all [popBefore]
    | operator top =>
      rw [popBefore] at h
      split at h
      · cases h
      · cases h
        simp
      · obtain ⟨⟨more, rest⟩, pop, eq⟩ := map_eq_ok.1 h
        cases eq
        simpa [released] using ih pop

theorem popGroup_released {stack below : List Pending} {out : List Token}
    (h : popGroup stack = .ok (out, below)) :
    released stack = out ++ released below ∧
    stack.count .leftParen = below.count .leftParen + 1 := by
  fun_induction popGroup stack generalizing out with
  | case1 => cases h
  | case2 => cases h; simp [released]
  | case3 => cases h; simp [released]
  | case4 o rest ih =>
    obtain ⟨⟨more, rest⟩, pop, eq⟩ := map_eq_ok.1 h
    cases eq
    simpa [released] using ih pop
  | case5 f rest ih =>
    obtain ⟨⟨more, rest⟩, pop, eq⟩ := map_eq_ok.1 h
    cases eq
    simpa [released] using ih pop

theorem step_perm {stack below : List Pending} {out : List Token}
    (h : step stack t = .ok (out, below)) :
    (out ++ released below).Perm (released stack ++ [t].filter inPostfixOrder) := by
  cases t with
  | number v =>
    cases h
    exact (List.perm_append_singleton _ _).symm
  | operator o =>
    obtain ⟨⟨popped, rest⟩, pop, eq⟩ := map_eq_ok.1 h
    cases eq
    rw [(popBefore_released pop).1, List.append_assoc]
    exact (List.perm_append_singleton _ _).symm.append_left popped
  | function f =>
    cases h
    exact (List.perm_append_singleton _ _).symm
  | leftParen s => cases h; simp [released, inPostfixOrder, kind, TokenKind.inPostfixOrder]
  | rightParen s =>
    rw [(popGroup_released h).1]
    simp [inPostfixOrder, kind, TokenKind.inPostfixOrder]
  | comma s => cases h; simp [inPostfixOrder, kind, TokenKind.inPostfixOrder]
  | unknown s => cases h

/-- The output holds what is on the stack and the numbers, operators and functions to come, each as
often. -/
theorem run_perm {stack : List Pending} {ts out : List Token} (h : run stack ts = .ok out) :
    out.Perm (released stack ++ ts.filter inPostfixOrder) := by
  induction ts generalizing stack out with
  | nil => simp [(popAll_eq_ok.1 h).2]
  | cons t ts ih =>
    obtain ⟨⟨first, below⟩, one, h⟩ := bind_eq_ok.1 h
    obtain ⟨more, rest, h⟩ := bind_eq_ok.1 h
    cases h
    calc first ++ more
      _ |>.Perm (first ++ (released below ++ ts.filter inPostfixOrder)) := (ih rest).append_left _
      _ = (first ++ released below) ++ ts.filter inPostfixOrder := by rw [List.append_assoc]
      _ |>.Perm _ := (step_perm one).append_right _
      _ = _ := by rw [List.append_assoc, ← List.filter_append]; rfl

theorem inPostfixOrder_of_isNumber {t : Token} (h : t.isNumber) : inPostfixOrder t := by
  cases t with
  | number v => rfl
  | operator o | function f | leftParen s | rightParen s | comma s | unknown s => cases h

theorem inPostfixOrder_of_isOperator {t : Token} (h : t.isOperator) : inPostfixOrder t := by
  cases t with
  | operator o => rfl
  | number v | function f | leftParen s | rightParen s | comma s | unknown s => cases h

theorem countP_of_run {p : Token → Bool} (keeps : ∀ t, p t → inPostfixOrder t)
    {ts out : List Token} (h : run [] ts = .ok out) : out.countP p = ts.countP p := by
  rw [(run_perm h).countP_eq, released, List.nil_append, List.countP_filter]
  apply List.countP_congr
  intro t _
  simpa using keeps t

theorem closes_of_step {stack below : List Pending} {out : List Token}
    (h : step stack t = .ok (out, below)) {ts : List Token} :
    closes (stack.count .leftParen) (t :: ts) = closes (below.count .leftParen) ts := by
  cases t with
  | number v => cases h; rfl
  | operator o =>
    obtain ⟨⟨popped, rest⟩, pop, eq⟩ := map_eq_ok.1 h
    cases eq
    simp [closes, (popBefore_released pop).2]
  | function f => cases h; simp [closes]
  | leftParen s => cases h; simp [closes]
  | rightParen s => simp [closes, (popGroup_released h).2]
  | comma s => cases h; rfl
  | unknown s => cases h

theorem closes_of_run {stack : List Pending} {ts out : List Token} (h : run stack ts = .ok out) :
    closes (stack.count .leftParen) ts := by
  induction ts generalizing stack out with
  | nil => simp [closes, List.count_eq_zero.2 (popAll_eq_ok.1 h).1]
  | cons t ts ih =>
    obtain ⟨⟨first, below⟩, one, h⟩ := bind_eq_ok.1 h
    obtain ⟨more, rest, -⟩ := bind_eq_ok.1 h
    rw [closes_of_step one]
    exact ih rest

theorem run_filter_comma (stack : List Pending) (ts : List Token) :
    run stack (ts.filter (!·.isComma)) = run stack ts := by
  induction ts generalizing stack with
  | nil => rfl
  | cons t ts ih =>
    cases t with
    | comma s =>
      rw [List.filter_cons_of_neg (by simp [isComma]), ih]
      simp only [run, step, ok_bind]
      cases run stack ts <;> rfl
    | number v | operator o | function f | leftParen s | rightParen s | unknown s =>
      rw [List.filter_cons_of_pos rfl]
      simp only [run, ih]

end Reckon.Postfix
