import Reckon.Proofs.Pending

namespace Reckon.Postfix

def waiting (os : List Operator) : List Pending :=
  os.map fun o => .operator (.listed o)

def Rests (rank : Rank) : List Pending → Prop
  | [] | .leftParen :: _ => True
  | .operator (.listed top) :: _ =>
    ∀ o : Operator, rank.level ≤ o.precedence → top.precedes o = false
  | _ => False

theorem Rests.mono {loose tight : Rank} (le : loose.level ≤ tight.level) {stack : List Pending}
    (h : Rests loose stack) : Rests tight stack := by
  match stack, h with
  | [], _ | .leftParen :: _, _ => trivial
  | .operator (.listed top) :: _, h => exact fun o ho => h o (Nat.le_trans le ho)

theorem popBefore_rests {stack : List Pending} {o : Operator} (h : Rests o.rank stack) :
    popBefore (.listed o) stack = .ok ([], stack) := by
  match stack, h with
  | [], _ | .leftParen :: _, _ => rfl
  | .operator (.listed top) :: _, h =>
    simp [popBefore, precedes, h o (Nat.le_of_eq o.level_rank)]

theorem popBefore_waiting {os : List Operator} {o : Operator}
    (h : ∀ x ∈ os, x.precedes o = true) {stack : List Pending}
    (rests : popBefore (.listed o) stack = .ok ([], stack)) :
    popBefore (.listed o) (waiting os ++ stack) = .ok (released (waiting os), stack) := by
  induction os with
  | nil => exact rests
  | cons x os ih =>
    have hx := h x (by simp)
    have := ih fun y hy => h y (by simp [hy])
    simp only [waiting] at this
    simp [waiting, popBefore, precedes, hx, this, released]

theorem leftParen_not_mem_waiting (os : List Operator) : .leftParen ∉ waiting os := by
  simp [waiting]

/-- On `stack`, `ts` are put out in the order of `t` but for operators of the class `rank`, which
wait for their right operands to end. -/
def Yields (rank : Rank) (stack : List Pending) (ts : List Token) (t : Expr) : Prop :=
  ∃ out os, advance stack ts = .ok (out, waiting os ++ stack) ∧
    out ++ released (waiting os) = t.ordered ∧ ∀ o ∈ os, rank.level ≤ o.precedence

theorem Yields.binary {o : Operator} {stack : List Pending} (rests : Rests o.rank stack)
    (hl : Yields o.leftRank stack ls l)
    (hr : Yields o.rightRank (.operator (.listed o) :: stack) rs r) :
    Yields o.rank stack (ls ++ .operator (.listed o) :: rs) (.binary o l r) := by
  obtain ⟨outl, osl, runl, orderl, tightl⟩ := hl
  obtain ⟨outr, osr, runr, orderr, tightr⟩ := hr
  have pop := popBefore_waiting (fun x hx => Operator.precedes_of_leftRank (tightl x hx))
    (popBefore_rests rests)
  refine ⟨outl ++ (released (waiting osl) ++ outr), osr ++ [o], ?_, ?_, ?_⟩
  · have concat :
        waiting (osr ++ [o]) ++ stack = waiting osr ++ .operator (.listed o) :: stack := by
      simp [waiting]
    simp [advance_append, runl, advance, step, pop, runr, concat]
  · simp [waiting, released, released_append, Expr.ordered, ← orderl, ← orderr]
  · intro x hx
    rcases List.mem_append.1 hx with hx | hx
    · exact Nat.le_trans (by cases o <;> decide) (tightr x hx)
    · obtain rfl := List.mem_singleton.1 hx
      exact Nat.le_of_eq x.level_rank

theorem Rests.right {o : Operator} (stack : List Pending) :
    Rests o.rightRank (.operator (.listed o) :: stack) :=
  fun _ h => Operator.not_precedes_of_rightRank h

theorem advance_function (stack : List Pending) (f : Named Func) (ts : List Token) :
    advance stack (.function f :: ts) = advance (.function f :: stack) ts := by
  simp only [advance, step, ok_bind]
  cases advance (.function f :: stack) ts <;> rfl

theorem Yields.group {stack below : List Pending} {call : List Token}
    (close : popGroup (.leftParen :: stack) = .ok (call, below))
    (h : Yields .sum (.leftParen :: stack) ts t) :
    advance stack (.leftParen :: ts ++ [.rightParen]) = .ok (t.ordered ++ call, below) := by
  obtain ⟨out, os, run, order, -⟩ := h
  simp [advance, advance_append, step, run, popGroup_append (leftParen_not_mem_waiting os), close,
    ← order]

theorem yields_of_derives (h : Derives rank ts t) {stack : List Pending}
    (rests : Rests rank stack) : Yields rank stack ts t := by
  induction h using Derives.induction generalizing stack with
  | number v => exact ⟨[.number v], [], rfl, rfl, by simp⟩
  -- An open parenthesis on top lets every class rest, so that the content may be of any.
  | group h ih =>
    have close : popGroup (.leftParen :: stack) = .ok ([], stack) := by
      match stack, rests with
      | [], _ | .leftParen :: _, _ | .operator (.listed top) :: _, _ => rfl
    have := Yields.group close (ih trivial)
    exact ⟨_, [], this, by simp [waiting, released], by simp⟩
  | @call f ts t h ih =>
    have := @Yields.group _ _ (.function (.listed f) :: stack) _ _ rfl (ih trivial)
    refine ⟨t.ordered ++ [.function (.listed f)], [], ?_, ?_, by simp⟩
    · rw [List.cons_append, List.cons_append, advance_function, ← List.cons_append, this]
      rfl
    · simp [waiting, released, Expr.ordered]
  | binary o hl hr ihl ihr =>
    exact .binary rests (ihl (rests.mono (by cases o <;> decide))) (ihr (.right stack))
  | widen le h ih =>
    obtain ⟨out, os, run, order, tight⟩ := ih (rests.mono le)
    exact ⟨out, os, run, order, fun o ho => Nat.le_trans le (tight o ho)⟩

theorem ofTokens_derives (h : Derives rank ts t) : ofTokens ts = .ok t.ordered := by
  obtain ⟨out, os, run, order, -⟩ := @yields_of_derives _ _ _ h [] trivial
  rw [ofTokens, run_eq_advance, run, List.append_nil]
  have := popAll_eq_ok.2 ⟨leftParen_not_mem_waiting os, rfl⟩
  simp [this, order]

end Reckon.Postfix
