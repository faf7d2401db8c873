import Reckon.Proofs.Ordering
import Reckon.Proofs.Sequences

namespace Reckon

/-- Whether `upper` may wait on `lower`. -/
def Operator.Carries (lower upper : Operator) : Prop :=
  lower.precedence < upper.precedence ∨ lower = .pow ∧ upper = .pow

namespace Operator

variable {lower upper : Operator}

instance : Decidable (lower.Carries upper) := inferInstanceAs (Decidable (_ ∨ _))

theorem precedes_eq_false : lower.precedes upper = false ↔ lower.Carries upper := by
  cases lower <;> cases upper <;> decide

theorem precedence_pos (o : Operator) : 0 < o.precedence := by
  cases o <;> decide

theorem Carries.le (h : lower.Carries upper) : lower.precedence ≤ upper.precedence := by
  rcases h with less | ⟨rfl, rfl⟩
  · exact less.le
  · exact le_rfl

theorem Carries.eq_pow (h : lower.Carries upper) (same : lower.precedence = upper.precedence) :
    lower = .pow ∧ upper = .pow :=
  h.resolve_left same.not_lt

theorem levels_of_carries {os : List Operator} (h : os.IsChain Carries) :
    ∃ (sum term : Option Operator) (powers : Nat),
      os = sum.toList ++ term.toList ++ List.replicate powers .pow ∧
      (∀ o ∈ sum, o.precedence = 1) ∧ ∀ o ∈ term, o.precedence = 2 := by
  induction os with
  | nil => exact ⟨none, none, 0, rfl, by simp, by simp⟩
  | cons o os ih =>
    obtain ⟨next, rest⟩ := List.isChain_cons.1 h
    obtain ⟨sum, term, powers, rfl, sums, terms⟩ := ih rest
    -- What binds no tighter than `o` cannot be the next one.
    have noSum : sum = none := by
      cases sum with
      | none => rfl
      | some s =>
        have loose := sums s rfl
        rcases next s (by simp) with tight | ⟨-, rfl⟩
        · have := o.precedence_pos
          omega
        · cases loose
    have noTerm (tight : 2 ≤ o.precedence) : term = none := by
      cases term with
      | none => rfl
      | some t =>
        have loose := terms t rfl
        rcases next t (by simp [noSum]) with tighter | ⟨-, rfl⟩
        · omega
        · cases loose
    subst noSum
    cases o with
    | add | sub => exact ⟨some _, term, powers, rfl, by rintro _ ⟨⟩; rfl, terms⟩
    | mul | div | mod =>
      obtain rfl := noTerm le_rfl
      exact ⟨none, some _, powers, rfl, by simp, by rintro _ ⟨⟩; rfl⟩
    | pow =>
      obtain rfl := noTerm (by decide)
      exact ⟨none, none, powers + 1, rfl, by simp, by simp⟩

end Operator

namespace Postfix

open Token

def Above : Pending → Pending → Prop
  | .operator (.listed upper), .operator (.listed lower) => lower.Carries upper
  | _, _ => True

variable {stack below : List Pending} {out : List Token}

theorem popBefore_isChain (h : stack.IsChain Above)
    (pop : popBefore (.listed o) stack = .ok (out, below)) :
    (.operator (.listed o) :: below).IsChain Above := by
  induction stack generalizing out with
  | nil => cases pop; exact List.isChain_singleton _
  | cons x stack ih =>
    cases x with
    | leftParen | function => cases pop; exact h.cons_cons trivial
    | operator top =>
      cases top with
      | unlisted s => cases pop
      | listed top =>
        rw [popBefore, precedes] at pop
        cases before : top.precedes o with
        | false =>
          rw [before] at pop
          cases pop
          exact h.cons_cons (Operator.precedes_eq_false.1 before)
        | true =>
          rw [before] at pop
          obtain ⟨⟨more, rest⟩, popped, eq⟩ := map_eq_ok.1 pop
          cases eq
          exact ih h.of_cons popped

theorem popGroup_suffix (h : popGroup stack = .ok (out, below)) : below <:+ stack := by
  fun_induction popGroup stack generalizing out with
  | case1 => cases h
  | case2 f rest => cases h; exact (List.suffix_cons _ _).trans (List.suffix_cons _ _)
  | case3 rest => cases h; exact List.suffix_cons _ _
  | case4 o rest ih | case5 f rest ih =>
    obtain ⟨⟨more, last⟩, pop, eq⟩ := map_eq_ok.1 h
    cases eq
    exact (ih pop).trans (List.suffix_cons _ _)

theorem isChain_mark {x : Pending} (h : stack.IsChain Above) (mark : ∀ y, Above x y) :
    (x :: stack).IsChain Above :=
  List.isChain_cons.2 ⟨fun y _ => mark y, h⟩

theorem step_isChain (comparable : t.IsComparable) (h : stack.IsChain Above)
    (one : step stack t = .ok (out, below)) : below.IsChain Above := by
  cases t with
  | number v | comma s => cases one; exact h
  | function f | leftParen s => cases one; exact isChain_mark h fun _ => trivial
  | operator o =>
    obtain ⟨⟨popped, rest⟩, pop, eq⟩ := map_eq_ok.1 one
    cases eq
    cases o with
    | listed o => exact popBefore_isChain h pop
    | unlisted s => exact comparable.elim
  | rightParen s => exact h.suffix (popGroup_suffix one)
  | unknown s => cases one

theorem advance_isChain {ts : List Token} (comparable : ∀ t ∈ ts, t.IsComparable)
    (h : stack.IsChain Above) (ahead : advance stack ts = .ok (out, below)) :
    below.IsChain Above := by
  induction ts generalizing stack out with
  | nil => cases ahead; exact h
  | cons t ts ih =>
    rw [List.forall_mem_cons] at comparable
    obtain ⟨⟨first, mid⟩, one, ahead⟩ := bind_eq_ok.1 ahead
    obtain ⟨⟨more, last⟩, rest, eq⟩ := bind_eq_ok.1 ahead
    cases eq
    exact ih comparable.2 (step_isChain comparable.1 h one) rest

theorem carries_of_waiting {os : List Operator} (h : (waiting os.reverse).IsChain Above) :
    os.IsChain Operator.Carries := by
  rw [waiting, List.isChain_map, List.isChain_reverse] at h
  exact h

theorem mem_released_of_operator {o : Named Operator} (h : .operator o ∈ stack) :
    .operator o ∈ released stack := by
  induction stack with
  | nil => cases h
  | cons x stack ih =>
    rcases List.mem_cons.1 h with rfl | mem
    · exact List.mem_cons_self
    · cases x with
      | operator | function => exact List.mem_cons_of_mem _ (ih mem)
      | leftParen => exact ih mem

/-- After any tokens `front` of a sequence, the rest is read on the stack that they leave. In each
run of neighbouring operators `os` on that stack, told from its bottom, the precedences never
decrease, neighbours of the same precedence are both `^`, and so `os` is at most one of `+ -`, then
at most one of `* / %`, then any number of `^`. -/
theorem stretches_tighten {front rest : List Token}
    (comparable : ∀ t ∈ front ++ rest, t.IsComparable)
    (ahead : advance [] front = .ok (out, stack)) :
    ofTokens (front ++ rest) = (run stack rest).map (out ++ ·) ∧
    (∀ o, .operator o ∈ stack → ∃ known, o = .listed known) ∧
    ∀ above os below, stack = above ++ waiting os.reverse ++ below →
      (os.map Operator.precedence).Pairwise (· ≤ ·) ∧
      os.IsChain (fun lower upper => lower.precedence = upper.precedence →
        lower = .pow ∧ upper = .pow) ∧
      ∃ (sum term : Option Operator) (powers : Nat),
        os = sum.toList ++ term.toList ++ List.replicate powers .pow ∧
        (∀ o ∈ sum, o.precedence = 1) ∧ ∀ o ∈ term, o.precedence = 2 := by
  have listed : ∀ t ∈ front, t.IsComparable := fun t mem =>
    comparable t (List.mem_append_left _ mem)
  refine ⟨?_, fun o mem => ?_, fun above os below split => ?_⟩
  · rw [ofTokens, run_append, ahead]
    simp only [ok_bind]
    cases run stack rest <;> rfl
  · have waits := mem_released_of_operator mem
    have known := advance_released (by simp [released]) listed ahead _ waits
    cases o with
    | listed o => exact ⟨o, rfl⟩
    | unlisted s => exact known.elim
  · have chain := advance_isChain listed List.isChain_nil ahead
    rw [split] at chain
    have carries := carries_of_waiting (List.isChain_append.1 (List.isChain_append.1 chain).1).2.1
    refine ⟨?_, carries.imp fun _ _ h => h.eq_pow, Operator.levels_of_carries carries⟩
    rw [← List.isChain_iff_pairwise, List.isChain_map]
    exact carries.imp fun _ _ h => h.le

theorem stretches_tighten_powers :
    ∃ out stack, advance [] [.number 1, .operator (.listed .add), .number 2,
        .operator (.listed .mul), .leftParen, .number 3, .operator (.listed .pow),
        .operator (.listed .pow)] = .ok (out, stack) ∧
      stack = waiting [.pow, .pow] ++ .leftParen :: waiting [.mul, .add] ∧
      ([.add, .mul].map Operator.precedence).Pairwise (· ≤ ·) ∧
      ∃ (sum term : Option Operator) (powers : Nat),
        [.pow, .pow] = sum.toList ++ term.toList ++ List.replicate powers .pow ∧
        (∀ o ∈ sum, o.precedence = 1) ∧ ∀ o ∈ term, o.precedence = 2 := by
  have ahead : advance [] [.number 1, .operator (.listed .add), .number 2,
      .operator (.listed .mul), .leftParen, .number 3, .operator (.listed .pow),
      .operator (.listed .pow)] =
        .ok ([.number 1, .number 2, .number 3],
          waiting [.pow, .pow] ++ .leftParen :: waiting [.mul, .add]) := by
    simp [advance, step, popBefore, precedes, Operator.precedes, Operator.precedence,
      Operator.associativity, waiting]
  obtain ⟨-, -, runs⟩ := stretches_tighten
    (by simp [IsComparable] : ∀ t ∈ _ ++ ([] : List Token), t.IsComparable) ahead
  refine ⟨_, _, ahead, rfl, ?_, ?_⟩
  · exact (runs (waiting [.pow, .pow] ++ [.leftParen]) [.add, .mul] [] (by simp [waiting])).1
  · exact (runs [] [.pow, .pow] (.leftParen :: waiting [.mul, .add]) rfl).2.2

end Postfix

end Reckon
