import Reckon.Evaluate
import Reckon.Proofs.Balance
import Reckon.Proofs.Operands

namespace Reckon

namespace Postfix

open Token

def mismatched : Failure := .evaluation (.parse .mismatchedParentheses)

theorem popBefore_comparable {stack : List Pending}
    (comparable : ∀ t ∈ released stack, t.IsComparable) (o : Operator) :
    ∃ r, popBefore (.listed o) stack = .ok r := by
  induction stack with
  | nil => exact ⟨_, rfl⟩
  | cons x stack ih =>
    cases x with
    | leftParen => exact ⟨_, rfl⟩
    | function f => exact ⟨_, rfl⟩
    | operator top =>
      rw [released, List.forall_mem_cons] at comparable
      obtain ⟨r, pop⟩ := ih comparable.2
      cases top with
      | listed top => cases before : top.precedes o <;> simp [popBefore, precedes, before, pop]
      | unlisted s => exact comparable.1.elim

theorem popGroup_error {stack : List Pending} (h : popGroup stack = .error f) : f = mismatched := by
  fun_induction popGroup stack with
  | case1 => cases h; rfl
  | case2 => cases h
  | case3 => cases h
  | case4 o below ih => exact ih (map_eq_error.1 h)
  | case5 g below ih => exact ih (map_eq_error.1 h)

theorem popAll_error {stack : List Pending} (h : popAll stack = .error f) : f = mismatched := by
  fun_induction popAll stack with
  | case1 => cases h
  | case2 => cases h; rfl
  | case3 o below ih => exact ih (map_eq_error.1 h)
  | case4 g below ih => exact ih (map_eq_error.1 h)

theorem step_error {stack : List Pending} (stacked : ∀ t ∈ released stack, t.IsComparable)
    (comparable : t.IsComparable) (h : step stack t = .error f) :
    f = mismatched ∨ t.kind = .unknown ∧ f = .evaluation (.parse (.unexpectedToken t)) := by
  cases t with
  | number v => cases h
  | operator o =>
    cases o with
    | listed o =>
      obtain ⟨r, pop⟩ := popBefore_comparable stacked o
      simp [step, pop] at h
    | unlisted s => exact comparable.elim
  | function f => cases h
  | leftParen s => cases h
  | rightParen s => exact .inl (popGroup_error h)
  | comma s => cases h
  | unknown s => cases h; exact .inr ⟨rfl, rfl⟩

theorem step_released {p : Token → Prop} {stack below : List Pending} {out : List Token}
    (stacked : ∀ t ∈ released stack, p t) (one : p t) (h : step stack t = .ok (out, below)) :
    ∀ u ∈ released below, p u := by
  intro u mem
  have := (step_perm h).mem_iff.1 (List.mem_append_right out mem)
  rcases List.mem_append.1 this with old | new
  · exact stacked u old
  · rwa [List.mem_singleton.1 (List.mem_filter.1 new).1]

/-- Where operators can be compared, only parentheses and unknown tokens are refused. -/
theorem run_error {stack : List Pending} {ts : List Token}
    (stacked : ∀ t ∈ released stack, t.IsComparable) (comparable : ∀ t ∈ ts, t.IsComparable)
    (h : run stack ts = .error f) :
    f = mismatched ∨ ∃ t ∈ ts, t.kind = .unknown ∧ f = .evaluation (.parse (.unexpectedToken t)) := by
  induction ts generalizing stack with
  | nil => exact .inl (popAll_error h)
  | cons t ts ih =>
    rw [List.forall_mem_cons] at comparable
    rw [List.exists_mem_cons_iff]
    rcases bind_eq_error.1 h with h | ⟨⟨out, below⟩, one, h⟩
    · exact (step_error stacked comparable.1 h).imp_right .inl
    · rcases bind_eq_error.1 h with h | ⟨more, -, h⟩
      · exact (ih (step_released stacked comparable.1 one) comparable.2 h).imp_right .inr
      · cases h

theorem ofTokens_error {ts : List Token} (comparable : ∀ t ∈ ts, t.IsComparable)
    (known : ∀ t ∈ ts, t.kind ≠ .unknown) (h : ofTokens ts = .error f) : f = mismatched := by
  refine (run_error (by simp [released]) comparable h).resolve_right ?_
  rintro ⟨t, mem, unknown, -⟩
  exact known t mem unknown

theorem ofTokens_plain {ts out : List Token} (plain : ∀ t ∈ ts, Plain t)
    (h : ofTokens ts = .ok out) : ∀ t ∈ out, Plain t := by
  intro t mem
  have := (run_perm h).mem_iff.1 mem
  rw [released, List.nil_append] at this
  exact plain t (List.mem_filter.1 this).1

theorem ofTokens_isListed {ts out : List Token} (plain : ∀ t ∈ ts, Plain t)
    (h : ofTokens ts = .ok out) : ∀ t ∈ out, t.IsListed := by
  intro t mem
  cases ofTokens_plain plain h t mem <;> trivial

end Postfix

theorem finite_eq_ok : finite v = .ok w ↔ v.isFinite ∧ v = w := by
  unfold finite
  split <;> simp_all

theorem lexed_eq_ok {r : Except LexError α} {a : α} : lexed r = .ok a ↔ r = .ok a := by
  cases r <;> simp [lexed, Except.mapError]

theorem lexed_eq_error {r : Except LexError α} :
    lexed r = .error f ↔ ∃ e, r = .error e ∧ f = .evaluation (.lex e) := by
  cases r <;> simp [lexed, Except.mapError, eq_comm]

theorem evaluate_eq_ok :
    evaluate s = .ok v ↔ ∃ ts out, tokenize s = .ok ts ∧ Postfix.ofTokens ts = .ok out ∧
      Postfix.eval out = .ok v ∧ v.isFinite := by
  constructor
  · intro h
    obtain ⟨ts, scan, h⟩ := bind_eq_ok.1 h
    obtain ⟨out, order, h⟩ := bind_eq_ok.1 h
    obtain ⟨w, value, h⟩ := bind_eq_ok.1 h
    obtain ⟨small, rfl⟩ := finite_eq_ok.1 h
    exact ⟨ts, out, lexed_eq_ok.1 scan, order, value, small⟩
  · rintro ⟨ts, out, scan, order, value, small⟩
    simp [evaluate, scan, order, value, lexed, Except.mapError, finite, small]

theorem isFinite_of_evaluate (h : evaluate s = .ok v) : v.isFinite := by
  obtain ⟨ts, out, -, -, -, finite⟩ := evaluate_eq_ok.1 h
  exact finite

theorem evaluate_error (h : evaluate s = .error f) : ∃ e, f = .evaluation e := by
  rcases bind_eq_error.1 h with h | ⟨ts, scan, h⟩
  · obtain ⟨e, -, rfl⟩ := lexed_eq_error.1 h
    exact ⟨_, rfl⟩
  · have plain := Token.plain_of_tokenize (lexed_eq_ok.1 scan)
    rcases bind_eq_error.1 h with h | ⟨out, order, h⟩
    · exact ⟨_, Postfix.ofTokens_error (fun t mem => (plain t mem).isComparable)
        (fun t mem => (plain t mem).kind_ne_unknown) h⟩
    · rcases bind_eq_error.1 h with h | ⟨v, -, h⟩
      · obtain ⟨e, rfl⟩ := Postfix.eval_error (Postfix.ofTokens_isListed plain order) h
        exact ⟨_, rfl⟩
      · rw [finite] at h
        split at h <;> cases h
        exact ⟨_, rfl⟩

end Reckon
