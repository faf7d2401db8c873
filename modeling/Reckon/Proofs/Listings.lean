import Reckon.Proofs.Operands

namespace Reckon

namespace Expr

theorem ordered_append_inj {t u : Expr} {xs ys : List Token}
    (h : xs ++ t.ordered = ys ++ u.ordered) : xs = ys ∧ t = u := by
  induction t generalizing u xs ys with
  | number v => cases u <;> simp_all [ordered, ← List.append_assoc]
  | unary f x ih =>
    cases u with
    | number v => simp [ordered, ← List.append_assoc] at h
    | unary g y =>
      simp only [ordered, ← List.append_assoc] at h
      obtain ⟨front, last⟩ := List.append_inj' h rfl
      obtain ⟨rfl, rfl⟩ := ih front
      cases last
      exact ⟨rfl, rfl⟩
    | binary o l r => simp [ordered, ← List.append_assoc] at h
  | binary o l r ihl ihr =>
    cases u with
    | number v => simp [ordered, ← List.append_assoc] at h
    | unary g y => simp [ordered, ← List.append_assoc] at h
    | binary p l' r' =>
      simp only [ordered, ← List.append_assoc] at h
      obtain ⟨front, last⟩ := List.append_inj' h rfl
      obtain ⟨left, rfl⟩ := ihr front
      obtain ⟨rfl, rfl⟩ := ihl left
      cases last
      exact ⟨rfl, rfl⟩

theorem ordered_inj {t u : Expr} (h : t.ordered = u.ordered) : t = u :=
  (@ordered_append_inj t u [] [] h).2

theorem kind_of_mem_ordered {t : Expr} {u : Token} (h : u ∈ t.ordered) :
    u.kind ∈ TokenKind.inPostfixOrder := by
  induction t with
  | number v =>
    rw [List.mem_singleton.1 h]
    simp [Token.kind, TokenKind.inPostfixOrder]
  | unary f x ih =>
    rcases List.mem_append.1 h with h | h
    · exact ih h
    · rw [List.mem_singleton.1 h]
      simp [Token.kind, TokenKind.inPostfixOrder]
  | binary o l r ihl ihr =>
    rcases List.mem_append.1 h with h | h
    · exact (List.mem_append.1 h).elim ihl ihr
    · rw [List.mem_singleton.1 h]
      simp [Token.kind, TokenKind.inPostfixOrder]

end Expr

namespace Postfix

theorem eval_eq_ok {ts : List Token} :
    eval ts = .ok v ↔ ∃ t : Expr, ts = t.ordered ∧ t.eval = .ok v := by
  refine ⟨ordered_of_eval, ?_⟩
  rintro ⟨t, rfl, value⟩
  rw [t.eval_ordered, value, domain_ok]

theorem eval_of_no_listing {ts : List Token} (listed : ∀ t ∈ ts, t.IsListed)
    (none : ¬∃ t : Expr, ts = t.ordered) : ∃ e, eval ts = .error (.evaluation (.eval e)) := by
  cases h : eval ts with
  | ok v =>
    obtain ⟨t, order, -⟩ := eval_eq_ok.1 h
    exact absurd ⟨t, order⟩ none
  | error f =>
    obtain ⟨e, rfl⟩ := eval_error listed h
    exact ⟨e, rfl⟩

/-- Just the listings of trees with a value have one, and it is the tree's. A listing is of one tree
only and is computed as this tree: the left operand comes before the right one, and the first error
of an operation counts, while no operand is ever missing or left over. Other tokens, such as those
with a mark or an unknown token among them, end in an error of the computation. -/
theorem eval_of_listings (ts : List Token) :
    (∀ v, eval ts = .ok v ↔ ∃ t : Expr, ts = t.ordered ∧ t.eval = .ok v) ∧
    (∀ t : Expr, ts = t.ordered → (∀ u : Expr, ts = u.ordered → u = t) ∧
      eval ts = match t.eval with
        | .ok v => .ok v
        | .error e => .error (.evaluation (.eval (.domain e)))) ∧
    ((∀ t ∈ ts, t.IsListed) →
      (¬∃ t : Expr, ts = t.ordered) ∨ (∃ t ∈ ts, t.kind ∉ TokenKind.inPostfixOrder) →
      ∃ e, eval ts = .error (.evaluation (.eval e))) := by
  refine ⟨fun v => eval_eq_ok, ?_, fun listed => ?_⟩
  · rintro t rfl
    refine ⟨fun u same => Expr.ordered_inj same.symm, ?_⟩
    rw [t.eval_ordered]
    cases t.eval <;> rfl
  · rintro (none | ⟨t, mem, mark⟩)
    · exact eval_of_no_listing listed none
    · refine eval_of_no_listing listed fun ⟨tree, order⟩ => mark ?_
      exact Expr.kind_of_mem_ordered (order ▸ mem)

theorem eval_of_listings_failing :
    eval [.number (-1), .function (.listed .sqrt), .number 1, .number 0, .operator (.listed .div),
      .operator (.listed .add)] = .error (.evaluation (.eval (.domain .sqrt))) ∧
    (∃ e, eval [.number 1, .number 2] = .error (.evaluation (.eval e))) ∧
    ∃ e, eval [.number 1, .comma] = .error (.evaluation (.eval e)) := by
  refine ⟨?_, ?_, ?_⟩
  · obtain ⟨-, listing, -⟩ := eval_of_listings [.number (-1), .function (.listed .sqrt), .number 1,
      .number 0, .operator (.listed .div), .operator (.listed .add)]
    have negative : (-1 : Float) < 0 := by decide +kernel
    rw [(listing (.binary .add (.unary .sqrt (.number (-1)))
      (.binary .div (.number 1) (.number 0))) rfl).2]
    simp [Expr.eval, Func.apply, negative]
  · refine (eval_of_listings _).2.2 (by simp [Token.IsListed]) (.inl ?_)
    rintro ⟨t, order⟩
    cases t with
    | number v => cases order
    | unary f x => simpa [Expr.ordered] using congrArg List.getLast? order
    | binary o l r => simpa [Expr.ordered] using congrArg List.getLast? order
  · refine (eval_of_listings _).2.2 (by simp [Token.IsListed]) (.inr ⟨.comma, by simp, ?_⟩)
    simp [Token.kind, TokenKind.inPostfixOrder]

end Postfix

end Reckon
