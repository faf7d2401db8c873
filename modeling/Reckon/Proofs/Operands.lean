import Reckon.Expr
import Reckon.Proofs.Except

/-!
Operand stacks. What computes on a stack computes the same on top of others, and each operand of a
stack is the value of a tree: only listings of trees have a value. Other tokens fail, and not by a
lookup where the tables list their operators and functions.
-/

namespace Reckon

def Token.IsListed : Token → Prop
  | .operator (.unlisted _) | .function (.unlisted _) => False
  | _ => True

namespace Postfix

theorem domain_eq_ok {r : Except DomainError Float} : domain r = .ok v ↔ r = .ok v := by
  cases r <;> simp

/-- What a token does to operands, where it finds the ones that it asks for. -/
inductive Applies : List Float → Token → List Float → Prop
  | number (v : Float) (below : List Float) : Applies below (.number v) (v :: below)
  | operator {o : Operator} (h : o.apply x y = .ok v) (below : List Float) :
    Applies (y :: x :: below) (.operator (.listed o)) (v :: below)
  | function {f : Func} (h : f.apply x = .ok v) (below : List Float) :
    Applies (x :: below) (.function (.listed f)) (v :: below)

theorem Applies.apply {stack after : List Float} (h : Applies stack t after) :
    apply stack t = .ok after := by
  cases h with
  | number v below => rfl
  | operator h below => simp [Postfix.apply, h]
  | function h below => simp [Postfix.apply, h]

theorem Applies.append {stack after : List Float} (h : Applies stack t after)
    (below : List Float) : Applies (stack ++ below) t (after ++ below) := by
  cases h with
  | number v stack => exact .number v _
  | operator h stack => exact .operator h _
  | function h stack => exact .function h _

theorem applies_of_apply {stack after : List Float} (h : apply stack t = .ok after) :
    Applies stack t after := by
  cases t with
  | number v => cases h; exact .number v stack
  | operator o =>
    rcases stack with _ | ⟨y, _ | ⟨x, stack⟩⟩
    · cases o <;> cases h
    · cases o <;> cases h
    · cases o with
      | listed o =>
        obtain ⟨v, value, rfl⟩ := map_eq_ok.1 h
        exact .operator (domain_eq_ok.1 value) stack
      | unlisted s => cases h
  | function f =>
    cases stack with
    | nil => cases f <;> cases h
    | cons x stack =>
      cases f with
      | listed f =>
        obtain ⟨v, value, rfl⟩ := map_eq_ok.1 h
        exact .function (domain_eq_ok.1 value) stack
      | unlisted s => cases h
  | leftParen s | rightParen s | comma s | unknown s => cases h

theorem foldlM_frame {ts : List Token} {stack after : List Float}
    (h : ts.foldlM apply stack = .ok after) (below : List Float) :
    ts.foldlM apply (stack ++ below) = .ok (after ++ below) := by
  induction ts generalizing stack with
  | nil => cases h; rfl
  | cons t ts ih =>
    rw [List.foldlM_cons] at h ⊢
    obtain ⟨next, one, h⟩ := bind_eq_ok.1 h
    rw [((applies_of_apply one).append below).apply]
    exact ih h

def Values (trees : List Expr) (stack : List Float) : Prop :=
  List.Forall₂ (fun t v => t.eval = .ok v) trees stack

def listings (trees : List Expr) : List Token := trees.reverse.flatMap Expr.ordered

@[simp] theorem listings_cons (t : Expr) (trees : List Expr) :
    listings (t :: trees) = listings trees ++ t.ordered := by
  simp [listings]

theorem Values.step {stack after : List Float} (h : Values trees stack)
    (one : Applies stack t after) :
    ∃ grown, Values grown after ∧ listings grown = listings trees ++ [t] := by
  cases one with
  | number v => exact ⟨.number v :: trees, .cons rfl h, by simp [Expr.ordered]⟩
  | @operator x y v o value below =>
    obtain ⟨r, _, hy, h', rfl⟩ := List.forall₂_cons_right_iff.1 h
    obtain ⟨l, trees, hx, rest, rfl⟩ := List.forall₂_cons_right_iff.1 h'
    refine ⟨.binary o l r :: trees, .cons ?_ rest, by simp [Expr.ordered]⟩
    simp [Expr.eval, hx, hy, value]
  | @function x v f value below =>
    obtain ⟨t, trees, hx, rest, rfl⟩ := List.forall₂_cons_right_iff.1 h
    refine ⟨.unary f t :: trees, .cons ?_ rest, by simp [Expr.ordered]⟩
    simp [Expr.eval, hx, value]

theorem Values.foldlM {ts : List Token} {stack after : List Float} (h : Values trees stack)
    (all : ts.foldlM apply stack = .ok after) :
    ∃ grown, Values grown after ∧ listings grown = listings trees ++ ts := by
  induction ts generalizing trees stack with
  | nil =>
    cases all
    exact ⟨trees, h, by simp⟩
  | cons t ts ih =>
    rw [List.foldlM_cons] at all
    obtain ⟨next, one, all⟩ := bind_eq_ok.1 all
    obtain ⟨grown, h, eq⟩ := h.step (applies_of_apply one)
    obtain ⟨grown, h, eq'⟩ := ih h all
    exact ⟨grown, h, by simp [eq', eq]⟩

theorem foldlM_of_eval {ts : List Token} (h : eval ts = .ok v) :
    ts.foldlM apply [] = .ok [v] := by
  obtain ⟨stack, all, h⟩ := bind_eq_ok.1 h
  split at h
  · cases h; exact all
  · cases h

theorem ordered_of_eval {ts : List Token} (h : eval ts = .ok v) :
    ∃ t : Expr, ts = t.ordered ∧ t.eval = .ok v := by
  obtain ⟨trees, values, eq⟩ := Values.foldlM .nil (foldlM_of_eval h)
  cases values with
  | cons value rest =>
    cases rest
    exact ⟨_, by simpa [listings] using eq.symm, value⟩

theorem domain_eq_error {r : Except DomainError Float} (h : domain r = .error f) :
    ∃ e, f = .evaluation (.eval e) := by
  cases r with
  | ok v => cases h
  | error e => cases h; exact ⟨_, rfl⟩

theorem apply_error {stack : List Float} (listed : t.IsListed) (h : apply stack t = .error f) :
    ∃ e, f = .evaluation (.eval e) := by
  cases t with
  | number v => cases h
  | operator o =>
    cases o with
    | unlisted s => exact listed.elim
    | listed o =>
      rcases stack with _ | ⟨y, _ | ⟨x, stack⟩⟩
      · cases h; exact ⟨_, rfl⟩
      · cases h; exact ⟨_, rfl⟩
      · exact domain_eq_error (map_eq_error.1 h)
  | function g =>
    cases g with
    | unlisted s => exact listed.elim
    | listed g =>
      cases stack with
      | nil => cases h; exact ⟨_, rfl⟩
      | cons x stack => exact domain_eq_error (map_eq_error.1 h)
  | leftParen s | rightParen s | comma s | unknown s => cases h; exact ⟨_, rfl⟩

theorem foldlM_error {ts : List Token} {stack : List Float} (listed : ∀ t ∈ ts, t.IsListed)
    (h : ts.foldlM apply stack = .error f) : ∃ e, f = .evaluation (.eval e) := by
  induction ts generalizing stack with
  | nil => cases h
  | cons t ts ih =>
    rw [List.forall_mem_cons] at listed
    rw [List.foldlM_cons] at h
    rcases bind_eq_error.1 h with h | ⟨below, -, h⟩
    · exact apply_error listed.1 h
    · exact ih listed.2 h

theorem eval_error {ts : List Token} (listed : ∀ t ∈ ts, t.IsListed) (h : eval ts = .error f) :
    ∃ e, f = .evaluation (.eval e) := by
  rcases bind_eq_error.1 h with h | ⟨stack, -, h⟩
  · exact foldlM_error listed h
  · split at h <;> cases h
    exact ⟨_, rfl⟩

end Postfix

end Reckon
