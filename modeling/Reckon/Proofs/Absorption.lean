import Reckon.Proofs.Acceptance
import Reckon.Proofs.Meaning
import Reckon.Proofs.Number.Special

namespace Reckon

open Number

def Oscillates (f : Float → Float) (x : Float) : Prop := x.isFinite = false → (f x).isNaN

def Ascends (f : Float → Float) (x : Float) : Prop :=
  (x.isNaN → (f x).isNaN) ∧ (x.isInf → 0 < x → (f x).isInf)

def Inside (x : Float) : Prop := -1 < x ∧ x < 1

def Outside (x : Float) : Prop := x < -1 ∨ 1 < x

def Vanishes (x y : Float) : Prop :=
  x.isInf ∧ y < 0 ∨ y.isInf ∧ (Inside x ∧ 0 < y ∨ Outside x ∧ y < 0)

def Grows (x y : Float) : Prop :=
  x.isInf ∧ 0 < y ∨ y.isInf ∧ (Inside x ∧ y < 0 ∨ Outside x ∧ 0 < y)

/-- What the power `z` of `x` to `y` is, where `x` or `y` is infinite or NaN. -/
structure IsPower (x y z : Float) : Prop where
  unit : x == 1 ∨ y == 0 → z == 1
  undefined : x.isNaN ∨ y.isNaN → ¬(x == 1 ∨ y == 0) → z.isNaN
  sign : x == -1 → y.isInf → z == 1
  vanishes : Vanishes x y → z == 0
  grows : Grows x y → z.isInf

/-- At `x` the library gives what a function of this kind gives there. -/
def Func.Conforms : Func → Float → Prop
  | .sin, x => Oscillates Float.sin x
  | .cos, x => Oscillates Float.cos x
  | .tan, x => Oscillates Float.tan x
  | .sqrt, _ => True
  | .ln, x => Ascends Float.log x
  | .log10, x => Ascends Float.log10 x

def Operator.Conforms : Operator → Float → Float → Prop
  | .pow, x, y => ¬(x.isFinite ∧ y.isFinite) → IsPower x y (x.pow y)
  | _, _, _ => True

theorem not_isFinite_of_isNaN {v : Float} (h : v.isNaN) : v.isFinite = false := by
  rw [isFinite_eq, h]
  rfl

theorem not_isFinite_of_isInf {v : Float} (h : v.isInf) : v.isFinite = false := by
  rw [isFinite_eq, h, Bool.or_true]
  rfl

theorem isInf_of_not_isFinite {v : Float} (h : ¬v.isFinite) (number : v.isNaN = false) :
    v.isInf := by
  rwa [isFinite_eq, number, Bool.false_or, Bool.not_eq_true, Bool.not_eq_false'] at h

theorem Oscillates.isFinite {f : Float → Float} {x : Float} (h : Oscillates f x)
    (small : (f x).isFinite) : x.isFinite := by
  by_contra large
  rw [not_isFinite_of_isNaN (h (by simpa using large))] at small
  cases small

theorem Ascends.isFinite {f : Float → Float} {x : Float} (h : Ascends f x)
    (positive : ¬x ≤ 0) (small : (f x).isFinite) : x.isFinite := by
  by_contra large
  cases undefined : x.isNaN with
  | true =>
    rw [not_isFinite_of_isNaN (h.1 undefined)] at small
    cases small
  | false =>
    have above : 0 < x := lt_of_not_le undefined (by decide) positive
    rw [not_isFinite_of_isInf (h.2 (isInf_of_not_isFinite large undefined) above)] at small
    cases small

theorem Func.isFinite_of_apply {f : Func} {x z : Float} (conforms : f.Conforms x)
    (h : f.apply x = .ok z) (small : z.isFinite) : x.isFinite := by
  cases f with
  | sin | cos | tan => cases h; exact conforms.isFinite small
  | sqrt =>
    rw [Func.apply] at h
    split at h <;> cases h
    exact isFinite_sqrt small
  | ln | log10 =>
    rw [Func.apply] at h
    split at h <;> cases h
    rename_i positive
    exact conforms.isFinite positive small

/-- Of an infinity or NaN among `x` and `y` the operator makes the finite result `z`. -/
inductive Operator.Absorbs : Operator → Float → Float → Float → Prop
  | div (dividend : x.isFinite) (divisor : y.isInf) (h : z == 0) : Absorbs .div x y z
  | mod (dividend : x.isFinite) (divisor : y.isInf) : Absorbs .mod x y x
  | unit (h : x == 1 ∨ y == 0 ∨ x == -1 ∧ y.isInf) (one : z == 1) : Absorbs .pow x y z
  | vanishes (h : Vanishes x y) (zero : z == 0) : Absorbs .pow x y z

theorem inside_or_outside {x : Float} (number : x.isNaN = false) (one : ¬x == 1) :
    x == -1 ∨ Inside x ∨ Outside x := by
  rcases lt_or_beq_or_lt number (show (1 : Float).isNaN = false by decide) with
    below | same | above
  · rcases lt_or_beq_or_lt number (show (-1 : Float).isNaN = false by decide) with
      outside | minusOne | inside
    · exact .inr (.inr (.inl outside))
    · exact .inl minusOne
    · exact .inr (.inl ⟨inside, below⟩)
  · exact absurd same one
  · exact .inr (.inr (.inr above))

theorem vanishes_or_grows {x y : Float} (base : x.isNaN = false) (exponent : y.isNaN = false)
    (one : ¬x == 1) (zero : ¬y == 0) (infinite : x.isInf ∨ y.isInf) :
    x == -1 ∧ y.isInf ∨ Vanishes x y ∨ Grows x y := by
  rcases lt_or_beq_or_lt exponent (show (0 : Float).isNaN = false by decide) with
    falls | same | rises
  · rcases infinite with infinite | infinite
    · exact .inr (.inl (.inl ⟨infinite, falls⟩))
    · rcases inside_or_outside base one with minusOne | inside | outside
      · exact .inl ⟨minusOne, infinite⟩
      · exact .inr (.inr (.inr ⟨infinite, .inl ⟨inside, falls⟩⟩))
      · exact .inr (.inl (.inr ⟨infinite, .inr ⟨outside, falls⟩⟩))
  · exact absurd same zero
  · rcases infinite with infinite | infinite
    · exact .inr (.inr (.inl ⟨infinite, rises⟩))
    · rcases inside_or_outside base one with minusOne | inside | outside
      · exact .inl ⟨minusOne, infinite⟩
      · exact .inr (.inl (.inr ⟨infinite, .inl ⟨inside, rises⟩⟩))
      · exact .inr (.inr (.inr ⟨infinite, .inr ⟨outside, rises⟩⟩))

theorem IsPower.absorbs {x y z : Float} (h : IsPower x y z) (large : ¬(x.isFinite ∧ y.isFinite))
    (small : z.isFinite) : Operator.Absorbs .pow x y z := by
  by_cases unit : x == 1 ∨ y == 0
  · exact .unit (unit.imp_right .inl) (h.unit unit)
  have number : x.isNaN = false ∧ y.isNaN = false := by
    by_contra undefined
    rw [← Bool.or_eq_false_iff, Bool.not_eq_false, Bool.or_eq_true] at undefined
    rw [not_isFinite_of_isNaN (h.undefined undefined unit)] at small
    cases small
  have infinite : x.isInf ∨ y.isInf := (not_and_or.1 large).imp
    (isInf_of_not_isFinite · number.1) (isInf_of_not_isFinite · number.2)
  rw [not_or] at unit
  rcases vanishes_or_grows number.1 number.2 unit.1 unit.2 infinite with sign | vanishes | grows
  · exact .unit (.inr (.inr sign)) (h.sign sign.1 sign.2)
  · exact .vanishes vanishes (h.vanishes vanishes)
  · rw [not_isFinite_of_isInf (h.grows grows)] at small
    cases small

theorem power_absorbs {x y : Float} (conforms : Operator.Conforms .pow x y)
    (small : (power x y).isFinite) :
    x.isFinite ∧ y.isFinite ∨ Operator.Absorbs .pow x y (power x y) := by
  rw [power] at small ⊢
  by_cases square : y == 2
  · rw [if_pos square] at small ⊢
    rw [eq_of_beq square (by decide)]
    exact .inl ⟨(isFinite_mul small).1, by decide⟩
  by_cases root : y == 0.5
  · rw [if_neg square, if_pos root] at small ⊢
    rw [eq_of_beq root (by decide)]
    exact .inl ⟨isFinite_sqrt small, by decide⟩
  by_cases reciprocal : y == -1
  · rw [if_neg square, if_neg root, if_pos reciprocal] at small ⊢
    rw [eq_of_beq reciprocal (by decide)]
    obtain ⟨-, finite | ⟨infinite, zero⟩⟩ := isFinite_div small
    · exact .inl ⟨finite, by decide⟩
    · exact .inr (.vanishes (.inl ⟨infinite, by decide⟩) zero)
  · rw [if_neg square, if_neg root, if_neg reciprocal] at small ⊢
    by_cases both : x.isFinite ∧ y.isFinite
    · exact .inl both
    · exact .inr ((conforms both).absorbs both small)

theorem Operator.absorbs_of_apply {o : Operator} {x y z : Float} (conforms : o.Conforms x y)
    (h : o.apply x y = .ok z) (small : z.isFinite) :
    x.isFinite ∧ y.isFinite ∨ o.Absorbs x y z := by
  cases o with
  | add => cases h; exact .inl (isFinite_add small)
  | sub => cases h; exact .inl (isFinite_sub small)
  | mul => cases h; exact .inl (isFinite_mul small)
  | div =>
    rw [Operator.apply] at h
    split at h <;> cases h
    obtain ⟨dividend, finite | ⟨infinite, zero⟩⟩ := isFinite_div small
    · exact .inl ⟨dividend, finite⟩
    · exact .inr (.div dividend infinite zero)
  | mod =>
    cases h
    obtain ⟨dividend, finite | ⟨infinite, same⟩⟩ := isFinite_remainder small
    · exact .inl ⟨dividend, finite⟩
    · rw [same]
      exact .inr (.mod dividend infinite)
  | pow => cases h; exact power_absorbs conforms small

namespace Expr

inductive Within : Expr → Expr → Prop
  | refl (t : Expr) : Within t t
  | argument (f : Func) (h : Within u x) : Within u (.unary f x)
  | left (o : Operator) (r : Expr) (h : Within u l) : Within u (.binary o l r)
  | right (o : Operator) (l : Expr) (h : Within u r) : Within u (.binary o l r)

def Conforms : Expr → Prop
  | .number _ => True
  | .unary f x => x.Conforms ∧ ∀ a, x.eval = .ok a → f.Conforms a
  | .binary o l r =>
    l.Conforms ∧ r.Conforms ∧ ∀ a b, l.eval = .ok a → r.eval = .ok b → o.Conforms a b

inductive Absorbs : Expr → Expr → Prop
  | left (left : l.eval = .ok x) (right : r.eval = .ok y) (value : o.apply x y = .ok z)
    (large : x.isFinite = false) (small : z.isFinite) (h : o.Absorbs x y z) :
    Absorbs (.binary o l r) l
  | right (left : l.eval = .ok x) (right : r.eval = .ok y) (value : o.apply x y = .ok z)
    (large : y.isFinite = false) (small : z.isFinite) (h : o.Absorbs x y z) :
    Absorbs (.binary o l r) r

variable {t u : Expr} {v w : Float}

theorem operands {o : Operator} {l r : Expr} (conforms : (binary o l r).Conforms)
    (value : (binary o l r).eval = .ok v) (small : v.isFinite) :
    (∃ x, l.eval = .ok x ∧ (x.isFinite ∨ (binary o l r).Absorbs l)) ∧
      ∃ y, r.eval = .ok y ∧ (y.isFinite ∨ (binary o l r).Absorbs r) := by
  obtain ⟨x, left, rest⟩ := bind_eq_ok.1 value
  obtain ⟨y, right, apply⟩ := bind_eq_ok.1 rest
  have takes := Operator.absorbs_of_apply (conforms.2.2 x y left right) apply small
  refine ⟨⟨x, left, ?_⟩, ⟨y, right, ?_⟩⟩
  · cases finite : x.isFinite with
    | true => exact .inl rfl
    | false =>
      exact .inr (.left left right apply finite small (takes.resolve_left (by simp [finite])))
  · cases finite : y.isFinite with
    | true => exact .inl rfl
    | false =>
      exact .inr (.right left right apply finite small (takes.resolve_left (by simp [finite])))

theorem absorbed (inside : u.Within t) (conforms : t.Conforms) (result : u.eval = .ok w)
    (large : w.isFinite = false) (value : t.eval = .ok v) (small : v.isFinite) :
    ∃ p q, Within p t ∧ u.Within q ∧ p.Absorbs q := by
  induction inside generalizing v with
  | refl =>
    rw [result] at value
    cases value
    rw [large] at small
    cases small
  | argument f h ih =>
    obtain ⟨a, argument, apply⟩ := bind_eq_ok.1 value
    have finite := Func.isFinite_of_apply (conforms.2 a argument) apply small
    obtain ⟨p, q, inner, outer, absorbs⟩ := ih conforms.1 argument finite
    exact ⟨p, q, .argument f inner, outer, absorbs⟩
  | left o r h ih =>
    obtain ⟨⟨x, left, finite | absorbs⟩, -⟩ := operands conforms value small
    · obtain ⟨p, q, inner, outer, absorbs⟩ := ih conforms.1 left finite
      exact ⟨p, q, .left o r inner, outer, absorbs⟩
    · exact ⟨_, _, .refl _, h, absorbs⟩
  | right o l h ih =>
    obtain ⟨-, y, right, finite | absorbs⟩ := operands conforms value small
    · obtain ⟨p, q, inner, outer, absorbs⟩ := ih conforms.2.1 right finite
      exact ⟨p, q, .right o l inner, outer, absorbs⟩
    · exact ⟨_, _, .refl _, h, absorbs⟩

end Expr

theorem ReadsAs.evaluate (h : ReadsAs s ts t) :
    evaluate s = match t.eval with
      | .error d => .error (.evaluation (.eval (.domain d)))
      | .ok v => finite v := by
  rw [Reckon.evaluate, h.1]
  simp only [lexed, Except.mapError, ok_bind, h.2, t.eval_ordered]
  cases t.eval <;> rfl

/-- A text has no value or is read as a tree. If a literal or a result in the tree is infinite or
NaN, evaluating the text ends in an error of an operation or as not finite, unless an operator on
the way from there to the value takes it in. -/
theorem evaluate_of_not_finite (s : String) :
    ((∃ ts t, ReadsAs s ts t) ∨ ∃ e, evaluate s = .error (.evaluation e)) ∧
    ∀ ts t, ReadsAs s ts t → t.Conforms →
      ∀ (u : Expr) w, u.Within t → u.eval = .ok w → w.isFinite = false →
        (evaluate s = .error (.evaluation .nonFinite) ∨
          ∃ d, evaluate s = .error (.evaluation (.eval (.domain d)))) ∨
        ∃ p q, Expr.Within p t ∧ u.Within q ∧ p.Absorbs q := by
  refine ⟨?_, fun ts t reads conforms u w inside result large => ?_⟩
  · cases value : evaluate s with
    | ok v =>
      obtain ⟨ts, t, reads, -⟩ := ReadsAs.of_evaluate value
      exact .inl ⟨ts, t, reads⟩
    | error f =>
      obtain ⟨e, rfl⟩ := evaluate_error value
      exact .inr ⟨e, rfl⟩
  · rw [reads.evaluate]
    cases value : t.eval with
    | error d => exact .inl (.inr ⟨d, rfl⟩)
    | ok v =>
      cases small : v.isFinite with
      | true => exact .inr (Expr.absorbed inside conforms result large value small)
      | false => exact .inl (.inl (by simp [finite, small]))

def quotient (run : List Char) : Expr :=
  .binary .div (.binary .pow (.number 2) (.number 2)) (.number ((Decimal.ofRun run).toFloat false))

theorem reads_quotient (literal : IsLiteral run) :
    ReadsAs ("2^2/" ++ String.ofList run) [.number 2, .operator (.listed .pow), .number 2,
      .operator (.listed .div), .number ((Decimal.ofRun run).toFloat false)] (quotient run) := by
  have derives : Derives .sum _ (quotient run) :=
    .ofTerm (.div (.ofPower (.pow (.number 2) (.ofAtom (.number 2)))) (.ofAtom (.number _)))
  have writes : Writes (['2'] ++ (['^'] ++ (['2'] ++ (['/'] ++ (run ++ []))))) _ :=
    .word spells_two (.word (.operator .pow) (.word spells_two (.word (.operator .div)
      (.word (.literal literal) (@Writes.blanks [] (by simp))))))
  refine ⟨tokenize_of_writes derives ?_, Postfix.ofTokens_derives derives⟩
  simpa using writes

def tooLarge : List Char := '1' :: List.replicate 309 '0'

theorem isLiteral_tooLarge : IsLiteral tooLarge := by
  refine ⟨?_, ⟨'1', List.mem_cons_self, rfl⟩, ?_⟩
  · refine List.forall_mem_cons.2 ⟨by decide, fun c mem => ?_⟩
    rw [List.eq_of_mem_replicate mem]
    decide
  · decide +kernel

theorem isInf_tooLarge : ((Decimal.ofRun tooLarge).toFloat false).isInf := by
  decide +kernel

theorem evaluate_quotient : evaluate ("2^2/" ++ String.ofList tooLarge) = .ok 0 := by
  have square : power 2 2 = 4 := by decide +kernel
  have zero : 4 / (Decimal.ofRun tooLarge).toFloat false = 0 := by decide +kernel
  have nonzero : ((Decimal.ofRun tooLarge).toFloat false == 0) = false := by decide +kernel
  have small : (0 : Float).isFinite := by decide +kernel
  rw [(reads_quotient isLiteral_tooLarge).evaluate]
  simp [quotient, Expr.eval, Operator.apply, square, zero, nonzero, finite, small]

/-- A literal that is read as infinite does not keep the text from having a value. -/
theorem value_of_infinite_literal :
    ∃ ts t u w, ReadsAs ("2^2/" ++ String.ofList tooLarge) ts t ∧ Expr.Within u t ∧
      u.eval = .ok w ∧ w.isInf ∧ evaluate ("2^2/" ++ String.ofList tooLarge) = .ok 0 :=
  ⟨_, _, _, _, reads_quotient isLiteral_tooLarge, .right .div _ (.refl _), rfl, isInf_tooLarge,
    evaluate_quotient⟩

theorem evaluate_of_not_finite_literal :
    ∃ ts t u w, ReadsAs ("2^2/" ++ String.ofList tooLarge) ts t ∧ t.Conforms ∧
      Expr.Within u t ∧ u.eval = .ok w ∧ w.isFinite = false ∧
      ∃ p q, Expr.Within p t ∧ u.Within q ∧ p.Absorbs q := by
  have small : (2 : Float).isFinite := by decide
  have conforms : (quotient tooLarge).Conforms := by
    refine ⟨⟨trivial, trivial, fun a b base exponent large => ?_⟩, trivial, fun _ _ _ _ => trivial⟩
    cases base
    cases exponent
    exact absurd ⟨small, small⟩ large
  have reads := reads_quotient isLiteral_tooLarge
  have inside : Expr.Within (.number _) (quotient tooLarge) := .right .div _ (.refl _)
  have large := not_isFinite_of_isInf isInf_tooLarge
  refine ⟨_, _, _, _, reads, conforms, inside, rfl, large, ?_⟩
  have outcome := (evaluate_of_not_finite _).2 _ _ reads conforms _ _ inside rfl large
  rw [evaluate_quotient] at outcome
  rcases outcome with (error | ⟨d, error⟩) | taken
  · cases error
  · cases error
  · exact taken

end Reckon
