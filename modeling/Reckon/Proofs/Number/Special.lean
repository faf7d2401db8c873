import Reckon.Proofs.Number.Bits
import Reckon.Proofs.Number.Rounding

namespace Reckon.Number

open Float.Model (UnpackedFloat)
open Float.Model.UnpackedFloat

theorem isFinite_of_pack {u : UnpackedFloat} (h : (Float.Model.pack u).unpack.isFinite) :
    u.isFinite := by
  cases u with
  | infinity s => cases s <;> exact absurd h (by decide)
  | notANumber => exact absurd h (by decide)
  | zero s => rfl
  | finite s m e pos => rfl

theorem isFinite_operands {f : UnpackedFloat → UnpackedFloat → UnpackedFloat} {x y : Float}
    (strict : ∀ u v, (f u v).isFinite → u.isFinite ∧ v.isFinite)
    (h : (Float.Model.pack (f x.toModel.unpack y.toModel.unpack)).unpack.isFinite) :
    x.isFinite ∧ y.isFinite :=
  strict _ _ (isFinite_of_pack h)

theorem isFinite_add {x y : Float} (h : (x + y).isFinite) : x.isFinite ∧ y.isFinite := by
  refine isFinite_operands (f := add .binary64) (fun u v => ?_) h
  cases u <;> cases v <;> grind [add, isFinite]

theorem isFinite_sub {x y : Float} (h : (x - y).isFinite) : x.isFinite ∧ y.isFinite := by
  refine isFinite_operands (f := sub .binary64) (fun u v => ?_) h
  cases u <;> cases v <;> grind [sub, isFinite]

theorem isFinite_mul {x y : Float} (h : (x * y).isFinite) : x.isFinite ∧ y.isFinite := by
  refine isFinite_operands (f := mul .binary64) (fun u v => ?_) h
  cases u <;> cases v <;> simp [mul, isFinite]

theorem isFinite_sqrt {x : Float} (h : x.sqrt.isFinite) : x.isFinite := by
  have small : (sqrt .binary64 x.toModel.unpack).isFinite := isFinite_of_pack h
  change x.toModel.unpack.isFinite
  revert small
  cases x.toModel.unpack with
  | infinity s => cases s <;> simp [sqrt, isFinite]
  | notANumber => simp [sqrt]
  | zero s => simp [isFinite]
  | finite s m e pos => simp [isFinite]

theorem isFinite_div {x y : Float} (h : (x / y).isFinite) :
    x.isFinite ∧ (y.isFinite ∨ y.isInf ∧ x / y == 0) := by
  have zero (s : Sign) :
      (Float.Model.pack (.zero s)).unpack.beq (0 : Float).toModel.unpack := by
    cases s <;> decide
  have small : (div .binary64 x.toModel.unpack y.toModel.unpack).isFinite := isFinite_of_pack h
  change x.toModel.unpack.isFinite ∧ (y.toModel.unpack.isFinite ∨ y.toModel.unpack.isInf ∧
    (Float.Model.pack (div .binary64 x.toModel.unpack y.toModel.unpack)).unpack.beq
      (0 : Float).toModel.unpack)
  revert small
  cases x.toModel.unpack <;> cases y.toModel.unpack <;> simp [div, isFinite, isInf, zero]

theorem infinity_le_ordinal {v : Float} (h : v.isFinite = false) : infinity ≤ ordinal v := by
  change (unpack .binary64 v.toBits.toBitVec).isFinite = false at h
  rcases unpack_cases v.toBits.toBitVec with
    ⟨-, s, eq⟩ | ⟨-, -, s, m, e, pos, eq⟩ | ⟨large, -⟩
  · simp [eq, isFinite] at h
  · simp [eq, isFinite] at h
  · exact large

theorem isFinite_remainder {x y : Float} (h : (remainder x y).isFinite) :
    x.isFinite ∧ (y.isFinite ∨ y.isInf ∧ remainder x y = x) := by
  rw [remainder] at h ⊢
  split at h
  · exact absurd h (by decide)
  · rename_i defined
    simp only [Bool.or_eq_true, not_or, Bool.not_eq_true] at defined
    obtain ⟨⟨⟨notNaN, divisor⟩, notInf⟩, nonzero⟩ := defined
    have small : x.isFinite := by rw [isFinite_eq, notNaN, notInf]; rfl
    refine ⟨small, ?_⟩
    cases large : y.isInf with
    | false => exact .inl (by rw [isFinite_eq, divisor, large]; rfl)
    | true =>
      have below : ordinal x < ordinal y :=
        (ordinal_lt_infinity small).trans_le (infinity_le_ordinal (by simp [isFinite_eq, large]))
      simp only [notNaN, divisor, notInf, nonzero, Bool.or_self, Bool.false_eq_true, if_false]
      rw [Nat.mod_eq_of_lt (units_strictMono below), nearest_units (ordinal_lt_infinity small),
        ofOrdinal_ordinal]
      exact .inr ⟨trivial, rfl⟩

/-- How two numbers compare. NaN compares with none. -/
def comparison (x y : Float) : Option Ordering :=
  UnpackedFloat.compare x.toModel.unpack y.toModel.unpack

theorem lt_iff {x y : Float} : x < y ↔ comparison x y = some .lt := by
  change decide _ = true ↔ _
  rw [decide_eq_true_iff]
  change (comparison x y == some .lt) = true ↔ _
  rw [beq_iff_eq]

theorem le_iff {x y : Float} : x ≤ y ↔ comparison x y = some .lt ∨ comparison x y = some .eq := by
  change decide _ = true ↔ _
  rw [decide_eq_true_iff]
  change (comparison x y).any (·.isLE) = true ↔ _
  rcases comparison x y with _ | _ | _ | _ <;> simp

theorem beq_iff {x y : Float} : (x == y) = true ↔ comparison x y = some .eq := by
  change (comparison x y == some .eq) = true ↔ _
  exact beq_iff_eq

theorem comparison_swap (x y : Float) : comparison y x = (comparison x y).map Ordering.swap := by
  have sign (s t : Sign) : compare t s = (compare s t).swap := by cases s <;> cases t <;> rfl
  have whole (d e : Int) : compare e d = (compare d e).swap := Std.OrientedOrd.eq_swap
  have natural (m n : Nat) : compare n m = (compare m n).swap := Std.OrientedOrd.eq_swap
  simp only [comparison]
  cases x.toModel.unpack with
  | notANumber => cases y.toModel.unpack <;> rfl
  | infinity s =>
    cases y.toModel.unpack with
    | infinity t => simp [UnpackedFloat.compare, sign s t]
    | notANumber => rfl
    | zero t => cases s <;> rfl
    | finite t m e pos => cases s <;> rfl
  | zero s =>
    cases y.toModel.unpack with
    | infinity t => cases t <;> rfl
    | notANumber => rfl
    | zero t => rfl
    | finite t m e pos => cases t <;> rfl
  | finite s m e pos =>
    cases y.toModel.unpack with
    | infinity t => cases t <;> rfl
    | notANumber => rfl
    | zero t => cases s <;> rfl
    | finite t n d pos =>
      cases s <;> cases t <;>
        simp [UnpackedFloat.compare, whole e d, natural m n, Ordering.swap_then]

theorem isNaN_of_comparison {x y : Float} (h : comparison x y = none) : x.isNaN ∨ y.isNaN := by
  change x.toModel.unpack.isNaN ∨ y.toModel.unpack.isNaN
  revert h
  rw [comparison]
  cases x.toModel.unpack with
  | notANumber => simp [isNaN]
  | infinity s => cases s <;> cases y.toModel.unpack <;> simp [UnpackedFloat.compare, isNaN]
  | zero s =>
    cases y.toModel.unpack with
    | infinity t => cases t <;> simp [UnpackedFloat.compare]
    | notANumber => simp [isNaN]
    | zero t => simp [UnpackedFloat.compare]
    | finite t m e pos => cases t <;> simp [UnpackedFloat.compare]
  | finite s m e pos =>
    cases y.toModel.unpack with
    | infinity t => cases t <;> simp [UnpackedFloat.compare]
    | notANumber => simp [isNaN]
    | zero t => cases s <;> simp [UnpackedFloat.compare]
    | finite t n d pos => cases s <;> cases t <;> simp [UnpackedFloat.compare]

theorem lt_or_beq_or_lt {x y : Float} (hx : x.isNaN = false) (hy : y.isNaN = false) :
    x < y ∨ x == y ∨ y < x := by
  rw [lt_iff, lt_iff, beq_iff, comparison_swap x y]
  rcases order : comparison x y with _ | _ | _ | _
  · have := isNaN_of_comparison order
    rw [hx, hy] at this
    simp at this
  all_goals simp

theorem lt_of_not_le {x y : Float} (hx : x.isNaN = false) (hy : y.isNaN = false) (h : ¬x ≤ y) :
    y < x := by
  rw [le_iff, ← lt_iff, ← beq_iff, not_or] at h
  exact ((lt_or_beq_or_lt hx hy).resolve_left h.1).resolve_left h.2

theorem eq_of_beq {x y : Float} (h : x == y) (nonzero : (y == 0) = false) : x = y := by
  have packed (v : Float) : Float.ofModel (.pack v.toModel.unpack) = v := ofBits_toBits v
  have same : x.toModel.unpack = y.toModel.unpack := by
    rw [beq_iff, comparison] at h
    change y.toModel.unpack.beq (.zero .positive) = false at nonzero
    revert h nonzero
    cases x.toModel.unpack with
    | notANumber => simp [UnpackedFloat.compare]
    | infinity s =>
      cases y.toModel.unpack with
      | infinity t => cases s <;> cases t <;> simp [UnpackedFloat.compare]
      | notANumber | zero t | finite t m e pos => cases s <;> simp [UnpackedFloat.compare]
    | zero s =>
      cases y.toModel.unpack with
      | zero t => simp [UnpackedFloat.beq, UnpackedFloat.compare]
      | notANumber => simp [UnpackedFloat.compare]
      | infinity t | finite t m e pos => cases t <;> simp [UnpackedFloat.compare]
    | finite s m e pos =>
      cases y.toModel.unpack with
      | finite t n d pos =>
        cases s <;> cases t <;> simp +contextual [UnpackedFloat.compare]
      | notANumber => simp [UnpackedFloat.compare]
      | zero t => cases s <;> simp [UnpackedFloat.compare]
      | infinity t => cases t <;> simp [UnpackedFloat.compare]
  rw [← packed x, same, packed]

end Reckon.Number
