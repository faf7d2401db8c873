import Reckon.Number.Layout

namespace Reckon

-- Powers here are those of natural numbers, whatever other powers are in scope.
attribute [local instance (high)] instPowNat

namespace Number

theorem roundDiv_mul_left {k : Nat} (pos : 0 < k) (num den : Nat) :
    roundDiv (k * num) (k * den) = roundDiv num den := by
  have scale (x y : Nat) : k * x < k * y ↔ x < y := Nat.mul_lt_mul_left pos
  simp only [roundDiv, Nat.mul_div_mul_left _ _ pos, Nat.mul_mod_mul_left, Nat.mul_left_comm 2 k,
    scale]

theorem nearest_mul_left {k : Nat} (pos : 0 < k) (num den : Nat) :
    nearest (k * num) (k * den) = nearest num den := by
  simp only [nearest, Nat.mul_div_mul_left _ _ pos, Nat.mul_assoc, roundDiv_mul_left pos]

theorem nearest_congr {num den num' den' : Nat} (pos : 0 < den) (pos' : 0 < den')
    (h : num * den' = num' * den) : nearest num den = nearest num' den' := by
  calc nearest num den
      = nearest (den' * num) (den' * den) := (nearest_mul_left pos' num den).symm
    _ = nearest (den * num') (den * den') := by
        rw [Nat.mul_comm den' num, h, Nat.mul_comm num', Nat.mul_comm den']
    _ = nearest num' den' := nearest_mul_left pos num' den'

theorem units_of_lt {n : Nat} (h : n < binade) : units n = n :=
  if_pos h

theorem units_of_le {n : Nat} (h : binade ≤ n) :
    units n = (binade + n % binade) * 2 ^ (n / binade - 1) :=
  if_neg (Nat.not_lt.2 h)

theorem log2_units {n : Nat} (h : binade ≤ n) : (units n).log2 = 52 + (n / binade - 1) := by
  have rest : n % binade < binade := Nat.mod_lt n (by decide)
  have pos := Nat.two_pow_pos (n / binade - 1)
  have whole : 0 < binade + n % binade := Nat.add_pos_left (by decide) _
  rw [units_of_le h, Nat.log2_eq_iff (Nat.ne_of_gt (Nat.mul_pos whole pos)), Nat.pow_succ,
    Nat.pow_add, Nat.mul_right_comm]
  simp only [binade] at rest ⊢
  constructor
  · exact Nat.mul_le_mul_right _ (by omega)
  · exact Nat.mul_lt_mul_of_pos_right (by omega) pos

theorem nearest_units {n : Nat} (h : n < infinity) : nearest (units n) 1 = n := by
  suffices ((units n).log2 - 52) * binade +
      roundDiv (units n) (2 ^ ((units n).log2 - 52)) = n by
    rw [nearest, Nat.div_one, Nat.one_mul, this, Nat.min_eq_right (Nat.le_of_lt h)]
  rcases Nat.lt_or_ge n binade with small | large
  · have : n.log2 - 52 = 0 := by
      by_cases zero : n = 0
      · simp [zero]
      · have := (Nat.log2_lt zero).2 (small : n < 2 ^ 52)
        omega
    rw [units_of_lt small, this, Nat.pow_zero, roundDiv_one]
    omega
  · have cut := Nat.div_add_mod n binade
    have pos := Nat.div_pos large (by decide)
    have scale := roundDiv_mul_left (Nat.two_pow_pos (n / binade - 1)) (binade + n % binade) 1
    rw [Nat.mul_one, roundDiv_one, Nat.mul_comm] at scale
    rw [log2_units large, Nat.add_sub_cancel_left, units_of_le large, scale]
    simp only [binade] at cut pos ⊢
    omega

end Number

namespace Decimal

theorem den_pos (d : Decimal) : 0 < d.den :=
  Nat.pow_pos (by decide)

theorem ordinal_congr {d d' : Decimal} (h : d.num * d'.den = d'.num * d.den) :
    d.ordinal = d'.ordinal := by
  apply Number.nearest_congr d.den_pos d'.den_pos
  rw [Nat.mul_right_comm, h, Nat.mul_right_comm]

theorem ordinal_carry (n : Nat) (e : Int) :
    ordinal ⟨n, e + 1⟩ = ordinal ⟨n * 10, e⟩ := by
  apply ordinal_congr
  simp only [num, den]
  rcases Int.lt_or_le e 0 with neg | nonneg
  · have : (-e).toNat = (-(e + 1)).toNat + 1 := by omega
    rw [this, show e.toNat = 0 by omega, show (e + 1).toNat = 0 by omega, Nat.pow_succ]
    grind
  · have : (e + 1).toNat = e.toNat + 1 := by omega
    rw [this, show (-e).toNat = 0 by omega, show (-(e + 1)).toNat = 0 by omega, Nat.pow_succ]
    grind

theorem ordinal_trim (d : Decimal) : d.trim.ordinal = d.ordinal := by
  fun_induction trim d with
  | case1 d h ih =>
    rw [ih, ordinal_carry, Nat.div_mul_cancel (Nat.dvd_of_mod_eq_zero h.2)]
  | case2 d h => rfl

theorem ordinal_zero (e : Int) : ordinal ⟨0, e⟩ = 0 := by
  simp [ordinal, num, Number.nearest, Number.roundDiv, den_pos]

theorem ordinal_fives (n k : Nat) (h : Number.unit = 2 ^ k) :
    ordinal ⟨n * 5 ^ k, -(k : Int)⟩ = Number.nearest n 1 := by
  apply Number.nearest_congr (den_pos _) Nat.one_pos
  have : (-(k : Int)).toNat = 0 := by omega
  simp only [num, den, h, this, Int.neg_neg, Int.toNat_natCast, Nat.pow_zero, Nat.mul_one]
  rw [Nat.mul_assoc, ← Nat.mul_pow]

theorem ordinal_exact {n : Nat} (h : n < Number.infinity) : (exact n).ordinal = n :=
  (ordinal_fives (Number.units n) 1074 (by rw [Number.unit])).trans (Number.nearest_units h)

theorem ordinal_onGrid {n : Nat} {g : Int} {d : Decimal} (h : onGrid n g = some d) :
    d.ordinal = n := by
  simpa using List.find?_some h

theorem ordinal_shortest {n : Nat} (h : n < Number.infinity) : (shortest n).ordinal = n := by
  rw [shortest]
  split
  · next zero =>
    rw [ordinal_zero, zero]
  · rw [ordinal_trim]
    cases found : (List.range 17).findSome? fun k : Nat => onGrid n (magnitude n - k) with
    | none => exact ordinal_exact h
    | some d =>
      obtain ⟨k, -, grid⟩ := List.exists_of_findSome?_eq_some found
      exact ordinal_onGrid grid

end Decimal

end Reckon
