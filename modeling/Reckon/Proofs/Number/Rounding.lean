import Mathlib
import Reckon.Proofs.Number.Nearest

/-!
Correct rounding. What a quotient rounds to is the nearest of all magnitudes, infinity standing for
the one behind the last, and of two as near the even one. Rounding keeps the order of numbers, so
what rounds to one magnitude is an interval around it.
-/

namespace Reckon.Number

-- Powers of natural numbers here are core's, whatever other powers are in scope.
attribute [local instance (high)] instPowNat

def step (n : Nat) : Nat := 2 ^ (n / binade - 1)

theorem step_pos (n : Nat) : 0 < step n := Nat.two_pow_pos _

theorem step_mono {m n : Nat} (h : m ≤ n) : step m ≤ step n :=
  Nat.pow_le_pow_right (by decide) (Nat.sub_le_sub_right (Nat.div_le_div_right h) 1)

theorem units_succ (n : Nat) : units (n + 1) = units n + step n := by
  have cut := Nat.div_add_mod n binade
  have rest : n % binade < binade := Nat.mod_lt n (by decide)
  rcases Nat.lt_or_ge n binade with small | large
  · have zero : n / binade = 0 := Nat.div_eq_of_lt small
    rcases Nat.lt_or_ge (n + 1) binade with small' | last
    · simp [units_of_lt small, units_of_lt small', step, zero]
    · have same : n + 1 = binade := by omega
      rw [units_of_lt small, units_of_le last, same, step, zero, Nat.mod_self,
        Nat.div_self (by decide)]
      simpa using same.symm
  · have pos := Nat.div_pos large (by decide)
    rw [units_of_le large, units_of_le (by omega), step]
    rcases Nat.lt_or_ge (n % binade + 1) binade with inside | last
    · have quotient : (n + 1) / binade = n / binade := by
        rw [Nat.div_eq_iff (by decide)]
        constructor <;> simp only [binade] at * <;> omega
      have remainder : (n + 1) % binade = n % binade + 1 := by simp only [binade] at *; omega
      rw [quotient, remainder, ← Nat.add_assoc, Nat.succ_mul]
    -- From the last magnitude of a binade the next one is a power of two.
    · have quotient : (n + 1) / binade = n / binade + 1 := by simp only [binade] at *; omega
      have remainder : (n + 1) % binade = 0 := by simp only [binade] at *; omega
      have power : 2 ^ (n / binade + 1 - 1) = 2 ^ (n / binade - 1) * 2 := by
        rw [← Nat.pow_succ]
        congr 1
        omega
      rw [quotient, remainder, power]
      have : n % binade = binade - 1 := by omega
      rw [this]
      generalize 2 ^ (n / binade - 1) = p
      simp only [binade]
      omega

theorem units_strictMono : StrictMono units :=
  strictMono_nat_of_lt_succ fun n => by
    rw [units_succ]
    exact Nat.lt_add_of_pos_right (step_pos n)

/-- `n` is the ordinal of the magnitude nearest to `x` units, an even one if another is as near.
Infinity stands for the magnitude that would follow the finite ones. -/
structure IsNearest (x : ℚ) (n : Nat) : Prop where
  le : n ≤ infinity
  near : ∀ m ≤ infinity, |units n - x| ≤ |units m - x|
  even : ∀ m ≤ infinity, m ≠ n → |units m - x| = |units n - x| → n % 2 = 0

variable {x y z : ℚ} {m n : Nat}

theorem cast_units_lt (h : m < n) : (units m : ℚ) < units n :=
  Nat.cast_lt.2 (units_strictMono h)

theorem cast_units_le (h : m ≤ n) : (units m : ℚ) ≤ units n :=
  Nat.cast_le.2 (units_strictMono.monotone h)

theorem IsNearest.of_middles (le : n ≤ infinity)
    (lower : ∀ m, m + 1 = n → units m + units n ≤ 2 * x ∧ (units m + units n = 2 * x → n % 2 = 0))
    (upper : n < infinity →
      2 * x ≤ units n + units (n + 1) ∧ (2 * x = units n + units (n + 1) → n % 2 = 0)) :
    IsNearest x n := by
  have below {m : Nat} (h : m < n) : |units n - x| ≤ |units m - x| ∧
      (|units m - x| = |units n - x| → n % 2 = 0) := by
    obtain ⟨k, rfl⟩ := Nat.exists_eq_add_one_of_ne_zero (Nat.ne_zero_of_lt h)
    obtain ⟨middle, tie⟩ := lower k rfl
    have apart := cast_units_lt h
    have far := cast_units_le (Nat.le_of_lt_succ h)
    refine ⟨by cases abs_cases (units (k + 1) - x) <;> cases abs_cases (units m - x) <;> linarith,
      fun same => tie ?_⟩
    cases abs_cases (units (k + 1) - x) <;> cases abs_cases (units m - x) <;> linarith
  have above {m : Nat} (h : n < m) (le : m ≤ infinity) : |units n - x| ≤ |units m - x| ∧
      (|units m - x| = |units n - x| → n % 2 = 0) := by
    obtain ⟨middle, tie⟩ := upper (Nat.lt_of_lt_of_le h le)
    have apart := cast_units_lt h
    have far := cast_units_le (Nat.succ_le_of_lt h)
    refine ⟨by cases abs_cases (units n - x) <;> cases abs_cases (units m - x) <;> linarith,
      fun same => tie ?_⟩
    cases abs_cases (units n - x) <;> cases abs_cases (units m - x) <;> linarith
  refine ⟨le, fun m hm => ?_, fun m hm ne => ?_⟩
  · rcases Nat.lt_trichotomy m n with h | rfl | h
    · exact (below h).1
    · exact le_rfl
    · exact (above h hm).1
  · rcases Nat.lt_or_gt_of_ne ne with h | h
    · exact (below h).2
    · exact (above h hm).2

theorem IsNearest.mono (hx : IsNearest x m) (hy : IsNearest y n) (le : x ≤ y) : m ≤ n := by
  by_contra! lt
  have apart := cast_units_lt lt
  have nearX := hx.near n hy.le
  have nearY := hy.near m hx.le
  -- Both numbers then are the middle of the two magnitudes, which are even: one lies between them.
  have middle : 2 * x = units n + units m ∧ 2 * y = units n + units m := by
    constructor <;> cases abs_cases (units m - x) <;> cases abs_cases (units n - x) <;>
      cases abs_cases (units m - y) <;> cases abs_cases (units n - y) <;> linarith
  have tieX : |units n - x| = |units m - x| := by
    rw [abs_of_neg, abs_of_pos] <;> linarith
  have tieY : |units m - y| = |units n - y| := by
    rw [abs_of_pos, abs_of_neg] <;> linarith
  have evenM := hx.even n hy.le (Nat.ne_of_lt lt) tieX
  have evenN := hy.even m hx.le (Nat.ne_of_gt lt) tieY
  have low := cast_units_lt (Nat.lt_succ_self n)
  have high := @cast_units_lt (n + 1) m (by omega)
  have := hx.near (n + 1) (Nat.le_trans (Nat.succ_le_of_lt lt) hx.le)
  cases abs_cases (units (n + 1) - x) <;> cases abs_cases (units m - x) <;> linarith

theorem IsNearest.unique (h : IsNearest x m) (h' : IsNearest x n) : m = n :=
  le_antisymm (h.mono h' le_rfl) (h'.mono h le_rfl)

theorem abs_roundDiv_sub_le (num : Nat) {den : Nat} (pos : 0 < den) :
    |roundDiv num den - (num / den : ℚ)| ≤ 1 / 2 ∧
      (|roundDiv num den - (num / den : ℚ)| = 1 / 2 → roundDiv num den % 2 = 0) := by
  have posQ : (0 : ℚ) < den := Nat.cast_pos.2 pos
  have cut : (num : ℚ) = den * (num / den : Nat) + (num % den : Nat) := by
    exact_mod_cast (Nat.div_add_mod num den).symm
  have less : ((num % den : Nat) : ℚ) < den := by exact_mod_cast Nat.mod_lt num pos
  have half : 2 * (num % den) < den ↔ ((num % den : Nat) : ℚ) / den < 1 / 2 := by
    rw [div_lt_iff₀ posQ, ← Nat.cast_lt (α := ℚ)]
    push_cast
    constructor <;> intro h <;> linarith
  have half' : den < 2 * (num % den) ↔ 1 / 2 < ((num % den : Nat) : ℚ) / den := by
    rw [lt_div_iff₀ posQ, ← Nat.cast_lt (α := ℚ)]
    push_cast
    constructor <;> intro h <;> linarith
  have quotient : (num / den : ℚ) = (num / den : Nat) + ((num % den : Nat) : ℚ) / den := by
    rw [cut]
    field_simp
  have nonneg : 0 ≤ ((num % den : Nat) : ℚ) / den := by positivity
  have one : ((num % den : Nat) : ℚ) / den < 1 := (div_lt_one posQ).2 less
  rw [quotient]
  simp only [roundDiv, half, half']
  generalize ((num % den : Nat) : ℚ) / den = t at *
  split
  · rw [sub_add_cancel_left, abs_neg, abs_of_nonneg nonneg]
    exact ⟨by linarith, by intro tie; linarith⟩
  · split
    · rw [Nat.cast_add_one, add_sub_add_left_eq_sub, abs_of_pos (by linarith)]
      exact ⟨by linarith, by intro tie; linarith⟩
    · obtain rfl : t = 1 / 2 := by linarith
      rw [Nat.cast_add, add_sub_add_left_eq_sub]
      refine ⟨?_, fun _ => by omega⟩
      rcases Nat.mod_two_eq_zero_or_one (num / den) with even | odd
      · rw [even]
        norm_num
      · rw [odd]
        norm_num

theorem le_roundDiv {a num den : Nat} (pos : 0 < den) (h : a * den ≤ num) :
    a ≤ roundDiv num den := by
  have := (Nat.le_div_iff_mul_le pos).2 h
  simp only [roundDiv]
  split <;> [skip; split] <;> omega

theorem roundDiv_le {a num den : Nat} (h : num < a * den) : roundDiv num den ≤ a := by
  have pos : 0 < den := Nat.pos_of_mul_pos_left (Nat.zero_lt_of_lt h)
  have := (Nat.div_lt_iff_lt_mul pos).2 h
  simp only [roundDiv]
  split <;> [skip; split] <;> omega

section Binade

variable {e r : Nat}

theorem units_scaled (low : e = 0 ∨ binade ≤ r) (high : r ≤ 2 * binade) :
    units (e * binade + r) = r * 2 ^ e := by
  rcases Nat.lt_or_ge (e * binade + r) binade with small | large
  · obtain rfl : e = 0 := by simp only [binade] at *; omega
    rw [units_of_lt small]
    simp
  · rw [units_of_le large]
    rcases Nat.lt_or_eq_of_le high with inside | rfl
    · have quotient : (e * binade + r) / binade - 1 = e := by simp only [binade] at *; omega
      have remainder : binade + (e * binade + r) % binade = r := by simp only [binade] at *; omega
      rw [quotient, remainder]
    · have quotient : (e * binade + 2 * binade) / binade - 1 = e + 1 := by
        simp only [binade] at *; omega
      have remainder : (e * binade + 2 * binade) % binade = 0 := by
        simp only [binade] at *; omega
      rw [quotient, remainder, Nat.pow_succ, Nat.add_zero]
      ring

theorem le_step_scaled (low : e = 0 ∨ binade ≤ r) : 2 ^ e ≤ step (e * binade + r) :=
  Nat.pow_le_pow_right (by decide) (by simp only [binade] at *; omega)

theorem step_scaled_le (high : r ≤ 2 * binade) (h : m + 1 = e * binade + r) : step m ≤ 2 ^ e :=
  Nat.pow_le_pow_right (by decide) (by simp only [binade] at *; omega)

theorem parity_scaled (e r : Nat) : (e * binade + r) % 2 = r % 2 := by
  simp only [binade]
  omega

theorem IsNearest.of_binade (le : e * binade + r ≤ infinity) (high : r ≤ 2 * binade)
    (low : e = 0 ∨ (binade : ℚ) ≤ y ∧ binade ≤ r)
    (near : |r - y| ≤ 1 / 2 ∧ (|r - y| = 1 / 2 → r % 2 = 0)) :
    IsNearest (y * (2 ^ e : Nat)) (e * binade + r) := by
  have pos : (0 : ℚ) < (2 ^ e : Nat) := Nat.cast_pos.2 (Nat.two_pow_pos e)
  have value : (units (e * binade + r) : ℚ) = r * (2 ^ e : Nat) := by
    rw [units_scaled (low.imp_right (·.2)) high, Nat.cast_mul]
  obtain ⟨near, tie⟩ := near
  have scaled := mul_le_mul_of_nonneg_right near pos.le
  apply IsNearest.of_middles le
  · intro m next
    have succ : (units (e * binade + r) : ℚ) = units m + step m := by
      rw [← next, units_succ, Nat.cast_add]
    have stepPos : (0 : ℚ) < step m := Nat.cast_pos.2 (step_pos m)
    rcases le_or_gt (r : ℚ) y with above | below
    · have := mul_le_mul_of_nonneg_right above pos.le
      exact ⟨by linarith, fun same => by linarith⟩
    -- Below a magnitude that starts no binade the distance is that of its own.
    · have whole : e = 0 ∨ binade ≤ r - 1 := by
        refine low.imp_right fun h => ?_
        have : (binade : ℚ) < r := lt_of_le_of_lt h.1 below
        have := Nat.cast_lt.1 this
        omega
      have size : step m = 2 ^ e := by
        apply le_antisymm (step_scaled_le high next)
        have : m = e * binade + (r - 1) := by
          have : e = 0 ∨ binade ≤ r := low.imp_right (·.2)
          simp only [binade] at *
          omega
        rw [this]
        exact le_step_scaled whole
      rw [abs_of_pos (sub_pos.2 below)] at scaled tie
      rw [size] at succ
      rw [parity_scaled]
      refine ⟨by linarith, fun same => tie ?_⟩
      have : (r - y) * (2 ^ e : Nat) = 1 / 2 * (2 ^ e : Nat) := by linarith
      exact mul_right_cancel₀ pos.ne' this
  · intro _
    have size : ((2 ^ e : Nat) : ℚ) ≤ step (e * binade + r) :=
      Nat.cast_le.2 (le_step_scaled (low.imp_right (·.2)))
    rw [units_succ, Nat.cast_add, parity_scaled]
    rcases le_or_gt y r with below | above
    · have := mul_le_mul_of_nonneg_right below pos.le
      exact ⟨by linarith, fun same => by linarith⟩
    · rw [abs_of_neg (sub_neg.2 above)] at scaled tie
      refine ⟨by linarith, fun same => tie ?_⟩
      have : -(r - y) * (2 ^ e : Nat) = 1 / 2 * (2 ^ e : Nat) := by linarith
      exact mul_right_cancel₀ pos.ne' this

end Binade

/-- Rounding gives the nearest magnitude, ties to even. -/
theorem isNearest_nearest (num : Nat) {den : Nat} (pos : 0 < den) :
    IsNearest (num / den) (nearest num den) := by
  rw [nearest]
  generalize he : (num / den).log2 - 52 = e
  have posE := Nat.mul_pos pos (Nat.two_pow_pos e)
  have low : e = 0 ∨ binade * (den * 2 ^ e) ≤ num := by
    rcases Nat.eq_zero_or_pos e with zero | more
    · exact .inl zero
    · right
      have size : (num / den).log2 = 52 + e := by omega
      have ne : num / den ≠ 0 := by
        intro zero
        rw [zero, Nat.log2_zero] at size
        omega
      have := Nat.log2_self_le ne
      rw [size, Nat.pow_add, Nat.le_div_iff_mul_le pos] at this
      rwa [Nat.mul_comm den, ← Nat.mul_assoc]
  have high : num < 2 * binade * (den * 2 ^ e) := by
    have size : (num / den).log2 + 1 ≤ 53 + e := by omega
    have := Nat.lt_of_lt_of_le Nat.lt_log2_self (Nat.pow_le_pow_right (n := 2) (by decide) size)
    rw [Nat.pow_add, Nat.div_lt_iff_lt_mul pos] at this
    rwa [Nat.mul_comm den, ← Nat.mul_assoc]
  rcases Nat.lt_or_ge e 2046 with small | large
  · have value : (num / den : ℚ) = num / (den * 2 ^ e : Nat) * (2 ^ e : Nat) := by
      push_cast
      field_simp
    have highR := roundDiv_le high
    have le : e * binade + roundDiv num (den * 2 ^ e) ≤ infinity := by
      simp only [infinity, binade] at *
      omega
    have lowR : e = 0 ∨ (binade : ℚ) ≤ num / (den * 2 ^ e : Nat) ∧
        binade ≤ roundDiv num (den * 2 ^ e) := by
      refine low.imp_right fun h => ⟨?_, le_roundDiv posE h⟩
      rw [le_div_iff₀ (Nat.cast_pos.2 posE)]
      exact_mod_cast h
    rw [Nat.min_eq_right le, value]
    exact .of_binade le highR lowR (abs_roundDiv_sub_le num posE)
  · have h : binade * (den * 2 ^ e) ≤ num := low.resolve_left (by omega)
    have r := le_roundDiv posE h
    have le : infinity ≤ e * binade + roundDiv num (den * 2 ^ e) := by
      simp only [infinity, binade] at r ⊢
      omega
    -- A name for the exponent keeps its power from being computed.
    obtain ⟨k, hk⟩ : ∃ k, k = 2046 := ⟨_, rfl⟩
    have top : units infinity = binade * 2 ^ k := by
      rw [show infinity = k * binade + binade by rw [hk, infinity, ← Nat.succ_mul]]
      exact units_scaled (.inr le_rfl) (by decide)
    rw [← hk] at large
    have above : (units infinity : ℚ) ≤ num / den := by
      rw [le_div_iff₀ (Nat.cast_pos.2 pos), ← Nat.cast_mul, Nat.cast_le, top]
      have := Nat.pow_le_pow_right (n := 2) (by decide) large
      calc binade * 2 ^ k * den
          ≤ binade * 2 ^ e * den := Nat.mul_le_mul_right _ (Nat.mul_le_mul_left _ this)
        _ = binade * (den * 2 ^ e) := by rw [Nat.mul_assoc, Nat.mul_comm (2 ^ e)]
        _ ≤ num := h
    rw [Nat.min_eq_left le]
    refine .of_middles le_rfl (fun m next => ?_) (fun h => absurd h (lt_irrefl _))
    have := cast_units_lt (Nat.lt_of_succ_le (Nat.le_of_eq next))
    exact ⟨by linarith, fun _ => by decide⟩

end Reckon.Number
