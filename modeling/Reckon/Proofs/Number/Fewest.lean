import Reckon.Proofs.Number.Magnitude

/-!
The shortest decimals. Seventeen digits tell all magnitudes apart, and the search over grids of one
digit more each time stops at the first grid with a decimal that reads back. So no decimal with
fewer digits reads back, and of those with as few none is nearer.
-/

namespace Reckon.Decimal

open Number (unit unit_pos cast_unit_pos IsNearest)

-- Powers of natural numbers here are core's, whatever other powers are in scope.
attribute [local instance (high)] instPowNat

-- No proof computes the unit.
attribute [local irreducible] Number.unit

variable {n : Nat} {g : Int}

theorem scaled_quotient (n : Nat) (g : Int) :
    ((scaled n g).1 : ℚ) / (scaled n g).2 = Number.value n / 10 ^ g := by
  have := cast_unit_pos.ne'
  rw [scaled, Number.value, zpow_toNat]
  push_cast
  field_simp

theorem scaled_pos (n : Nat) (g : Int) : 0 < (scaled n g).2 :=
  Nat.mul_pos unit_pos (Nat.pow_pos (by decide))

def below (n : Nat) (g : Int) : Nat := (scaled n g).1 / (scaled n g).2

theorem below_le (n : Nat) (g : Int) : below n g * 10 ^ g ≤ Number.value n := by
  rw [← le_div_iff₀ (by positivity), ← scaled_quotient]
  exact Nat.cast_div_le

theorem lt_below_add_one (n : Nat) (g : Int) : Number.value n < (below n g + 1) * 10 ^ g := by
  rw [← div_lt_iff₀ (by positivity), ← scaled_quotient, below]
  rw [div_lt_iff₀ (Nat.cast_pos.2 (scaled_pos n g))]
  exact_mod_cast (Nat.div_lt_iff_lt_mul (scaled_pos n g)).1 (Nat.lt_succ_self _)

theorem abs_round_sub_le (n : Nat) (g : Int) :
    |(round n g).value - Number.value n| ≤ 10 ^ g / 2 := by
  have pos : (0 : ℚ) < 10 ^ g := by positivity
  have near := (Number.abs_roundDiv_sub_le (scaled n g).1 (scaled_pos n g)).1
  rw [scaled_quotient] at near
  have eq : (round n g).value - Number.value n =
      (Number.roundDiv (scaled n g).1 (scaled n g).2 - Number.value n / 10 ^ g) * 10 ^ g := by
    simp only [value, round]
    field_simp
  rw [eq, abs_mul, abs_of_pos pos]
  calc _ ≤ 1 / 2 * 10 ^ g := mul_le_mul_of_nonneg_right near pos.le
    _ = 10 ^ g / 2 := by ring

theorem onGrid_eq_find? (n : Nat) (g : Int) : ∃ near far,
    (near = below n g ∧ far = below n g + 1 ∨ near = below n g + 1 ∧ far = below n g) ∧
    |(⟨near, g⟩ : Decimal).value - Number.value n| ≤ 10 ^ g / 2 ∧
    onGrid n g = [⟨near, g⟩, ⟨far, g⟩].find? (·.ordinal = n) := by
  refine ⟨(round n g).digits, if (round n g).digits = below n g then below n g + 1 else below n g,
    ?_, abs_round_sub_le n g, rfl⟩
  by_cases same : (round n g).digits = below n g
  · exact .inl ⟨same, if_pos same⟩
  · refine .inr ⟨?_, if_neg same⟩
    simp only [round, Number.roundDiv, below] at same ⊢
    split at same
    · exact absurd rfl same
    · rw [if_neg ‹_›]
      split
      · rfl
      · rw [if_neg ‹_›] at same
        omega

/-- A grid with a point that reads as a magnitude has such a point next to the magnitude, and of
those points the search finds a nearest one. -/
theorem onGrid_of_ordinal (h : n ≤ Number.infinity) {c : Nat} (hc : ordinal ⟨c, g⟩ = n) :
    ∃ d, onGrid n g = some d ∧ d.exponent = g ∧ d.digits ≤ below n g + 1 ∧
      |d.value - Number.value n| ≤ |(⟨c, g⟩ : Decimal).value - Number.value n| := by
  have low := below_le n g
  have high := lt_below_add_one n g
  have pos : (0 : ℚ) < 10 ^ g := by positivity
  have mono {a b : Nat} (h : a ≤ b) : (⟨a, g⟩ : Decimal).value ≤ (⟨b, g⟩ : Decimal).value :=
    mul_le_mul_of_nonneg_right (Nat.cast_le.2 h) pos.le
  have next : (⟨below n g + 1, g⟩ : Decimal).value = (below n g + 1) * 10 ^ g := by
    simp [value]
  have last : (⟨below n g, g⟩ : Decimal).value = below n g * 10 ^ g := rfl
  -- The neighbour on the side of `c`.
  obtain ⟨p, place, reads, closer⟩ : ∃ p, (p = below n g ∨ p = below n g + 1) ∧
      ordinal ⟨p, g⟩ = n ∧ |(⟨p, g⟩ : Decimal).value - Number.value n| ≤
        |(⟨c, g⟩ : Decimal).value - Number.value n| := by
    rcases Nat.lt_or_ge (below n g) c with right | left
    · have := mono (Nat.succ_le_of_lt right)
      refine ⟨below n g + 1, .inr rfl, ordinal_of_between h hc (.inl ⟨by linarith, this⟩), ?_⟩
      rw [abs_of_pos, abs_of_pos] <;> linarith
    · have := mono left
      refine ⟨below n g, .inl rfl, ordinal_of_between h hc (.inr ⟨this, by linarith⟩), ?_⟩
      rw [abs_of_nonpos, abs_of_nonpos] <;> linarith
  obtain ⟨near, far, places, half, find⟩ := onGrid_eq_find? n g
  rw [find]
  by_cases hn : ordinal ⟨near, g⟩ = n
  · have nearer : |(⟨near, g⟩ : Decimal).value - Number.value n| ≤
        |(⟨p, g⟩ : Decimal).value - Number.value n| := by
      rw [abs_le] at half
      rcases place with rfl | rfl <;> rcases places with ⟨rfl, rfl⟩ | ⟨rfl, rfl⟩
      · exact le_rfl
      · rw [abs_of_pos, abs_of_nonpos] <;> linarith
      · rw [abs_of_nonpos, abs_of_pos] <;> linarith
      · exact le_rfl
    exact ⟨⟨near, g⟩, by simp [hn], rfl, by dsimp only; omega, le_trans nearer closer⟩
  · have : p = far := by
      rcases place with rfl | rfl <;> rcases places with ⟨rfl, rfl⟩ | ⟨rfl, rfl⟩ <;>
        first | rfl | exact absurd reads hn
    subst this
    refine ⟨⟨p, g⟩, by simp [hn, reads], rfl, by dsimp only; omega, closer⟩

theorem length_toDigits (pos : 0 < n) :
    10 ^ ((Nat.toDigits 10 n).length - 1) ≤ n ∧ n < 10 ^ (Nat.toDigits 10 n).length := by
  have some : 0 < (Nat.toDigits 10 n).length := Nat.length_toDigits_pos
  refine ⟨?_, (Nat.length_toDigits_le_iff (by decide) some).1 le_rfl⟩
  rcases Nat.eq_zero_or_pos ((Nat.toDigits 10 n).length - 1) with one | more
  · rw [one]
    exact pos
  · by_contra! less
    have := (Nat.length_toDigits_le_iff (by decide) more).2 less
    omega

theorem units_pos (pos : 0 < n) : 0 < Number.units n := by
  have := Number.units_strictMono pos
  omega

theorem length_toDigits_units (pos : 0 < n) {s : Nat} (fine : unit < 10 ^ s) :
    let len := (Nat.toDigits 10 (Number.units n * 10 ^ s / unit)).length
    (10 : ℚ) ^ ((len - 1 : Int) - s) ≤ Number.value n ∧
      Number.value n < 10 ^ ((len : Int) - s) := by
  have scaled : Number.value n * 10 ^ s = (Number.units n * 10 ^ s : Nat) / (unit : ℚ) := by
    rw [Number.value, Nat.cast_mul, Nat.cast_pow, Nat.cast_ofNat, div_mul_eq_mul_div]
  have whole : 0 < Number.units n * 10 ^ s / unit :=
    Nat.div_pos (Nat.le_trans fine.le (Nat.le_mul_of_pos_left _ (units_pos pos))) unit_pos
  have front : ((Number.units n * 10 ^ s / unit : Nat) : ℚ) ≤ Number.value n * 10 ^ s := by
    rw [scaled]
    exact Nat.cast_div_le
  have back : Number.value n * 10 ^ s < (Number.units n * 10 ^ s / unit + 1 : Nat) := by
    rw [scaled, div_lt_iff₀ cast_unit_pos, ← Nat.cast_mul, Nat.cast_lt]
    exact (Nat.div_lt_iff_lt_mul unit_pos).1 (Nat.lt_succ_self _)
  obtain ⟨low, high⟩ := length_toDigits whole
  generalize Number.units n * 10 ^ s / unit = x at *
  intro len
  have lowQ : (10 : ℚ) ^ (len - 1) ≤ x := by exact_mod_cast low
  have highQ : (x + 1 : Nat) ≤ (10 : ℚ) ^ len := by exact_mod_cast high
  have some : 0 < len := Nat.length_toDigits_pos
  constructor
  · rw [← Nat.cast_one, ← Nat.cast_sub some, zpow_sub₀ (by norm_num), zpow_natCast, zpow_natCast,
      div_le_iff₀ (by positivity)]
    exact lowQ.trans front
  · rw [zpow_sub₀ (by norm_num), zpow_natCast, zpow_natCast, lt_div_iff₀ (by positivity)]
    exact lt_of_lt_of_le back highQ

theorem magnitude_spec (pos : 0 < n) :
    -324 ≤ magnitude n ∧ (10 : ℚ) ^ magnitude n ≤ Number.value n ∧
      Number.value n < 10 ^ (magnitude n + 1) := by
  have place := length_toDigits_units pos Number.unit_lt
  have some := @Nat.length_toDigits_pos 10 (Number.units n * 10 ^ (324 : Nat) / unit)
  rw [magnitude]
  generalize (Nat.toDigits 10 (Number.units n * 10 ^ (324 : Nat) / unit)).length = len at *
  dsimp only at place
  rw [show (len : Int) - 325 = len - 1 - (324 : Nat) by omega,
    show (len : Int) - 1 - (324 : Nat) + 1 = len - (324 : Nat) by omega]
  exact ⟨by omega, place⟩

theorem units_le_step (m : Nat) : Number.units (m + 1) ≤ 2 ^ 53 * Number.step m := by
  rw [Number.units_succ]
  rcases Nat.lt_or_ge m Number.binade with small | large
  · rw [Number.units_of_lt small]
    have := Number.step_pos m
    simp only [Number.binade] at small
    omega
  · have rest : m % Number.binade < Number.binade := Nat.mod_lt m (by decide)
    rw [Number.units_of_le large, ← Number.step, ← Nat.succ_mul]
    apply Nat.mul_le_mul_right
    simp only [Number.binade] at *
    omega

theorem ordinal_round {m : Nat} (h : m + 1 < Number.infinity)
    (fine : 10 ^ g * unit < (Number.step m : ℚ)) : (round (m + 1) g).ordinal = m + 1 := by
  have near := abs_le.1 (abs_round_sub_le (m + 1) g)
  have step : (Number.step m : ℚ) ≤ Number.step (m + 1) :=
    Nat.cast_le.2 (Number.step_mono (Nat.le_succ m))
  have low : (Number.units (m + 1) : ℚ) = Number.units m + Number.step m := by
    rw [Number.units_succ, Nat.cast_add]
  have high : (Number.units (m + 1 + 1) : ℚ) = Number.units (m + 1) + Number.step (m + 1) := by
    rw [Number.units_succ (m + 1), Nat.cast_add]
  have value := Number.value_mul_unit (m + 1)
  have lower := mul_le_mul_of_nonneg_right near.1 cast_unit_pos.le
  have upper := mul_le_mul_of_nonneg_right near.2 cast_unit_pos.le
  apply (isNearest_ordinal _).unique
  apply IsNearest.of_middles (Nat.le_of_lt h)
  · intro k next
    cases next
    exact ⟨by linarith, fun tie => by linarith⟩
  · intro _
    exact ⟨by linarith, fun tie => by linarith⟩

theorem fine_grid (m : Nat) {k : Nat} (hk : k = 16 ∨ magnitude (m + 1) - k = -324) :
    10 ^ (magnitude (m + 1) - k) * unit < (Number.step m : ℚ) := by
  have pos : (1 : ℚ) ≤ Number.step m := by exact_mod_cast Number.step_pos m
  rcases hk with rfl | least
  · have first := (magnitude_spec (Nat.succ_pos m)).2.1
    have close : (Number.units (m + 1) : ℚ) ≤ 2 ^ 53 * Number.step m := by
      exact_mod_cast units_le_step m
    rw [zpow_sub₀ (by norm_num), div_mul_eq_mul_div, div_lt_iff₀ (by positivity)]
    have := mul_le_mul_of_nonneg_right first cast_unit_pos.le
    rw [Number.value_mul_unit] at this
    norm_num
    linarith
  · rw [least, zpow_neg, inv_mul_lt_iff₀ (by positivity)]
    rw [zpow_ofNat]
    calc (unit : ℚ) < 10 ^ 324 * 1 := by rw [mul_one]; exact Number.cast_unit_lt
      _ ≤ 10 ^ 324 * Number.step m := mul_le_mul_of_nonneg_left pos (by positivity)

theorem exists_of_findSome?_range {f : Nat → Option α} {size : Nat}
    (h : (List.range size).findSome? f = some a) :
    ∃ k < size, f k = some a ∧ ∀ j < k, f j = none := by
  induction size with
  | zero => cases h
  | succ size ih =>
    rw [List.range_succ, List.findSome?_append] at h
    cases front : (List.range size).findSome? f with
    | some b =>
      rw [front] at h
      obtain ⟨k, less, found, none⟩ := ih (front.trans h)
      exact ⟨k, Nat.lt_succ_of_lt less, found, none⟩
    | none =>
      rw [front, Option.none_or] at h
      rw [List.findSome?_eq_none_iff] at front
      exact ⟨size, Nat.lt_succ_self size, by simpa using h, by simpa using front⟩

theorem shortest_spec (pos : 0 < n) (h : n < Number.infinity) :
    ∃ k : Nat, k ≤ 16 ∧ -324 ≤ magnitude n - k ∧
      (∀ j : Nat, j < k → onGrid n (magnitude n - j) = none) ∧
      ∃ d, onGrid n (magnitude n - k) = some d ∧ shortest n = d.trim := by
  obtain ⟨m, rfl⟩ := Nat.exists_eq_add_one_of_ne_zero pos.ne'
  obtain ⟨bound, -, -⟩ := magnitude_spec pos
  -- The last exponent that has to be tried.
  obtain ⟨last, few, bound, fine⟩ : ∃ k : Nat, k ≤ 16 ∧ -324 ≤ magnitude (m + 1) - k ∧
      (k = 16 ∨ magnitude (m + 1) - k = -324) :=
    ⟨min 16 (magnitude (m + 1) + 324).toNat, by omega, by omega, by omega⟩
  obtain ⟨d, found, -⟩ := onGrid_of_ordinal h.le (ordinal_round h (fine_grid m fine))
  have search : ((List.range 17).findSome? fun k : Nat =>
      onGrid (m + 1) (magnitude (m + 1) - k)).isSome := by
    rw [List.findSome?_isSome_iff]
    exact ⟨last, List.mem_range.2 (by omega), by rw [found]; rfl⟩
  obtain ⟨d, eq⟩ := Option.isSome_iff_exists.1 search
  obtain ⟨k, less, found, none⟩ := exists_of_findSome?_range eq
  have early : k ≤ last := by
    by_contra! late
    have := none last late
    simp_all
  exact ⟨k, by omega, by omega, none, d, found, by simp [shortest, eq]⟩

theorem trim_spec (d : Decimal) : ∃ j : Nat, d.digits = d.trim.digits * 10 ^ j ∧
    d.trim.exponent = d.exponent + j ∧ (d.digits ≠ 0 → d.trim.digits % 10 ≠ 0) := by
  fun_induction trim d with
  | case1 d h ih =>
    obtain ⟨j, digits, exponent, last⟩ := ih
    refine ⟨j + 1, ?_, ?_, fun _ => last ?_⟩
    · rw [Nat.pow_succ, ← Nat.mul_assoc, ← digits]
      exact (Nat.div_mul_cancel (Nat.dvd_of_mod_eq_zero h.2)).symm
    · rw [exponent]
      push_cast
      ring
    · simp only
      omega
  | case2 d h => exact ⟨0, by simp, by simp, by omega⟩

theorem value_trim (d : Decimal) : d.trim.value = d.value := by
  obtain ⟨j, digits, exponent, -⟩ := d.trim_spec
  rw [value, value, exponent, digits, zpow_add₀ (by norm_num), zpow_natCast]
  push_cast
  ring

def size (d : Decimal) : Nat := (Nat.toDigits 10 d.digits).length

theorem below_lt (pos : 0 < n) (k : Nat) : below n (magnitude n - k) < 10 ^ (k + 1) := by
  have low := below_le n (magnitude n - k)
  have high := (magnitude_spec pos).2.2
  have grid : (10 : ℚ) ^ (magnitude n + 1) = (10 ^ (k + 1) : Nat) * 10 ^ (magnitude n - k) := by
    rw [Nat.cast_pow, Nat.cast_ofNat, ← zpow_natCast, ← zpow_add₀ (by norm_num)]
    congr 1
    push_cast
    ring
  rw [grid] at high
  exact_mod_cast lt_of_mul_lt_mul_right (lt_of_le_of_lt low high) (by positivity)

theorem size_trim_le {d : Decimal} {k : Nat} (pos : d.digits ≠ 0) (h : d.digits ≤ 10 ^ (k + 1)) :
    d.trim.size ≤ k + 1 := by
  obtain ⟨j, digits, -, last⟩ := d.trim_spec
  rw [size, Nat.length_toDigits_le_iff (by decide) (Nat.succ_pos k)]
  have last := last pos
  have whole : 0 < 10 ^ j := Nat.pow_pos (by decide)
  have le : d.trim.digits ≤ d.digits := by
    rw [digits]
    exact Nat.le_mul_of_pos_right _ whole
  -- The least number with a digit more ends in zero.
  have : d.trim.digits ≠ 10 ^ (k + 1) := by
    intro same
    rw [same, Nat.pow_succ, Nat.mul_mod_left] at last
    exact last rfl
  omega

theorem size_pos (d : Decimal) : 0 < d.size := Nat.length_toDigits_pos

theorem digits_ne_zero {d : Decimal} (pos : 0 < n) (h : d.ordinal = n) : d.digits ≠ 0 := by
  intro zero
  have := ordinal_zero d.exponent
  rw [← zero, h] at this
  omega

theorem exists_onGrid {c : Decimal} (pos : 0 < n) (h : n ≤ Number.infinity) (hc : c.ordinal = n) :
    ∃ a, ordinal ⟨a, magnitude n - (c.size - 1 : Nat)⟩ = n ∧
      |(⟨a, magnitude n - (c.size - 1 : Nat)⟩ : Decimal).value - Number.value n| ≤
        |c.value - Number.value n| := by
  obtain ⟨-, first, next⟩ := magnitude_spec pos
  have digits := length_toDigits (Nat.pos_of_ne_zero (digits_ne_zero pos hc))
  obtain ⟨t, ht⟩ := Nat.exists_eq_add_one_of_ne_zero c.size_pos.ne'
  rw [← size, ht, Nat.add_sub_cancel] at digits
  rw [ht, Nat.add_sub_cancel]
  generalize hg : magnitude n - t = g
  have power (k : Nat) : (⟨10 ^ k, g⟩ : Decimal).value = 10 ^ (k + g) := by
    rw [value, Nat.cast_pow, Nat.cast_ofNat, zpow_add₀ (by norm_num), zpow_natCast]
  have grow {a b : Int} (h : a ≤ b) : (10 : ℚ) ^ a ≤ 10 ^ b := zpow_le_zpow_right₀ (by norm_num) h
  rcases lt_trichotomy c.exponent g with small | same | large
  · have : c.value ≤ 10 ^ magnitude n := by
      calc c.value ≤ (10 ^ (t + 1) : Nat) * 10 ^ c.exponent :=
            mul_le_mul_of_nonneg_right (by exact_mod_cast digits.2.le) (by positivity)
        _ = 10 ^ (t + 1 + c.exponent) := by
          rw [Nat.cast_pow, Nat.cast_ofNat, ← zpow_natCast, ← zpow_add₀ (by norm_num)]
          push_cast
          rfl
        _ ≤ 10 ^ magnitude n := grow (by omega)
    have place : (⟨10 ^ t, g⟩ : Decimal).value = 10 ^ magnitude n := by
      rw [power]
      congr 1
      omega
    refine ⟨10 ^ t, ordinal_of_between h hc (.inr ⟨by linarith, by linarith⟩), ?_⟩
    rw [abs_of_nonpos, abs_of_nonpos] <;> linarith
  · exact ⟨c.digits, by rw [← same]; exact hc, by rw [← same]⟩
  · have : 10 ^ (magnitude n + 1) ≤ c.value := by
      calc (10 : ℚ) ^ (magnitude n + 1) ≤ 10 ^ (t + c.exponent) := grow (by omega)
        _ = (10 ^ t : Nat) * 10 ^ c.exponent := by
          rw [Nat.cast_pow, Nat.cast_ofNat, ← zpow_natCast, ← zpow_add₀ (by norm_num)]
        _ ≤ c.value :=
          mul_le_mul_of_nonneg_right (by exact_mod_cast digits.1) (by positivity)
    have place : (⟨10 ^ (t + 1), g⟩ : Decimal).value = 10 ^ (magnitude n + 1) := by
      rw [power]
      congr 1
      push_cast
      omega
    refine ⟨10 ^ (t + 1), ordinal_of_between h hc (.inl ⟨by linarith, by linarith⟩), ?_⟩
    rw [abs_of_nonneg, abs_of_nonneg] <;> linarith

theorem onGrid_found {d : Decimal} (pos : 0 < n) (h : n ≤ Number.infinity) {k : Nat}
    (found : onGrid n (magnitude n - k) = some d) :
    d.exponent = magnitude n - k ∧ d.digits ≠ 0 ∧ d.digits ≤ 10 ^ (k + 1) := by
  have reads := ordinal_onGrid found
  have exponent : d.exponent = magnitude n - k := by
    have := List.mem_of_find?_eq_some found
    simp only [List.mem_cons, List.not_mem_nil, or_false] at this
    rcases this with rfl | rfl <;> rfl
  have placed : ordinal ⟨d.digits, magnitude n - k⟩ = n := by
    rw [← exponent]
    exact reads
  obtain ⟨d', found', -, digits, -⟩ := onGrid_of_ordinal h placed
  rw [found] at found'
  cases found'
  have := below_lt pos k
  exact ⟨exponent, digits_ne_zero pos reads, by omega⟩

theorem shortest_bounds (pos : 0 < n) (h : n < Number.infinity) :
    (shortest n).digits % 10 ≠ 0 ∧ (shortest n).size ≤ 17 ∧ -324 ≤ (shortest n).exponent ∧
      (shortest n).size + (shortest n).exponent ≤ 310 := by
  obtain ⟨k, few, low, -, d, found, eq⟩ := shortest_spec pos h
  obtain ⟨exponent, nonzero, digits⟩ := onGrid_found pos h.le found
  have size := size_trim_le nonzero digits
  have high : magnitude n < 309 := by
    have := (magnitude_spec pos).2.1.trans_lt (Number.value_lt h)
    exact (zpow_lt_zpow_iff_right₀ (by norm_num)).1 this
  obtain ⟨j, same, moved, last⟩ := d.trim_spec
  rw [eq]
  have whole : d.trim.size + j ≤ k + 2 := by
    have pos : 0 < d.trim.digits := by
      have := last nonzero
      omega
    have some := (length_toDigits pos).1
    rw [same] at digits
    have := (Nat.mul_le_mul_right (10 ^ j) some).trans digits
    rw [← Nat.pow_add, Nat.pow_le_pow_iff_right (by decide)] at this
    rw [Decimal.size]
    omega
  exact ⟨last nonzero, by omega, by omega, by omega⟩

/-- The shortest decimal that reads as a magnitude has the fewest digits of all, and is a nearest
one of those with as few. -/
theorem shortest_le {c : Decimal} (pos : 0 < n) (h : n < Number.infinity) (hc : c.ordinal = n) :
    (shortest n).size ≤ c.size ∧ (c.size ≤ (shortest n).size →
      |(shortest n).value - Number.value n| ≤ |c.value - Number.value n|) := by
  obtain ⟨k, -, -, none, d, found, eq⟩ := shortest_spec pos h
  obtain ⟨-, nonzero, digits⟩ := onGrid_found pos h.le found
  obtain ⟨a, reads, closer⟩ := exists_onGrid pos h.le hc
  obtain ⟨d', found', -, -, nearest⟩ := onGrid_of_ordinal h.le reads
  have late : k ≤ c.size - 1 := by
    by_contra! early
    rw [none _ early] at found'
    cases found'
  have size := size_trim_le nonzero digits
  have some := c.size_pos
  rw [eq, value_trim]
  refine ⟨by omega, fun few => ?_⟩
  have same : c.size - 1 = k := by omega
  rw [same, found] at found'
  cases found'
  exact nearest.trans closer

end Reckon.Decimal
