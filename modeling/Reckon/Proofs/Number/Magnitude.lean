import Reckon.Proofs.Number.Bits
import Reckon.Proofs.Number.Rounding

namespace Reckon

-- Powers of natural numbers here are core's, whatever other powers are in scope.
attribute [local instance (high)] instPowNat

namespace Number

open Float.Model (Format UnpackedFloat)
open Float.Model.UnpackedFloat

def value (n : Nat) : ℚ := units n / unit

theorem exists_unit_eq : ∃ k : Nat, k = 1074 ∧ unit = 2 ^ k := ⟨1074, rfl, by simp only [unit]⟩

theorem cast_unit : (unit : ℚ) = 2 ^ (1074 : Int) := by
  obtain ⟨k, hk, eq⟩ := exists_unit_eq
  rw [eq, show (1074 : Int) = k by omega, Nat.cast_pow, Nat.cast_ofNat, zpow_natCast]

theorem unit_pos : 0 < unit := by
  obtain ⟨k, -, eq⟩ := exists_unit_eq
  rw [eq]
  exact Nat.two_pow_pos k

theorem cast_unit_pos : (0 : ℚ) < unit := Nat.cast_pos.2 unit_pos

theorem unit_lt : unit < 10 ^ (324 : Nat) := by
  have small : 2 ^ (179 : Nat) < 10 ^ (54 : Nat) := by decide
  have := Nat.pow_lt_pow_left small (show 6 ≠ 0 by decide)
  simpa only [unit, ← Nat.pow_mul, Nat.reduceMul] using this

theorem cast_unit_lt : (unit : ℚ) < 10 ^ 324 := by
  have cast (k : Nat) : (10 : ℚ) ^ k = (10 ^ k : Nat) := by rw [Nat.cast_pow, Nat.cast_ofNat]
  rw [cast, Nat.cast_lt]
  exact unit_lt

theorem two_pow_lt : 2 ^ (1024 : Nat) < 10 ^ (309 : Nat) := by
  have small : 2 ^ (256 : Nat) < 12 * 10 ^ (76 : Nat) := by decide
  have ten : 12 ^ (4 : Nat) ≤ 10 ^ (5 : Nat) := by decide
  have := Nat.pow_lt_pow_left small (show 4 ≠ 0 by decide)
  rw [Nat.mul_pow] at this
  have := this.trans_le (Nat.mul_le_mul_right _ ten)
  simpa only [← Nat.pow_mul, ← Nat.pow_add, Nat.reduceMul, Nat.reduceAdd] using this

theorem units_infinity : units infinity < 10 ^ (309 : Nat) * unit := by
  obtain ⟨e, he⟩ : ∃ e, e = 2046 := ⟨_, rfl⟩
  obtain ⟨k, hk, eq⟩ := exists_unit_eq
  have split : infinity = e * binade + binade := by rw [he]; decide
  obtain ⟨j, hj, less⟩ : ∃ j, j = 1024 ∧ 2 ^ j < 10 ^ (309 : Nat) := ⟨_, rfl, two_pow_lt⟩
  have power : 52 + e = j + k := by omega
  rw [split, units_scaled (.inr le_rfl) (Nat.le_mul_of_pos_left _ (by decide)), binade,
    ← Nat.pow_add, power, Nat.pow_add, eq]
  generalize 10 ^ (309 : Nat) = bound at *
  exact Nat.mul_lt_mul_of_pos_right less (Nat.two_pow_pos k)

-- From here on the unit is a name: no proof computes it.
attribute [local irreducible] unit

theorem value_mul_unit (n : Nat) : value n * unit = units n :=
  div_mul_cancel₀ _ cast_unit_pos.ne'

theorem value_lt (h : n < infinity) : value n < 10 ^ (309 : Int) := by
  have less := (units_strictMono h).trans units_infinity
  have cast (k : Nat) : (10 : ℚ) ^ k = (10 ^ k : Nat) := by rw [Nat.cast_pow, Nat.cast_ofNat]
  rw [value, div_lt_iff₀ cast_unit_pos, zpow_ofNat, cast, ← Nat.cast_mul, Nat.cast_lt]
  exact less

theorem isNearest_units (h : n ≤ infinity) : IsNearest (units n) n := by
  refine ⟨h, fun m _ => ?_, fun m _ ne same => ?_⟩
  · rw [sub_self, abs_zero]
    exact abs_nonneg _
  · rw [sub_self, abs_zero, abs_eq_zero, sub_eq_zero, Nat.cast_inj] at same
    exact absurd (units_strictMono.injective same) ne

def absolute : UnpackedFloat → ℚ
  | .finite _ m e _ => m * 2 ^ e
  | _ => 0

theorem value_unpack {b : BitVec Format.binary64.numBits}
    (h : (unpack Format.binary64 b).isFinite) :
    value (b.toNat % signBit) = absolute (unpack Format.binary64 b) := by
  have cut : b.toNat % signBit = (unpackExponent b).toNat * binade + (unpackMantissa b).toNat := by
    rw [toNat_unpackMantissa, toNat_unpackExponent]
    simp only [signBit, binade]
    omega
  have low : (unpackMantissa b).toNat < binade := (unpackMantissa b).isLt
  revert h
  rw [value, cut, cast_unit]
  fun_cases unpack Format.binary64 b with
  | case1 => intro h; cases h
  | case2 => intro h; cases h
  | case3 mantissa exponent sign _ _ h0 hm =>
    intro _
    have h0 : (unpackExponent b).toNat = 0 := congrArg BitVec.toNat h0
    have hm : (unpackMantissa b).toNat = 0 := congrArg BitVec.toNat hm
    rw [h0, hm, units_of_lt (by decide)]
    simp [absolute]
  | case4 _ _ exponent _ _ _ h0 hm =>
    intro _
    have h0 : (unpackExponent b).toNat = 0 := congrArg BitVec.toNat h0
    have place : exponent + 1 = -1074 := by
      change ((unpackExponent b).toNat : Int) - 1075 + 1 = -1074
      omega
    rw [h0, Nat.zero_mul, Nat.zero_add, units_of_lt low]
    dsimp only [absolute]
    rw [place, zpow_neg, div_eq_mul_inv]
  | case5 _ _ exponent _ _ _ h0 =>
    intro _
    have some : (unpackExponent b).toNat ≠ 0 := fun zero => h0 (BitVec.eq_of_toNat_eq zero)
    obtain ⟨e, he⟩ := Nat.exists_eq_add_one_of_ne_zero some
    have place : exponent = e - 1074 := by
      change ((unpackExponent b).toNat : Int) - 1075 = e - 1074
      omega
    have shift : (e + 1) * binade + (unpackMantissa b).toNat =
        e * binade + (binade + (unpackMantissa b).toNat) := by
      rw [Nat.succ_mul, Nat.add_assoc]
    rw [he, shift, units_scaled (.inr (Nat.le_add_right _ _)) (by omega)]
    dsimp only [absolute]
    rw [place, toNat_one_append, zpow_sub₀ (by norm_num), zpow_natCast, Nat.cast_mul, Nat.cast_pow,
      Nat.cast_ofNat, ← binade, mul_div_assoc]

theorem value_ordinal {v : Float} (h : v.isFinite) :
    value (ordinal v) = absolute v.toModel.unpack :=
  value_unpack h

end Number

namespace Decimal

open Number (unit cast_unit_pos IsNearest)

def value (d : Decimal) : ℚ := d.digits * 10 ^ d.exponent

theorem zpow_toNat (g : Int) : (10 : ℚ) ^ g = (10 ^ g.toNat : Nat) / (10 ^ (-g).toNat : Nat) := by
  push_cast
  rw [← zpow_natCast, ← zpow_natCast, ← zpow_sub₀ (by norm_num), Int.toNat_sub_toNat_neg]

theorem isNearest_ordinal (d : Decimal) : IsNearest (d.value * unit) d.ordinal := by
  have eq : d.value * unit = (d.num * unit : Nat) / (d.den : ℚ) := by
    rw [value, zpow_toNat, num, den, Nat.cast_mul, Nat.cast_mul]
    ring
  rw [eq]
  exact Number.isNearest_nearest _ d.den_pos

theorem ordinal_toFloat (d : Decimal) (negative : Bool) :
    Number.ordinal (d.toFloat negative) = d.ordinal :=
  Number.ordinal_ofOrdinal (Number.nearest_le_infinity ..) negative

theorem ordinal_of_between {c d : Decimal} (h : n ≤ Number.infinity) (hd : d.ordinal = n)
    (between : Number.value n ≤ c.value ∧ c.value ≤ d.value ∨
      d.value ≤ c.value ∧ c.value ≤ Number.value n) : c.ordinal = n := by
  have scale {x y : ℚ} (h : x ≤ y) : x * unit ≤ y * unit :=
    mul_le_mul_of_nonneg_right h cast_unit_pos.le
  have self := Number.isNearest_units h
  rw [← Number.value_mul_unit] at self
  subst hd
  have hc := c.isNearest_ordinal
  have hd := d.isNearest_ordinal
  rcases between with ⟨low, high⟩ | ⟨low, high⟩
  · exact le_antisymm (hc.mono hd (scale high)) (self.mono hc (scale low))
  · exact le_antisymm (hc.mono self (scale high)) (hd.mono hc (scale low))

end Decimal

end Reckon
