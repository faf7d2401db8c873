import Mathlib
import Reckon.Number.Binary

namespace Reckon.Number

-- Powers here are those of natural numbers, whatever other powers are in scope.
attribute [local instance (high)] instPowNat

open Float.Model (Format)
open Float.Model.UnpackedFloat

theorem toNat_unpackMantissa (b : BitVec Format.binary64.numBits) :
    (unpackMantissa b).toNat = b.toNat % 2 ^ 52 := by
  simp [unpackMantissa]

theorem toNat_unpackExponent (b : BitVec Format.binary64.numBits) :
    (unpackExponent b).toNat = b.toNat / 2 ^ 52 % 2 ^ 11 := by
  simp [unpackExponent, Nat.shiftRight_eq_div_pow]

theorem toNat_one_append (m : BitVec 52) : (1#1 ++ m).toNat = 2 ^ 52 + m.toNat := by
  rw [BitVec.toNat_append, Nat.shiftLeft_eq, ← Nat.shiftLeft_eq,
    ← Nat.shiftLeft_add_eq_or_of_lt m.isLt]
  rfl

theorem ofBits_toBits (v : Float) : Float.ofBits v.toBits = v := by
  obtain ⟨bits, valid⟩ := v
  simp only [Float.ofBits, Float.toBits, Float.Model.ofBits, Float.Model.pack]
  congr
  rw [pack_unpack_of_valid valid]

theorem ofOrdinal_ordinal (v : Float) : ofOrdinal (isNegative v) (ordinal v) = v := by
  have bound := v.toBits.toNat_lt
  have bits : (if isNegative v then signBit + ordinal v else ordinal v) = v.toBits.toNat := by
    by_cases h : signBit ≤ v.toBits.toNat <;> simp only [signBit] at h <;>
      simp [isNegative, ordinal, signBit, h] <;> omega
  rw [ofOrdinal, bits, UInt64.ofNat_toNat, ofBits_toBits]

theorem toBits_ofOrdinal {n : Nat} (h : n ≤ infinity) (negative : Bool) :
    (ofOrdinal negative n).toBits.toNat = if negative then signBit + n else n := by
  generalize hb : (if negative then signBit + n else n) = b
  have bound : b < 2 ^ 64 ∧ b % 2 ^ 63 = n := by
    simp only [signBit, infinity, binade] at h hb
    split at hb <;> omega
  have bits : (UInt64.ofNat b).toBitVec.toNat = b := Nat.mod_eq_of_lt bound.1
  have valid : Format.binary64.Valid (UInt64.ofNat b).toBitVec := by
    refine ⟨fun full some => absurd ?_ some⟩
    have full := congrArg BitVec.toNat full
    apply BitVec.eq_of_toNat_eq
    rw [toNat_unpackExponent, bits] at full
    rw [toNat_unpackMantissa, bits]
    change b / 2 ^ 52 % 2 ^ 11 = 2047 at full
    change b % 2 ^ 52 = 0
    simp only [infinity, binade] at h
    omega
  rw [ofOrdinal, hb]
  simp only [Float.ofBits, Float.toBits, Float.Model.ofBits, Float.Model.pack]
  rw [pack_unpack_of_valid valid]
  exact bits

theorem ordinal_ofOrdinal {n : Nat} (h : n ≤ infinity) (negative : Bool) :
    ordinal (ofOrdinal negative n) = n := by
  rw [ordinal, toBits_ofOrdinal h]
  simp only [signBit, infinity, binade] at h ⊢
  split <;> omega

theorem isFinite_eq (v : Float) : v.isFinite = !(v.isNaN || v.isInf) := by
  simp only [Float.isFinite, Float.isNaN, Float.isInf, Float.Model.isFinite, Float.Model.isNaN,
    Float.Model.isInf]
  cases v.toModel.unpack <;> rfl

/-- What bits stand for, by the ordinal of their magnitude. -/
theorem unpack_cases (b : BitVec Format.binary64.numBits) :
    (b.toNat % signBit = 0 ∧ ∃ s, unpack Format.binary64 b = .zero s) ∨
    (0 < b.toNat % signBit ∧ b.toNat % signBit < infinity ∧
      ∃ s m e h, unpack Format.binary64 b = .finite s m e h) ∨
    (infinity ≤ b.toNat % signBit ∧
      (unpack Format.binary64 b = .notANumber ∨ ∃ s, unpack Format.binary64 b = .infinity s)) := by
  have full : unpackExponent b = -1#_ ↔ b.toNat / 2 ^ 52 % 2 ^ 11 = 2047 := by
    rw [← toNat_unpackExponent, ← BitVec.toNat_inj]
    rfl
  have least : unpackExponent b = 0#_ ↔ b.toNat / 2 ^ 52 % 2 ^ 11 = 0 := by
    rw [← toNat_unpackExponent, ← BitVec.toNat_inj]
    rfl
  have empty : unpackMantissa b = 0#_ ↔ b.toNat % 2 ^ 52 = 0 := by
    rw [← toNat_unpackMantissa, ← BitVec.toNat_inj]
    rfl
  simp only [signBit, infinity, binade]
  fun_cases unpack Format.binary64 b with
  | case1 _ _ _ _ he _ =>
    have := full.1 he
    exact .inr (.inr ⟨by omega, .inr ⟨_, rfl⟩⟩)
  | case2 _ _ he _ =>
    have := full.1 he
    exact .inr (.inr ⟨by omega, .inl rfl⟩)
  | case3 _ _ _ _ _ h0 hm =>
    have := least.1 h0
    have := empty.1 hm
    exact .inl ⟨by omega, _, rfl⟩
  | case4 _ _ _ _ _ he _ hm =>
    have := mt full.2 he
    have := mt empty.2 hm
    exact .inr (.inl ⟨by omega, by omega, _, _, _, _, rfl⟩)
  | case5 _ _ _ _ _ he h0 =>
    have := mt full.2 he
    have := mt least.2 h0
    exact .inr (.inl ⟨by omega, by omega, _, _, _, _, rfl⟩)

theorem ordinal_lt_infinity {v : Float} (h : v.isFinite) : ordinal v < infinity := by
  have finite : (unpack Format.binary64 v.toBits.toBitVec).isFinite := h
  change v.toBits.toBitVec.toNat % signBit < infinity
  rcases unpack_cases v.toBits.toBitVec with ⟨none, _⟩ | ⟨_, small, _⟩ | ⟨_, eq | ⟨s, eq⟩⟩
  · rw [none]
    decide
  · exact small
  · simp [eq, isFinite] at finite
  · simp [eq, isFinite] at finite

theorem beq_zero (v : Float) : (v == 0) = decide (ordinal v = 0) := by
  have zero : (0 : Float).toModel.unpack = .zero .positive := by rfl
  change (unpack Format.binary64 v.toBits.toBitVec).beq (0 : Float).toModel.unpack =
    decide (v.toBits.toBitVec.toNat % signBit = 0)
  rw [zero]
  rcases unpack_cases v.toBits.toBitVec with
    ⟨none, s, eq⟩ | ⟨pos, _, s, m, e, h, eq⟩ | ⟨large, eq | ⟨s, eq⟩⟩
  · rw [eq, none]
    rfl
  · rw [eq, decide_eq_false (by omega)]
    cases s <;> rfl
  all_goals
    simp only [infinity, binade] at large
    rw [eq, decide_eq_false (by omega)]
  · rfl
  · cases s <;> rfl

end Reckon.Number
