import Reckon.Proofs.Number.Fewest
import Reckon.Proofs.Number.Literal

namespace Reckon

open scoped Computability

-- Powers of natural numbers here are core's, whatever other powers are in scope.
attribute [local instance (high)] instPowNat

namespace Numeral

def digit : Language Char := {w | ∃ c : Char, c.isDigit ∧ w = [c]}

def nonzero : Language Char := {w | ∃ c : Char, c.isDigit ∧ c ≠ '0' ∧ w = [c]}

def whole : Language Char := {['0']} + nonzero * digit∗

def fraction : Language Char := digit∗ * nonzero

def unsigned : Language Char := whole * (1 + {['.']} * fraction)

/-- The expression `-?(0|[1-9][0-9]*)(\.[0-9]*[1-9])?`. -/
def signed : Language Char := (1 + {['-']}) * unsigned

theorem mem_kstar_digit {w : List Char} (h : ∀ c ∈ w, c.isDigit) : w ∈ digit∗ := by
  induction w with
  | nil => exact Language.nil_mem_kstar digit
  | cons c w ih =>
    rw [List.forall_mem_cons] at h
    have one : [c] ∈ digit := ⟨c, h.1, rfl⟩
    have grow : digit * digit∗ ≤ digit∗ := mul_kstar_le_kstar
    exact grow (Language.append_mem_mul one (ih h.2))

theorem cons_mem_whole {c : Char} (nonzero : c ≠ '0') {w : List Char}
    (h : ∀ d ∈ c :: w, d.isDigit) : c :: w ∈ whole := by
  rw [List.forall_mem_cons] at h
  exact .inr (Language.append_mem_mul (a := [c]) ⟨c, h.1, nonzero, rfl⟩ (mem_kstar_digit h.2))

theorem concat_mem_fraction {c : Char} (nonzero : c ≠ '0') {w : List Char}
    (h : ∀ d ∈ w ++ [c], d.isDigit) : w ++ [c] ∈ fraction := by
  rw [List.forall_mem_append, List.forall_mem_singleton] at h
  exact Language.append_mem_mul (mem_kstar_digit h.1) ⟨c, h.2, nonzero, rfl⟩

theorem mem_unsigned_of_whole (h : w ∈ whole) : w ∈ unsigned := by
  have none : [] ∈ 1 + {['.']} * fraction := (Language.mem_add ..).2 (.inl Language.nil_mem_one)
  have := Language.append_mem_mul h none
  rwa [List.append_nil] at this

theorem mem_unsigned (hw : w ∈ whole) (hf : f ∈ fraction) : w ++ '.' :: f ∈ unsigned :=
  Language.append_mem_mul hw (.inr (Language.append_mem_mul (a := ['.']) rfl hf))

theorem mem_signed (negative : Bool) (h : w ∈ unsigned) :
    (Lexeme.literal negative w).text ∈ signed := by
  cases negative with
  | false => exact Language.append_mem_mul (a := []) (.inl rfl) h
  | true => exact Language.append_mem_mul (a := ['-']) (.inr rfl) h

end Numeral

namespace Decimal

open Numeral

theorem isDigit_toDigits (n : Nat) : ∀ c ∈ Nat.toDigits 10 n, c.isDigit :=
  fun _ => Nat.isDigit_of_mem_toDigits (by decide) (by decide)

theorem toDigits_eq_cons {n : Nat} (pos : 0 < n) :
    ∃ c cs, Nat.toDigits 10 n = c :: cs ∧ c ≠ '0' := by
  induction n using Nat.strongRecOn with
  | ind n ih =>
    rw [Nat.toDigits_eq_if (by decide)]
    split
    · refine ⟨n.digitChar, [], rfl, ?_⟩
      rw [ne_eq, Nat.digitChar_eq_zero]
      exact pos.ne'
    · obtain ⟨c, cs, eq, first⟩ := ih (n / 10) (by omega) (by omega)
      exact ⟨c, cs ++ [(n % 10).digitChar], by rw [eq, List.cons_append], first⟩

theorem toDigits_eq_concat {n : Nat} (last : n % 10 ≠ 0) :
    ∃ cs c, Nat.toDigits 10 n = cs ++ [c] ∧ c ≠ '0' := by
  have nonzero : (n % 10).digitChar ≠ '0' := by rwa [ne_eq, Nat.digitChar_eq_zero]
  rw [Nat.toDigits_eq_if (by decide)]
  split
  · exact ⟨[], n.digitChar, rfl, by rwa [Nat.mod_eq_of_lt ‹n < 10›] at nonzero⟩
  · exact ⟨_, _, rfl, nonzero⟩

theorem isDigit_replicate (k : Nat) : ∀ c ∈ List.replicate k '0', c.isDigit := by
  intro c mem
  rw [List.eq_of_mem_replicate mem]
  rfl

section Padded

variable {ds padded : List Char} {p : Nat}

theorem take_mem_whole (hp : List.replicate (p + 2 - ds.length) '0' ++ ds = padded)
    (digits : ∀ c ∈ ds, c.isDigit) (front : ds = c :: cs) (nonzero : c ≠ '0') :
    padded.take (padded.length - (p + 1)) ∈ whole := by
  have length := congrArg List.length hp
  rw [List.length_append, List.length_replicate] at length
  rcases Nat.lt_or_ge ds.length (p + 2) with short | enough
  · obtain ⟨z, hz⟩ := Nat.exists_eq_add_one_of_ne_zero (Nat.sub_ne_zero_of_lt short)
    rw [show padded.length - (p + 1) = 1 by omega, ← hp, hz, List.replicate_succ]
    exact .inl rfl
  · rw [Nat.sub_eq_zero_of_le enough, List.replicate_zero, List.nil_append] at hp
    obtain ⟨k, hk⟩ := Nat.exists_eq_add_one_of_ne_zero
      (show padded.length - (p + 1) ≠ 0 by omega)
    have taken : padded.take (k + 1) = c :: cs.take k := by
      rw [← hp, front, List.take_succ_cons]
    rw [hk, taken]
    apply cons_mem_whole nonzero
    rw [← taken, ← hp]
    exact fun d mem => digits d (List.mem_of_mem_take mem)

theorem drop_mem_fraction (hp : List.replicate (p + 2 - ds.length) '0' ++ ds = padded)
    (digits : ∀ c ∈ ds, c.isDigit) (back : ds = cs ++ [c]) (nonzero : c ≠ '0') :
    padded.drop (padded.length - (p + 1)) ∈ fraction := by
  have all : ∀ d ∈ padded, d.isDigit := by
    rw [← hp]
    exact List.forall_mem_append.2 ⟨isDigit_replicate _, digits⟩
  generalize hf : List.replicate (p + 2 - ds.length) '0' ++ cs = front
  have split : padded = front ++ [c] := by
    rw [← hf, List.append_assoc, ← back, hp]
  have inside : padded.length - (p + 1) ≤ front.length := by
    rw [split, List.length_append, List.length_singleton]
    omega
  have dropped := @List.drop_append_of_le_length _ _ [c] _ inside
  rw [← split] at dropped
  rw [dropped]
  apply concat_mem_fraction nonzero
  rw [← dropped]
  exact fun d mem => all d (List.mem_of_mem_drop mem)

end Padded

theorem positional_mem (d : Decimal) (last : d.digits % 10 ≠ 0) : d.positional ∈ unsigned := by
  obtain ⟨n, e⟩ := d
  have digits := isDigit_toDigits n
  have pos : 0 < n := Nat.pos_of_ne_zero fun zero => last (by simp [zero])
  obtain ⟨c, cs, front, first⟩ := toDigits_eq_cons pos
  obtain ⟨ds, d, back, final⟩ := toDigits_eq_concat last
  cases e with
  | ofNat e =>
    have all := List.forall_mem_append.2 ⟨digits, isDigit_replicate e⟩
    rw [front, List.cons_append] at all
    simp only [positional, front, List.cons_append]
    exact mem_unsigned_of_whole (cons_mem_whole first all)
  | negSucc p =>
    simp only [positional]
    generalize hp : List.replicate (p + 2 - (Nat.toDigits 10 n).length) '0' ++ _ = padded
    exact mem_unsigned (take_mem_whole hp digits front first)
      (drop_mem_fraction hp digits back final)

theorem length_positional_le {d : Decimal} {m : Nat} (small : d.size ≤ m) (low : -m ≤ d.exponent)
    (high : d.size + d.exponent ≤ m) : d.positional.length ≤ m + 2 := by
  obtain ⟨n, e⟩ := d
  simp only [size] at small low high
  cases e with
  | ofNat e =>
    simp only [Int.ofNat_eq_natCast] at high
    simp only [positional, List.length_append, List.length_replicate]
    omega
  | negSucc p =>
    simp only [positional, List.length_append, List.length_cons, List.length_take, List.length_drop,
      List.length_replicate]
    omega

end Decimal

theorem display_zero {v : Float} (zero : Number.ordinal v = 0) : display v = "0" := by
  rw [← Number.ofOrdinal_ordinal v, zero]
  cases Number.isNegative v <;> decide +kernel

open Numeral in
/-- What is displayed for a finite number is a numeral, and never longer than that of the negative
number next to zero, with its sign, its point and 325 digits. -/
theorem display_numeral {v : Float} (finite : v.isFinite) :
    (display v).toList ∈ signed ∧ (display v).length ≤ 327 := by
  by_cases zero : Number.ordinal v = 0
  · rw [display_zero zero]
    have whole : ['0'] ∈ whole := .inl rfl
    exact ⟨mem_signed false (mem_unsigned_of_whole whole), by decide⟩
  · have nonzero : v ≠ -0.0 := by
      rintro rfl
      exact zero (by decide)
    obtain ⟨last, small, low, high⟩ := Decimal.shortest_bounds (Nat.pos_of_ne_zero zero)
      (Number.ordinal_lt_infinity finite)
    have form := mem_signed (Number.isNegative v) (Decimal.positional_mem _ last)
    have short := Decimal.length_positional_le (m := 324) (small.trans (by decide)) low (by omega)
    rw [← String.length_toList, toList_display finite nonzero]
    refine ⟨form, ?_⟩
    cases Number.isNegative v with
    | false => exact short.trans (by decide)
    | true => exact Nat.succ_le_succ short

end Reckon
