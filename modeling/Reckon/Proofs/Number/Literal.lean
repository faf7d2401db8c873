import Reckon.Lexeme
import Reckon.Proofs.Number.Bits
import Reckon.Proofs.Number.Nearest

namespace Reckon

structure IsLiteral (run : List Char) : Prop where
  chars : ∀ c ∈ run, Lexeme.isRunChar c
  digit : ∃ c ∈ run, c.isDigit
  point : run.count '.' ≤ 1

theorem isDigit_ne_point {c : Char} (h : c.isDigit) : c ≠ '.' := by
  rintro rfl
  simp at h

namespace IsLiteral

theorem of_isDigit {c : Char} (h : c.isDigit) : IsLiteral [c] :=
  ⟨by simp [Lexeme.isRunChar, h], ⟨c, by simp, h⟩, List.count_le_length⟩

theorem ne_nil (h : IsLiteral run) : run ≠ [] := by
  obtain ⟨c, mem, -⟩ := h.digit
  exact List.ne_nil_of_mem mem

theorem startsRun (h : IsLiteral run) (rest : List Char) : Lexeme.startsRun (run ++ rest) := by
  obtain ⟨chars, ⟨d, mem, digit⟩, point⟩ := h
  cases run with
  | nil => simp at mem
  | cons c run =>
    by_cases hc : c.isDigit
    · cases run <;> cases rest <;> simp [Lexeme.startsRun, hc]
    -- A point in front leaves no other, so a digit follows it.
    · have : c = '.' := by simpa [Lexeme.isRunChar, hc] using chars c (by simp)
      subst this
      cases run with
      | nil => simp_all
      | cons e run =>
        have : e ≠ '.' := by
          rintro rfl
          simp at point
        have : e.isDigit := by simpa [Lexeme.isRunChar, this] using chars e (by simp)
        simp [Lexeme.startsRun, this]

theorem of_digits {whole fraction : List Char} (digits : ∀ c ∈ whole ++ fraction, c.isDigit)
    (ne : whole ≠ []) : IsLiteral whole ∧ IsLiteral (whole ++ '.' :: fraction) := by
  have run (c : Char) (mem : c ∈ whole ++ fraction) : Lexeme.isRunChar c := by
    simp [Lexeme.isRunChar, digits c mem]
  have point : '.' ∉ whole ++ fraction := fun mem => isDigit_ne_point (digits _ mem) rfl
  have front : whole.head ne ∈ whole ++ fraction := by simp
  simp only [List.mem_append, not_or] at point
  refine ⟨⟨?_, ⟨_, List.head_mem ne, digits _ front⟩, ?_⟩, ⟨?_, ⟨_, by simp, digits _ front⟩, ?_⟩⟩
  · exact fun c mem => run c (List.mem_append_left _ mem)
  · simp [List.count_eq_zero_of_not_mem point.1]
  · intro c mem
    rcases List.mem_append.1 mem with mem | mem
    · exact run c (List.mem_append_left _ mem)
    · rcases List.mem_cons.1 mem with rfl | mem
      · rfl
      · exact run c (List.mem_append_right _ mem)
  · simp [List.count_append, List.count_eq_zero_of_not_mem point.1,
      List.count_eq_zero_of_not_mem point.2]

end IsLiteral

namespace Decimal

theorem ofRun_whole {whole : List Char} (digits : ∀ c ∈ whole, c.isDigit) :
    ofRun whole = ⟨Nat.ofDigitChars 10 whole 0, 0⟩ := by
  have keep (c : Char) (mem : c ∈ whole) : decide (c ≠ '.') = true := by
    simpa using isDigit_ne_point (digits c mem)
  have front := @List.takeWhile_append_of_pos _ _ whole [] keep
  have back := @List.dropWhile_append_of_pos _ _ whole [] keep
  rw [List.append_nil] at front back
  simp only [ofRun, front, back]
  simp

theorem ofRun_fraction {whole fraction : List Char} (digits : ∀ c ∈ whole, c.isDigit) :
    ofRun (whole ++ '.' :: fraction) =
      ⟨Nat.ofDigitChars 10 (whole ++ fraction) 0, -(fraction.length : Int)⟩ := by
  have keep (c : Char) (mem : c ∈ whole) : decide (c ≠ '.') = true := by
    simpa using isDigit_ne_point (digits c mem)
  simp only [ofRun, List.takeWhile_append_of_pos keep, List.dropWhile_append_of_pos keep]
  simp

theorem positional_literal (d : Decimal) :
    IsLiteral d.positional ∧ (ofRun d.positional).ordinal = d.ordinal := by
  obtain ⟨n, e⟩ := d
  have digits (c : Char) (mem : c ∈ Nat.toDigits 10 n) : c.isDigit :=
    Nat.isDigit_of_mem_toDigits (by decide) (by decide) mem
  have zeros (k : Nat) (c : Char) (mem : c ∈ List.replicate k '0') : c.isDigit := by
    rw [List.eq_of_mem_replicate mem]
    rfl
  cases e with
  | ofNat e =>
    simp only [positional]
    have all : ∀ c ∈ Nat.toDigits 10 n ++ List.replicate e '0', c.isDigit :=
      fun c mem => (List.mem_append.1 mem).elim (digits c) (zeros e c)
    refine ⟨(@IsLiteral.of_digits _ [] (by simpa using all) (by simp)).1, ?_⟩
    simp only [ofRun_whole all, Nat.ofDigitChars_append, Nat.ofDigitChars_ten_toDigits,
      Nat.ofDigitChars_replicate_zero]
    apply ordinal_congr
    simp [num, den, Nat.mul_comm]
  | negSucc p =>
    simp only [positional]
    generalize hpad :
      List.replicate (p + 2 - (Nat.toDigits 10 n).length) '0' ++ Nat.toDigits 10 n = padded
    have all : ∀ c ∈ padded, c.isDigit := by
      subst hpad
      exact fun c mem => (List.mem_append.1 mem).elim (zeros _ c) (digits c)
    have long : p + 2 ≤ padded.length := by
      subst hpad
      simp
      omega
    have value : Nat.ofDigitChars 10 padded 0 = n := by
      subst hpad
      simp [Nat.ofDigitChars_append, Nat.ofDigitChars_ten_toDigits,
        Nat.ofDigitChars_replicate_zero]
    have halves := List.take_append_drop (padded.length - (p + 1)) padded
    rw [← halves] at all
    constructor
    · refine (IsLiteral.of_digits all ?_).2
      apply List.ne_nil_of_length_pos
      simp
      omega
    · rw [ofRun_fraction fun c mem => all c (List.mem_append_left _ mem), halves, value]
      congr 2
      simp
      omega

end Decimal

theorem ordinal_ne_zero {v : Float} (h : v ≠ -0.0) (negative : Number.isNegative v) :
    Number.ordinal v ≠ 0 := by
  intro zero
  have := Number.ofOrdinal_ordinal v
  rw [negative, zero] at this
  exact h (this.symm.trans (by decide))

theorem toList_display {v : Float} (finite : v.isFinite) (h : v ≠ -0.0) :
    (display v).toList = (Lexeme.literal (Number.isNegative v)
      (Decimal.shortest (Number.ordinal v)).positional).text := by
  obtain ⟨nan, inf⟩ : v.isNaN = false ∧ v.isInf = false := by
    simpa [Number.isFinite_eq] using finite
  have digits : Layout.display.ofDecimal = Decimal.positional := by
    funext d
    simp [Layout.ofDecimal, Layout.display]
  cases negative : Number.isNegative v with
  | false =>
    simp only [display, Layout.write, nan, inf, negative, digits, Lexeme.text,
      Bool.false_eq_true, ↓reduceIte, String.toList_ofList]
  | true =>
    have := ordinal_ne_zero h negative
    simp only [display, Layout.write, nan, inf, negative, digits, Lexeme.text, Number.beq_zero,
      this, Bool.false_eq_true, ↓reduceIte, decide_false, String.toList_ofList]

/-- A displayed number is a literal, signed if the number is negative, that reads as the number. -/
theorem display_literal {v : Float} (finite : v.isFinite) (h : v ≠ -0.0) :
    ∃ run, IsLiteral run ∧
      (display v).toList = (Lexeme.literal (Number.isNegative v) run).text ∧
      (Decimal.ofRun run).toFloat (Number.isNegative v) = v := by
  obtain ⟨literal, value⟩ := (Decimal.shortest (Number.ordinal v)).positional_literal
  rw [Decimal.ordinal_shortest (Number.ordinal_lt_infinity finite)] at value
  refine ⟨_, literal, toList_display finite h, ?_⟩
  rw [Decimal.toFloat, value, Number.ofOrdinal_ordinal]

theorem display_chars {v : Float} (finite : v.isFinite) (h : v ≠ -0.0) :
    ∀ c ∈ (display v).toList, Lexeme.isRunChar c ∨ c = '-' := by
  obtain ⟨run, literal, text, -⟩ := display_literal finite h
  intro c mem
  rw [text, Lexeme.text] at mem
  split at mem
  · rcases List.mem_cons.1 mem with rfl | mem
    · exact .inr rfl
    · exact .inl (literal.chars c mem)
  · exact .inl (literal.chars c mem)

end Reckon
