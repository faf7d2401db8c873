import Reckon.Proofs.Continuation
import Reckon.Proofs.Number.Numeral

namespace Reckon

open Number (isNegative ordinal absolute)

/-- The number that is displayed for `v`: zero has no sign. -/
def shown (v : Float) : Float := if v = -0.0 then 0.0 else v

theorem shown_ne (v : Float) : shown v ≠ -0.0 := by
  unfold shown
  split
  · decide
  · assumption

theorem shown_isFinite {v : Float} (finite : v.isFinite) : (shown v).isFinite := by
  unfold shown
  split
  · decide
  · exact finite

theorem display_shown (v : Float) : display (shown v) = display v := by
  unfold shown
  split
  · rename_i zero
    rw [zero]
    decide +kernel
  · rfl

theorem tokenize_shown {v : Float} (finite : v.isFinite) :
    tokenize (display v) = .ok [.number (shown v)] := by
  rw [← display_shown]
  exact tokenize_display (shown_isFinite finite) (shown_ne v)

theorem evaluate_shown {v : Float} (finite : v.isFinite) :
    evaluate (display v) = .ok (shown v) :=
  evaluate_eq_ok.2 ⟨_, _, tokenize_shown finite, rfl, rfl, shown_isFinite finite⟩

theorem display_shortest {v : Float} (finite : v.isFinite) (nonzero : ordinal v ≠ 0) :
    ∃ d : Decimal, (display v).toList = (Lexeme.literal (isNegative v) d.positional).text ∧
      d.toFloat (isNegative v) = v ∧
      ∀ c : Decimal, c.toFloat (isNegative v) = v → d.size ≤ c.size ∧
        (c.size ≤ d.size →
          |d.value - absolute v.toModel.unpack| ≤ |c.value - absolute v.toModel.unpack|) := by
  have small := Number.ordinal_lt_infinity finite
  have signed : v ≠ -0.0 := by
    rintro rfl
    exact nonzero (by decide)
  refine ⟨_, toList_display finite signed, ?_, fun c reads => ?_⟩
  · rw [Decimal.toFloat, Decimal.ordinal_shortest small, Number.ofOrdinal_ordinal]
  · have same : c.ordinal = ordinal v := by
      rw [← reads, Decimal.ordinal_toFloat]
    rw [← Number.value_ordinal finite]
    exact Decimal.shortest_le (Nat.pos_of_ne_zero nonzero) small same

namespace Session

variable {limits : Limits} {s : Session}

theorem calculate_value (value : s.calculate.1 = .ok (some v)) :
    s.calculate.2.input = Reckon.display v ∧ s.calculate.2.error = none := by
  rw [Session.calculate] at value ⊢
  cases asked : s.evaluator.attempt (.text s.expression : Input Unit) with
  | mk o next =>
    rw [asked] at value
    rcases o with f | e | w <;> cases value
    exact ⟨rfl, rfl⟩

theorem Sound.calculate_shown (h : s.Sound limits) (long : 327 ≤ limits.maxLength)
    (value : s.calculate.1 = .ok (some r)) :
    s.calculate.2.calculate.1 = .ok (some (shown r)) ∧
      s.calculate.2.calculate.2.input = s.calculate.2.input ∧
      s.calculate.2.calculate.2.display = s.calculate.2.display := by
  obtain ⟨room, total, -⟩ := h.of_calculate value
  have finite := isFinite_of_evaluate total
  obtain ⟨input, error⟩ := calculate_value value
  have expression : s.calculate.2.expression = Reckon.display r := by
    rw [Session.expression, h.calculate.glyphs, input, ← display_shown,
      GlyphMap.normalize_display (shown_isFinite finite) (shown_ne r)]
  have short : ((Reckon.display r).length : Int) ≤ limits.maxLength := by
    have := (display_numeral finite).2
    omega
  have again : s.calculate.2.calculate.1 = .ok (some (shown r)) := by
    have calculates := h.calculate.calculates room
    rw [expression, Input.verdict_text short, verdict_of_evaluate (evaluate_shown finite)]
      at calculates
    cases calculates with
    | value again => exact again
  obtain ⟨input', error'⟩ := calculate_value again
  rw [display_shown, ← input] at input'
  refine ⟨again, input', ?_⟩
  rw [display, display, input', error, error']

end Session

/-- What is displayed for a finite number is a numeral of at most 327 characters, the shortest one,
and reads as the number. Reading rounds correctly. So a result that is calculated at once again
gives itself. -/
theorem displayed_again :
    (∀ v : Float, v.isFinite →
      (display v).toList ∈ Numeral.signed ∧ (v == 0 → display v = "0") ∧
      (display v).length ≤ 327 ∧ tokenize (display v) = .ok [.number (shown v)] ∧
      evaluate (display v) = .ok (shown v)) ∧
    (∀ v : Float, v.isFinite → ¬v == 0 →
      ∃ d : Decimal, (display v).toList = (Lexeme.literal (isNegative v) d.positional).text ∧
        d.toFloat (isNegative v) = v ∧
        ∀ c : Decimal, c.toFloat (isNegative v) = v → d.size ≤ c.size ∧
          (c.size ≤ d.size →
            |d.value - absolute v.toModel.unpack| ≤ |c.value - absolute v.toModel.unpack|)) ∧
    (∀ (d : Decimal) (negative : Bool),
      Number.IsNearest (d.value * Number.unit) (ordinal (d.toFloat negative))) ∧
    ∀ limits (past : List (Evaluator.Command β α)) (before : List Session.Command) s r,
      327 ≤ limits.maxLength →
      s = Session.run { evaluator := Evaluator.run { limits } past } before →
      s.calculate.1 = .ok (some r) →
      s.calculate.2.calculate.1 = .ok (some (shown r)) ∧
      s.calculate.2.calculate.2.input = s.calculate.2.input ∧
      s.calculate.2.calculate.2.display = s.calculate.2.display := by
  refine ⟨fun v finite => ?_, fun v finite some => ?_, fun d negative => ?_, ?_⟩
  · obtain ⟨form, short⟩ := display_numeral finite
    refine ⟨form, fun zero => display_zero ?_, short, tokenize_shown finite, evaluate_shown finite⟩
    simpa [Number.beq_zero] using zero
  · exact display_shortest finite (by simpa [Number.beq_zero] using some)
  · rw [Decimal.ordinal_toFloat]
    exact d.isNearest_ordinal
  · intro limits past before s r long made value
    have sound : s.Sound limits := made ▸ (Session.Sound.new limits past).run before
    exact sound.calculate_shown long value

theorem displayed_again_difference :
    evaluate (display (-0.0)) = .ok (shown (-0.0)) ∧
    ((display (-1)).toList ∈ Numeral.signed ∧ evaluate (display (-1)) = .ok (shown (-1))) ∧
    Session.differing.calculate.2.calculate.1 = .ok (some (shown (-1))) := by
  obtain ⟨texts, -, -, sessions⟩ := @displayed_again Nat Unit
  obtain ⟨form, -, -, -, value⟩ := texts (-1) (by decide +kernel)
  obtain ⟨-, -, -, -, zero⟩ := texts (-0.0) (by decide +kernel)
  refine ⟨zero, ⟨form, value⟩, ?_⟩
  exact (sessions {} [] [.setInput "1-2"] _ (-1) (by decide) rfl Session.calculate_differing).1

end Reckon
