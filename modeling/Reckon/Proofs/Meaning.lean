import Reckon.Evaluate
import Reckon.Proofs.Number.Bits
import Reckon.Proofs.Ordering
import Reckon.Proofs.Spelling

namespace Reckon

theorem tokenize_of_writes (h : Derives .sum ts t) (w : Writes s.toList ts) :
    tokenize s = .ok ts :=
  w.scan h.alternates (fits_none h.alternates) 0

/-- The operands of an operator are evaluated from the left, the first error counts, and only at the
end the value has to be finite. -/
theorem evaluate_of_writes (h : Derives .sum ts t) (w : Writes s.toList ts) :
    evaluate s = match t.eval with
      | .error e => .error (.evaluation (.eval (.domain e)))
      | .ok v => if v.isNaN || v.isInf then .error (.evaluation .nonFinite) else .ok v := by
  have scan := tokenize_of_writes h w
  have order := Postfix.ofTokens_derives h
  rw [evaluate, scan]
  simp only [lexed, Except.mapError, ok_bind, order, t.eval_ordered]
  cases t.eval with
  | error e => rfl
  | ok v =>
    simp only [Postfix.domain_ok, ok_bind, finite, Number.isFinite_eq]
    cases v.isNaN || v.isInf <;> rfl

theorem evaluate_sqrt_negative :
    ∃ ts t, Derives .sum ts t ∧ Writes "1 -SQRT(-.5)".toList ts ∧
      evaluate "1 -SQRT(-.5)" = .error (.evaluation (.eval (.domain .sqrt))) := by
  have derives := Derives.sub
    (.ofTerm (.ofPower (.ofAtom (.number ((Decimal.ofRun ['1']).toFloat false)))))
    (.ofPower (.ofAtom (.call .sqrt
      (.ofTerm (.ofPower (.ofAtom (.number ((Decimal.ofRun ['.', '5']).toFloat true))))))))
  have one : IsLiteral ['1'] := .of_isDigit rfl
  have half : IsLiteral ['.', '5'] := ⟨by simp [Lexeme.isRunChar], ⟨'5', by simp⟩, by decide⟩
  have space : ∀ c ∈ [' '], Text.isBlank c := List.forall_mem_singleton.2 (by decide)
  have writes : Writes "1 -SQRT(-.5)".toList _ :=
    .word (.literal one) (.cons space (.operator .sub)
      (@Writes.word ['S', 'Q', 'R', 'T'] _ _ _ (.function .sqrt (by decide))
        (.word .leftParen (.word (.negative half)
          (.word .rightParen (@Writes.blanks [] (by simp)))))))
  have small : (Decimal.ofRun ['.', '5']).toFloat true < 0 := by decide +kernel
  refine ⟨_, _, derives, writes, ?_⟩
  rw [evaluate_of_writes derives writes]
  simp [Expr.eval, Func.apply, small]

end Reckon
