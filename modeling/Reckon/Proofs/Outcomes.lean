import Reckon.Proofs.Parentheses
import Reckon.Proofs.Transparency

namespace Reckon

open Token

/-- The stage of an evaluation that an error is of. -/
inductive Fails (s : String) : EvaluationError → Prop
  | lex (h : tokenize s = .error e) : Fails s (.lex e)
  | parse (scan : tokenize s = .ok ts) (h : ¬Matched 0 s.toList) :
    Fails s (.parse .mismatchedParentheses)
  | eval (scan : tokenize s = .ok ts) (order : Postfix.ofTokens ts = .ok out)
    (h : Postfix.eval out = .error (.evaluation (.eval e))) : Fails s (.eval e)
  | nonFinite (scan : tokenize s = .ok ts) (order : Postfix.ofTokens ts = .ok out)
    (value : Postfix.eval out = .ok v) (h : v.isFinite = false) : Fails s .nonFinite

theorem fails_of_evaluate (h : evaluate s = .error f) : ∃ e, f = .evaluation e ∧ Fails s e := by
  rcases bind_eq_error.1 h with h | ⟨ts, scan, h⟩
  · obtain ⟨e, error, rfl⟩ := lexed_eq_error.1 h
    exact ⟨_, rfl, .lex error⟩
  have scan := lexed_eq_ok.1 scan
  have plain := plain_of_tokenize scan
  rcases bind_eq_error.1 h with h | ⟨out, order, h⟩
  · obtain ⟨rfl, unclosed⟩ := (Postfix.ofTokens_of_tokenize scan).1 h
    exact ⟨_, rfl, .parse scan unclosed⟩
  rcases bind_eq_error.1 h with h | ⟨v, value, h⟩
  · obtain ⟨e, rfl⟩ := Postfix.eval_error (Postfix.ofTokens_isListed plain order) h
    exact ⟨_, rfl, .eval scan order h⟩
  · rw [finite] at h
    split at h
    · cases h
    · rename_i large
      cases h
      exact ⟨_, rfl, .nonFinite scan order value (by simpa using large)⟩

theorem Fails.evaluate (h : Fails s e) : evaluate s = .error (.evaluation e) := by
  cases h with
  | lex h => simp [Reckon.evaluate, h, lexed, Except.mapError]
  | parse scan h =>
    have order := (Postfix.ofTokens_of_tokenize scan).2 ⟨rfl, h⟩
    simp [Reckon.evaluate, scan, order, lexed, Except.mapError, Postfix.mismatched]
  | eval scan order h => simp [Reckon.evaluate, scan, order, h, lexed, Except.mapError]
  | nonFinite scan order value h =>
    simp [Reckon.evaluate, scan, order, value, h, lexed, Except.mapError, finite]

theorem evaluate_eq_error : evaluate s = .error (.evaluation e) ↔ Fails s e := by
  refine ⟨fun h => ?_, Fails.evaluate⟩
  obtain ⟨e, same, fails⟩ := fails_of_evaluate h
  cases same
  exact fails

theorem verdict_eq_error : verdict s = .error e ↔ Fails s e := by
  rw [← evaluate_eq_error, evaluate_eq_verdict]
  cases verdict s <;> simp [Except.mapError]

theorem evaluate_empty : evaluate "" = .error (.evaluation (.eval (.leftover 0))) :=
  evaluate_eq_error.2 (.eval (tokenize_eq_ok.2 ⟨[], rfl, .nil⟩) rfl rfl)

theorem isLiteral_of_first {signed negative : Bool} {c : Char} {s run : List Char}
    (h : (Lexeme.first signed c s).1 = .literal negative run)
    (token : (Lexeme.literal negative run).token = .ok o) : IsLiteral run := by
  have literal {rest} (h : IsRun run rest) (point : run.count '.' ≤ 1) : IsLiteral run := by
    obtain ⟨d, more, digit, rfl | rfl⟩ := h.start
    · exact ⟨h.chars, ⟨d, by simp, digit⟩, point⟩
    · exact ⟨h.chars, ⟨d, by simp, digit⟩, point⟩
  rcases reads_or_faulty signed c s with ⟨o', -, reads⟩ | ⟨fault, error, -⟩
  · rw [h] at reads
    cases reads with
    | literal run point => exact literal run point
    | negative sign run point => exact literal run point
  · rw [h, token] at error
    cases error

/-- An input has a finite value or an error of the expression. It has a lexical error just if it has
no tokens, and a syntax error just if it has tokens and its parentheses do not match. No mark and no
unlisted name gets into the postfix order of a text, and nothing but literals is converted to
numbers. -/
theorem evaluate_outcomes (x : Input α) :
    ((∃ v, x.evaluate = .ok v ∧ v.isFinite) ∨ ∃ e, x.evaluate = .error (.evaluation e)) ∧
    (∀ e, x.evaluate = .error (.evaluation (.lex e)) ↔ x.tokenize = .error e) ∧
    (∀ e, x.evaluate = .error (.evaluation (.parse e)) ↔ e = .mismatchedParentheses ∧
      ∃ s ts, x = .text s ∧ tokenize s = .ok ts ∧ ¬Matched 0 s.toList) ∧
    (∀ t, x.evaluate ≠ .error (.evaluation (.eval (.unexpectedToken t)))) ∧
    (∀ ts out, x.tokenize = .ok ts → Postfix.ofTokens ts = .ok out →
      ∀ t ∈ out, Plain t ∧ t.kind ∈ TokenKind.inPostfixOrder) ∧
    ∀ signed c s negative run o, (Lexeme.first signed c s).1 = .literal negative run →
      (Lexeme.literal negative run).token = .ok o → IsLiteral run := by
  cases x with
  | other a =>
    refine ⟨.inr ⟨_, rfl⟩, fun e => ?_, fun e => ?_, fun t error => ?_, ?_,
      fun _ _ _ _ _ _ => isLiteral_of_first⟩
    · simp [Input.evaluate, Input.tokenize, lexed, Except.mapError]
    · simp [Input.evaluate, lexed, Except.mapError]
    · cases error
    · intro ts out scan
      cases scan
  | text s =>
    simp only [Input.evaluate, Input.tokenize, evaluate_eq_error]
    refine ⟨?_, fun e => ⟨?_, .lex⟩, fun e => ⟨?_, ?_⟩, fun t fails => ?_, ?_,
      fun _ _ _ _ _ _ => isLiteral_of_first⟩
    · cases value : evaluate s with
      | ok v => exact .inl ⟨v, rfl, isFinite_of_evaluate value⟩
      | error f =>
        obtain ⟨e, -, fails⟩ := fails_of_evaluate value
        exact .inr ⟨e, fails⟩
    · intro fails
      cases fails with
      | lex h => exact h
    · intro fails
      cases fails with
      | parse scan h => exact ⟨rfl, s, _, rfl, scan, h⟩
    · rintro ⟨rfl, s, ts, same, scan, h⟩
      cases same
      exact .parse scan h
    · cases evaluate_eq_error.1 fails with
      | eval scan order h => exact Postfix.eval_expected (Postfix.ofTokens_kind order) t h
    · intro ts out scan order t mem
      have plain := plain_of_tokenize scan
      exact ⟨Postfix.ofTokens_plain plain order t mem, Postfix.ofTokens_kind order t mem⟩

theorem evaluate_outcomes_open :
    (Input.text "(1" : Input Unit).evaluate =
      .error (.evaluation (.parse .mismatchedParentheses)) ∧
    (∃ ts out, (Input.text "-1" : Input Unit).tokenize = .ok ts ∧ Postfix.ofTokens ts = .ok out ∧
      ∀ t ∈ out, Plain t ∧ t.kind ∈ TokenKind.inPostfixOrder) ∧
    (Lexeme.first true '-' ['1']).1 = .literal true ['1'] ∧ IsLiteral ['1'] := by
  have one (rest) (h : rest = []) : IsRun ['1'] rest :=
    ⟨⟨'1', [], rfl, .inl rfl⟩, by simp [Lexeme.isRunChar], by simp [h]⟩
  have left : tokenize "(1" = .ok [.leftParen, .number _] :=
    tokenize_eq_ok.2 ⟨[.leftParen, .literal false ['1']], rfl,
      .token .leftParen (.token (.literal (one _ rfl) (by decide)) .nil)⟩
  have minus : tokenize "-1" = .ok [.number _] :=
    tokenize_eq_ok.2 ⟨[.literal true ['1']], rfl,
      .token (.negative rfl (one _ rfl) (by decide)) .nil⟩
  obtain ⟨-, -, mismatched, -⟩ := evaluate_outcomes (.text "(1" : Input Unit)
  obtain ⟨-, -, -, -, ordered, literals⟩ := evaluate_outcomes (.text "-1" : Input Unit)
  have first : (Lexeme.first true '-' ['1']).1 = .literal true ['1'] := by decide
  refine ⟨(mismatched _).2 ⟨rfl, _, _, rfl, left, fun h => ?_⟩, ?_, first, ?_⟩
  · simpa using h.total
  · exact ⟨_, _, minus, rfl, ordered _ _ minus rfl⟩
  · exact literals _ _ _ _ _ (some (.number _)) first rfl

end Reckon
