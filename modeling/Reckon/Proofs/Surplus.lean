import Reckon.Proofs.Acceptance
import Reckon.Proofs.Splitting
import Mathlib.Logic.Relation

namespace Reckon

open Token Postfix

def surplus (ts : List Token) : ℤ := ts.countP isNumber - ts.countP isOperator

@[simp] theorem surplus_nil : surplus [] = 0 := rfl

@[simp] theorem surplus_append (ts us : List Token) :
    surplus (ts ++ us) = surplus ts + surplus us := by
  simp only [surplus, List.countP_append]
  omega

@[simp] theorem surplus_operator (o : Named Operator) : surplus [.operator o] = -1 := rfl

theorem surplus_of_isComma {ts : List Token} (h : ∀ t ∈ ts, t.isComma) : surplus ts = 0 := by
  induction ts with
  | nil => rfl
  | cons t ts ih =>
    rw [List.forall_mem_cons] at h
    have front : surplus [t] = 0 := by
      cases t with
      | comma s => rfl
      | number v | operator o | function f | leftParen s | rightParen s | unknown s => cases h.1
    rw [← List.singleton_append, surplus_append, front, ih h.2, add_zero]

theorem surplus_of_ofTokens {ts : List Token} {t : Expr} (h : ofTokens ts = .ok t.ordered) :
    surplus ts = 1 := by
  have numbers : t.ordered.countP isNumber = ts.countP isNumber :=
    countP_of_run (fun _ => inPostfixOrder_of_isNumber) h
  have operators : t.ordered.countP isOperator = ts.countP isOperator :=
    countP_of_run (fun _ => inPostfixOrder_of_isOperator) h
  have := t.countP_ordered
  rw [surplus]
  omega

theorem Derives.surplus (h : Derives rank ts t) : surplus ts = 1 :=
  surplus_of_ofTokens (ofTokens_derives h)

def Inserts (kind : List Token → Prop) (ts us : List Token) : Prop :=
  ∃ front word back, ts = front ++ back ∧ us = front ++ word ++ back ∧ kind word

/-- Words of a kind are put in one after the other, at least one. Later ones may stand in earlier
ones. -/
def Inserted (kind : List Token → Prop) : List Token → List Token → Prop :=
  Relation.TransGen (Inserts kind)

def IsOperatorWord (word : List Token) : Prop := ∃ o, word = [.operator (.listed o)]

def IsOperandWord (word : List Token) : Prop :=
  ∃ before ts after t, word = before ++ ts ++ after ∧ Derives .sum ts t ∧
    (∀ u ∈ before, u.isComma) ∧ ∀ u ∈ after, u.isComma

theorem IsOperatorWord.surplus (h : IsOperatorWord word) : surplus word = -1 := by
  obtain ⟨o, rfl⟩ := h
  exact surplus_operator _

theorem IsOperandWord.surplus (h : IsOperandWord word) : surplus word = 1 := by
  obtain ⟨before, ts, after, t, rfl, derives, front, back⟩ := h
  simp [derives.surplus, surplus_of_isComma front, surplus_of_isComma back]

theorem Inserted.surplus {kind : List Token → Prop} {d : ℤ}
    (each : ∀ word, kind word → surplus word = d) {ts us : List Token}
    (h : Inserted kind ts us) : ∃ n : ℕ, surplus us = surplus ts + (n + 1) * d := by
  have one {ts us : List Token} (h : Inserts kind ts us) :
      Reckon.surplus us = Reckon.surplus ts + d := by
    obtain ⟨front, word, back, rfl, rfl, of⟩ := h
    simp only [surplus_append, each word of]
    ring
  induction h with
  | single first => exact ⟨0, by rw [one first]; ring⟩
  | tail _ last ih =>
    obtain ⟨n, ih⟩ := ih
    exact ⟨n + 1, by rw [one last, ih]; push_cast; ring⟩

theorem surplus_of_evaluate (h : evaluate s = .ok v) : ∃ ts, tokenize s = .ok ts ∧ surplus ts = 1 := by
  obtain ⟨ts, t, reads, -⟩ := ReadsAs.of_evaluate h
  exact ⟨ts, reads.1, surplus_of_ofTokens reads.2⟩

theorem evaluate_of_surplus (scan : tokenize s = .ok ts) (h : surplus ts ≠ 1) :
    ∃ e, evaluate s = .error (.evaluation e) := by
  cases value : evaluate s with
  | ok v =>
    obtain ⟨us, same, one⟩ := surplus_of_evaluate value
    rw [scan, Except.ok.injEq] at same
    exact absurd (same ▸ one) h
  | error f =>
    obtain ⟨e, rfl⟩ := evaluate_error value
    exact ⟨e, rfl⟩

/-- A text with a value has one number more than operators. So no text has one whose tokens are
those of an expression with operators put in, nor one with whole operands put in, wherever they
stand. -/
theorem evaluate_of_inserted (s : String) :
    (∀ v, evaluate s = .ok v →
      ∃ ts, tokenize s = .ok ts ∧ ts.countP isNumber = ts.countP isOperator + 1) ∧
    (∀ ts t us, Derives .sum ts t → tokenize s = .ok us → Inserted IsOperatorWord ts us →
      ∃ e, evaluate s = .error (.evaluation e)) ∧
    ∀ ts t us, Derives .sum ts t → tokenize s = .ok us → Inserted IsOperandWord ts us →
      ∃ e, evaluate s = .error (.evaluation e) := by
  refine ⟨fun v value => ?_, fun ts t us derives scan inserted => ?_,
    fun ts t us derives scan inserted => ?_⟩
  · obtain ⟨ts, scan, one⟩ := surplus_of_evaluate value
    refine ⟨ts, scan, ?_⟩
    rw [surplus] at one
    omega
  · obtain ⟨n, less⟩ := inserted.surplus fun _ => IsOperatorWord.surplus
    refine evaluate_of_surplus scan ?_
    rw [less, derives.surplus]
    omega
  · obtain ⟨n, more⟩ := inserted.surplus fun _ => IsOperandWord.surplus
    refine evaluate_of_surplus scan ?_
    rw [more, derives.surplus]
    omega

theorem evaluate_of_inserted_sign :
    (∃ e, evaluate "-(2)" = .error (.evaluation e)) ∧
      ∃ e, evaluate "(1,2)" = .error (.evaluation e) := by
  have digit {d c : Char} {rest : List Char} (h : d.isDigit) (stops : Lexeme.isRunChar c = false) :
      IsRun [d] (c :: rest) :=
    ⟨⟨d, [], h, .inl rfl⟩, by simp [Lexeme.isRunChar, h], by simp [stops]⟩
  have atom (v : Float) : Derives .sum [.number v] (.number v) :=
    .ofTerm (.ofPower (.ofAtom (.number v)))
  have group (v : Float) : Derives .sum [.leftParen, .number v, .rightParen] (.number v) :=
    .ofTerm (.ofPower (.ofAtom (.group (atom v))))
  constructor
  · have scan : tokenize "-(2)" = .ok [.operator (.listed .sub), .leftParen, .number _,
        .rightParen] :=
      tokenize_eq_ok.2 ⟨[.operator .sub, .leftParen, .literal false ['2'], .rightParen], rfl,
        .token (.operator .sub fun _ _ => by rw [runAhead_iff]; decide) (.token .leftParen
          (.token (.literal (digit rfl rfl) (by decide)) (.token .rightParen .nil)))⟩
    exact (evaluate_of_inserted "-(2)").2.1 _ _ _ (group _) scan
      (.single ⟨[], _, _, rfl, rfl, .sub, rfl⟩)
  · have scan : tokenize "(1,2)" = .ok [.leftParen, .number _, .comma, .number _, .rightParen] :=
      tokenize_eq_ok.2 ⟨[.leftParen, .literal false ['1'], .comma, .literal false ['2'],
        .rightParen], rfl,
        .token .leftParen (.token (.literal (digit rfl rfl) (by decide)) (.token .comma
          (.token (.literal (digit rfl rfl) (by decide)) (.token .rightParen .nil))))⟩
    exact (evaluate_of_inserted "(1,2)").2.2 _ _ _ (group _) scan
      (.single ⟨[.leftParen, _], [.comma, _], [.rightParen], rfl, rfl, [.comma], _, [], _, rfl,
        atom _, by simp [isComma], by simp⟩)

end Reckon
