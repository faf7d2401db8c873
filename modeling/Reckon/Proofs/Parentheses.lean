import Reckon.Proofs.Failures
import Reckon.Proofs.Splitting

namespace Reckon

/-- Behind `depth` marks that are open, no front of `s` closes more than are open, and all of `s`
closes as many. -/
structure Balanced (opens closes : α → Bool) (depth : Nat) (s : List α) : Prop where
  front : ∀ front, front <+: s → front.countP closes ≤ depth + front.countP opens
  total : s.countP closes = depth + s.countP opens

namespace Balanced

variable {opens closes : α → Bool} {depth : Nat} {s w : List α} {a : α}

theorem nil_iff : Balanced opens closes depth [] ↔ depth = 0 := by
  refine ⟨fun h => by simpa using h.total.symm, ?_⟩
  rintro rfl
  exact ⟨fun front h => by simp [List.prefix_nil.1 h], rfl⟩

theorem cons_iff :
    Balanced opens closes depth (a :: s) ↔ (closes a).toNat ≤ depth + (opens a).toNat ∧
      Balanced opens closes (depth + (opens a).toNat - (closes a).toNat) s := by
  have count (p : α → Bool) (s : List α) : (a :: s).countP p = (p a).toNat + s.countP p := by
    cases h : p a <;> simp [h, Nat.add_comm]
  constructor
  · intro ⟨front, total⟩
    have first := front [a] ⟨s, rfl⟩
    rw [count, count, List.countP_nil, List.countP_nil] at first
    rw [count, count] at total
    refine ⟨first, fun more h => ?_, by omega⟩
    have := front (a :: more) ((List.prefix_cons_inj a).2 h)
    rw [count, count] at this
    omega
  · intro ⟨first, front, total⟩
    refine ⟨fun more h => ?_, by rw [count, count]; omega⟩
    rcases List.prefix_cons_iff.1 h with rfl | ⟨more, rfl, rest⟩
    · simp
    · have := front more rest
      rw [count, count]
      omega

theorem append_iff (free : ∀ a ∈ w, opens a = false ∧ closes a = false) :
    Balanced opens closes depth (w ++ s) ↔ Balanced opens closes depth s := by
  induction w with
  | nil => rfl
  | cons a w ih =>
    rw [List.forall_mem_cons] at free
    rw [List.cons_append, cons_iff, free.1.1, free.1.2]
    simpa using ih free.2

end Balanced

namespace Token

def isLeftParen : Token → Bool
  | .leftParen _ => true
  | _ => false

def isRightParen : Token → Bool
  | .rightParen _ => true
  | _ => false

theorem closes_iff {depth : Nat} {ts : List Token} :
    closes depth ts ↔ Balanced isLeftParen isRightParen depth ts := by
  induction ts generalizing depth with
  | nil => simp [closes, Balanced.nil_iff]
  | cons t ts ih =>
    cases t with
    | rightParen s =>
      simp [closes, Balanced.cons_iff, isLeftParen, isRightParen, ih, Nat.one_le_iff_ne_zero]
    | number v | operator o | function f | leftParen s | comma s | unknown s =>
      simp [closes, Balanced.cons_iff, isLeftParen, isRightParen, ih]

end Token

open Token

def Matched (depth : Nat) (s : List Char) : Prop := Balanced (· = '(') (· = ')') depth s

theorem matched_append {w : List Char} (free : ∀ c ∈ w, c ≠ '(' ∧ c ≠ ')') {depth : Nat}
    {s : List Char} : Matched depth (w ++ s) ↔ Matched depth s :=
  Balanced.append_iff fun c mem => ⟨decide_eq_false (free c mem).1, decide_eq_false (free c mem).2⟩

theorem no_paren_of_word {w : List Char} (h : ∀ c ∈ w, c.isAlphanum ∨ c = '.') :
    ∀ c ∈ w, c ≠ '(' ∧ c ≠ ')' := by
  intro c mem
  obtain ⟨-, left, right, -⟩ := Lexeme.not_special (h c mem)
  exact ⟨left, right⟩

theorem IsRun.no_paren (h : IsRun run rest) : ∀ c ∈ run, c ≠ '(' ∧ c ≠ ')' := by
  refine no_paren_of_word fun c mem => ?_
  have := h.chars c mem
  simp only [Lexeme.isRunChar, Bool.or_eq_true, decide_eq_true_eq] at this
  exact this.imp_left fun digit => by simp [Char.isAlphanum, digit]

theorem Reads.no_paren (h : Reads signed rest piece o) (left : piece ≠ .leftParen)
    (right : piece ≠ .rightParen) :
    (∀ c ∈ piece.text, c ≠ '(' ∧ c ≠ ')') ∧
      ∀ t ∈ o.toList, t.isLeftParen = false ∧ t.isRightParen = false := by
  cases h with
  | @blank c h =>
    refine ⟨List.forall_mem_singleton.2 ⟨?_, ?_⟩, by simp⟩ <;> rintro rfl <;> revert h <;> decide
  | leftParen => exact absurd rfl left
  | rightParen => exact absurd rfl right
  | comma =>
    exact ⟨List.forall_mem_singleton.2 (by decide), List.forall_mem_singleton.2 ⟨rfl, rfl⟩⟩
  | operator o =>
    have symbol : o.symbol ≠ '(' ∧ o.symbol ≠ ')' := by cases o <;> decide
    exact ⟨List.forall_mem_singleton.2 symbol, List.forall_mem_singleton.2 ⟨rfl, rfl⟩⟩
  | literal h => exact ⟨h.no_paren, List.forall_mem_singleton.2 ⟨rfl, rfl⟩⟩
  | negative sign h =>
    exact ⟨List.forall_mem_cons.2 ⟨by decide, h.no_paren⟩, List.forall_mem_singleton.2 ⟨rfl, rfl⟩⟩
  | constant h | function h =>
    exact ⟨no_paren_of_word fun c mem => .inl (h.chars c mem),
      List.forall_mem_singleton.2 ⟨rfl, rfl⟩⟩

theorem Reads.matched (h : Reads signed rest piece o) {depth : Nat} {s : List Char}
    {ts : List Token} (same : ∀ depth, Matched depth s ↔ closes depth ts) :
    Matched depth (piece.text ++ s) ↔ closes depth (o.toList ++ ts) := by
  by_cases left : piece = .leftParen
  · subst left
    cases h
    simp [Lexeme.text, Matched, Balanced.cons_iff, closes, ← same]
  by_cases right : piece = .rightParen
  · subst right
    cases h
    simp [Lexeme.text, Matched, Balanced.cons_iff, closes, ← same, Nat.one_le_iff_ne_zero]
  · obtain ⟨text, token⟩ := h.no_paren left right
    rw [matched_append text, closes_iff, Balanced.append_iff token, ← closes_iff, same]

/-- The parentheses of a text are those of its tokens. -/
theorem Splits.matched (h : Splits previous ls ts rest) (depth : Nat) :
    Matched depth (texts ls) ↔ closes depth ts := by
  induction h generalizing depth with
  | nil => simp [texts, Matched, Balanced.nil_iff, closes]
  | skip reads _ ih => exact reads.matched ih
  | token reads _ ih => exact reads.matched ih

theorem matched_of_tokenize (h : tokenize s = .ok ts) : Matched 0 s.toList ↔ closes 0 ts := by
  obtain ⟨ls, text, splits⟩ := tokenize_eq_ok.1 h
  rw [← text]
  exact splits.matched 0

namespace Postfix

theorem popGroup_of_mem {stack : List Pending} (h : .leftParen ∈ stack) :
    ∃ r, popGroup stack = .ok r := by
  fun_induction popGroup stack with
  | case1 => cases h
  | case2 => exact ⟨_, rfl⟩
  | case3 => exact ⟨_, rfl⟩
  | case4 o below ih =>
    obtain ⟨r, pop⟩ := ih (by simpa using h)
    exact ⟨_, by rw [pop]; rfl⟩
  | case5 f below ih =>
    obtain ⟨r, pop⟩ := ih (by simpa using h)
    exact ⟨_, by rw [pop]; rfl⟩

theorem step_of_closes {stack : List Pending} (stacked : ∀ t ∈ released stack, t.IsComparable)
    (comparable : t.IsComparable) (known : t.kind ≠ .unknown)
    (h : closes (stack.count .leftParen) (t :: ts)) : ∃ r, step stack t = .ok r := by
  cases t with
  | number v => exact ⟨_, rfl⟩
  | operator o =>
    cases o with
    | listed o =>
      obtain ⟨r, pop⟩ := popBefore_comparable stacked o
      exact ⟨_, by rw [step, pop]; rfl⟩
    | unlisted s => exact comparable.elim
  | function f => exact ⟨_, rfl⟩
  | leftParen s => exact ⟨_, rfl⟩
  | rightParen s =>
    have some : stack.count .leftParen ≠ 0 := by
      simp only [closes, Bool.and_eq_true, decide_eq_true_eq] at h
      exact h.1
    exact popGroup_of_mem (List.count_pos_iff.1 (Nat.pos_of_ne_zero some))
  | comma s => exact ⟨_, rfl⟩
  | unknown s => exact absurd rfl known

theorem run_of_closes {stack : List Pending} {ts : List Token}
    (stacked : ∀ t ∈ released stack, t.IsComparable) (comparable : ∀ t ∈ ts, t.IsComparable)
    (known : ∀ t ∈ ts, t.kind ≠ .unknown) (h : closes (stack.count .leftParen) ts) :
    ∃ out, run stack ts = .ok out := by
  induction ts generalizing stack with
  | nil =>
    have none : .leftParen ∉ stack := List.count_eq_zero.1 (by simpa [closes] using h)
    exact ⟨_, popAll_eq_ok.2 ⟨none, rfl⟩⟩
  | cons t ts ih =>
    rw [List.forall_mem_cons] at comparable known
    obtain ⟨⟨first, below⟩, one⟩ := step_of_closes stacked comparable.1 known.1 h
    obtain ⟨more, rest⟩ := ih (step_released stacked comparable.1 one) comparable.2 known.2
      (closes_of_step one ▸ h)
    exact ⟨first ++ more, by simp [run, one, rest]⟩

theorem ofTokens_eq_error {ts : List Token} (comparable : ∀ t ∈ ts, t.IsComparable)
    (known : ∀ t ∈ ts, t.kind ≠ .unknown) :
    ofTokens ts = .error f ↔ f = mismatched ∧ ¬closes 0 ts := by
  constructor
  · intro h
    refine ⟨ofTokens_error comparable known h, fun closed => ?_⟩
    obtain ⟨out, run⟩ := @run_of_closes [] ts (by simp [released]) comparable known closed
    cases h.symm.trans run
  · rintro ⟨rfl, unclosed⟩
    cases order : ofTokens ts with
    | ok out => exact absurd (closes_of_run order) unclosed
    | error f => rw [ofTokens_error comparable known order]

/-- The tokens of a text are brought into order just if the parentheses of the text match. -/
theorem ofTokens_of_tokenize (scan : tokenize s = .ok ts) :
    ofTokens ts = .error f ↔ f = mismatched ∧ ¬Matched 0 s.toList := by
  have plain := plain_of_tokenize scan
  rw [matched_of_tokenize scan, ofTokens_eq_error (fun t mem => (plain t mem).isComparable)
    (fun t mem => (plain t mem).kind_ne_unknown)]

theorem ofTokens_kind {ts out : List Token} (h : ofTokens ts = .ok out) :
    ∀ t ∈ out, t.kind ∈ TokenKind.inPostfixOrder := by
  intro t mem
  have := (run_perm h).mem_iff.1 mem
  rw [released, List.nil_append] at this
  simpa [inPostfixOrder] using (List.mem_filter.1 this).2

theorem apply_expected {stack : List Float} (h : t.kind ∈ TokenKind.inPostfixOrder) (u : Token) :
    apply stack t ≠ .error (.evaluation (.eval (.unexpectedToken u))) := by
  have domain (r : Except DomainError Float) :
      domain r ≠ .error (.evaluation (.eval (.unexpectedToken u))) := by
    cases r <;> simp
  intro error
  cases t with
  | number v => cases error
  | operator o =>
    rcases stack with _ | ⟨y, _ | ⟨x, stack⟩⟩
    · cases o <;> cases error
    · cases o <;> cases error
    · cases o with
      | listed o => exact domain _ (map_eq_error.1 error)
      | unlisted s => cases error
  | function g =>
    cases stack with
    | nil => cases g <;> cases error
    | cons x stack =>
      cases g with
      | listed g => exact domain _ (map_eq_error.1 error)
      | unlisted s => cases error
  | leftParen s | rightParen s | comma s | unknown s => simp [kind, TokenKind.inPostfixOrder] at h

theorem eval_expected {ts : List Token} (h : ∀ t ∈ ts, t.kind ∈ TokenKind.inPostfixOrder)
    (u : Token) : eval ts ≠ .error (.evaluation (.eval (.unexpectedToken u))) := by
  have fold (stack : List Float) :
      ts.foldlM apply stack ≠ .error (.evaluation (.eval (.unexpectedToken u))) := by
    induction ts generalizing stack with
    | nil => simp [pure, Except.pure]
    | cons t ts ih =>
      rw [List.forall_mem_cons] at h
      intro error
      rw [List.foldlM_cons] at error
      rcases bind_eq_error.1 error with error | ⟨below, -, error⟩
      · exact apply_expected h.1 u error
      · exact ih h.2 below error
  intro error
  rcases bind_eq_error.1 error with error | ⟨stack, -, error⟩
  · exact fold [] error
  · split at error <;> cases error

end Postfix

end Reckon
