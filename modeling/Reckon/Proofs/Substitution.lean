import Reckon.Proofs.Failures
import Reckon.Proofs.Grouping
import Reckon.Proofs.Spelling

namespace Reckon

open Token Postfix

/-- The same value, or the same error but for the position of a fault of the text. -/
def Alike (x y : Except Failure Float) : Prop :=
  x = y ∨ ∃ fault p q, x = .error (.evaluation (.lex (.at fault p))) ∧
    y = .error (.evaluation (.lex (.at fault q)))

theorem Alike.shift {α : Type} (r : Except LexError α) (j k : Nat) {f g : α → Except Failure Float}
    (h : ∀ a, f a = g a) :
    Alike (lexed (r.mapError (LexError.shift j)) >>= f)
      (lexed (r.mapError (LexError.shift k)) >>= g) := by
  cases r with
  | ok a => exact .inl (h a)
  | error e =>
    cases e with
    | notText => exact .inl rfl
    | tooLong => exact .inl rfl
    | «at» fault position => exact .inr ⟨fault, _, _, rfl, rfl⟩

theorem Alike.bind {α : Type} (r : Except Failure α) {f g : α → Except Failure Float}
    (h : ∀ a, Alike (f a) (g a)) : Alike (r >>= f) (r >>= g) := by
  cases r with
  | ok a => exact h a
  | error e => exact .inl rfl

theorem scan_group {s : List Char} (h : scan none 0 s = .ok ts) (previous : Option Token)
    (position : Nat) (rest : List Char) :
    scan previous position ('(' :: s ++ ')' :: rest) =
      ((scan (some .rightParen) 0 rest).mapError
        (LexError.shift (position + 1 + s.length + 1))).map
          (.leftParen :: ts ++ .rightParen :: ·) := by
  have apart : Breaks (')' :: rest) := .cons _ (by decide)
  have start : allowsSign (some .leftParen) = allowsSign none := rfl
  have inside : scan (some .leftParen) (position + 1) s = .ok ts := by
    rw [scan_congr start, ← Nat.zero_add (position + 1), scan_shift, h]
    rfl
  have behind := scan_shift (some .rightParen) 0 (position + 1 + s.length + 1) rest
  rw [Nat.zero_add] at behind
  rw [List.cons_append, scan_leftParen, scan_append apart, inside, ok_bind, scan_rightParen, behind]
  cases scan (some .rightParen) 0 rest <;> rfl

theorem tokenize_group {b : String} (h : tokenize b = .ok ts) (a c : String) :
    tokenize (a ++ "(" ++ b ++ ")" ++ c) = do
      let front ← tokenize a
      let rest ← (scan (some .rightParen) 0 c.toList).mapError
        (LexError.shift (a.length + 1 + b.length + 1))
      return front ++ (.leftParen :: ts ++ .rightParen :: rest) := by
  have apart : Breaks ('(' :: b.toList ++ ')' :: c.toList) := .cons _ (by decide)
  have text : (a ++ "(" ++ b ++ ")" ++ c).toList =
      a.toList ++ ('(' :: b.toList ++ ')' :: c.toList) := by
    simp
  rw [tokenize, text, scan_append apart, tokenize]
  cases scan none 0 a.toList with
  | error e => rfl
  | ok front =>
    simp only [ok_bind, scan_group h, Nat.zero_add, String.length_toList]
    cases (scan (some .rightParen) 0 c.toList).mapError _ <;> rfl

theorem spells_display {v : Float} (finite : v.isFinite) (nonzero : v ≠ -0.0) :
    Spells (display v).toList (.number v) := by
  obtain ⟨run, literal, text, value⟩ := display_literal finite nonzero
  rw [text]
  cases negative : Number.isNegative v with
  | false =>
    rw [negative] at value
    exact value ▸ .literal literal
  | true =>
    rw [negative] at value
    exact value ▸ .negative literal

theorem tokenize_display_append {v : Float} (finite : v.isFinite) (nonzero : v ≠ -0.0)
    {c : String} (apart : Breaks c.toList) :
    tokenize (display v ++ c) = do
      let rest ← (scan (some .rightParen) 0 c.toList).mapError (LexError.shift (display v).length)
      return .number v :: rest := by
  have behind : allowsSign (some (.number v)) = allowsSign (some .rightParen) := rfl
  have shift := scan_shift (some .rightParen) 0 (display v).length c.toList
  rw [tokenize, String.toList_append,
    (spells_display finite nonzero).scan (fun _ => apart) (fun _ => rfl), scan_congr behind,
    String.length_toList, shift]
  rfl

theorem tokenize_display {v : Float} (finite : v.isFinite) (nonzero : v ≠ -0.0) :
    tokenize (display v) = .ok [.number v] := by
  have := @tokenize_display_append v finite nonzero "" breaks_nil
  rw [String.append_empty] at this
  rw [this, String.toList_empty, scan_nil]
  rfl

theorem evaluate_eq_compute (s : String) :
    evaluate s = lexed (tokenize s) >>= fun ts => compute ts >>= finite := by
  simp only [evaluate, compute, bind_assoc]

theorem lexed_bind {α β : Type} (r : Except LexError α) (f : α → Except LexError β) :
    lexed (r >>= f) = lexed r >>= fun a => lexed (f a) := by
  cases r <;> rfl

variable {b : String} {r : Float}

theorem alike_group (value : evaluate b = .ok r) (nonzero : r ≠ -0.0) (a c : String) :
    Alike (evaluate (a ++ "(" ++ b ++ ")" ++ c))
      (evaluate (a ++ "(" ++ display r ++ ")" ++ c)) := by
  obtain ⟨ts, out, scan, order, total, small⟩ := evaluate_eq_ok.1 value
  rw [evaluate_eq_compute, evaluate_eq_compute, tokenize_group scan,
    tokenize_group (tokenize_display small nonzero)]
  simp only [lexed_bind, bind_assoc]
  apply Alike.bind
  intro front
  apply Alike.shift
  intro rest
  change compute _ >>= finite = compute _ >>= finite
  rw [compute_group order total]

theorem alike_front (value : evaluate b = .ok r) (nonzero : r ≠ -0.0) {c : String}
    (apart : Breaks c.toList) :
    Alike (evaluate ("(" ++ b ++ ")" ++ c)) (evaluate (display r ++ c)) := by
  obtain ⟨ts, out, scan, order, total, small⟩ := evaluate_eq_ok.1 value
  have empty : tokenize "" = .ok [] := scan_nil none 0
  have group := tokenize_group scan "" c
  rw [empty, ok_bind, String.empty_append] at group
  rw [evaluate_eq_compute, evaluate_eq_compute, group,
    tokenize_display_append small nonzero apart]
  simp only [lexed_bind, bind_assoc]
  apply Alike.shift
  intro rest
  change compute _ >>= finite = compute _ >>= finite
  rw [List.nil_append, compute_group_front order total]

end Reckon
