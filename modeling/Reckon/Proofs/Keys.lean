import Reckon.Proofs.Meaning
import Reckon.Proofs.Guard

/-!
Inputs that keys type. In all of them an operator stands directly behind another one only as a sign.
So an input that neither starts nor ends with an operator out of place, and whose runs are literals,
is numbers with operators between them, and calculating it cannot fail by its form.
-/

namespace Reckon

open Token

inductive Flat : List Token → Prop
  | one (v : Float) : Flat [.number v]
  | more (v : Float) (o : Operator) : Flat ts → Flat (.number v :: .operator (.listed o) :: ts)

namespace Flat

theorem alternates (h : Flat ts) : Alternates false ts := by
  induction h with
  | one v => exact ⟨rfl, rfl, rfl⟩
  | more v o h ih =>
    obtain ⟨crowd, miss, calls⟩ := ih
    exact ⟨by simpa [crowded, startsOperand, endsOperand] using crowd,
      by simpa [missing, startsOperand, endsOperand] using miss, calls⟩

theorem plain (h : Flat ts) :
    ∀ t ∈ ts, Plain t ∧ t.isComma = false ∧ ∀ f, t ≠ .function f := by
  induction h with
  | one v => simpa using ⟨Plain.number v, rfl⟩
  | more v o h ih => simpa using ⟨⟨Plain.number v, rfl⟩, ⟨Plain.operator o, rfl⟩, ih⟩

theorem closes (h : Flat ts) : Token.closes 0 ts := by
  induction h with
  | one v => rfl
  | more v o h ih => exact ih

theorem derives (h : Flat ts) : ∃ t, Derives .sum ts t :=
  derives_of_alternates h.alternates (fun t mem => (h.plain t mem).1)
    (fun t mem => (h.plain t mem).2.1) h.closes

end Flat

theorem Derives.divisionByZero (h : Derives rank ts t) (single : ∀ f, .function f ∉ ts)
    (error : t.eval = .error e) : e = .divisionByZero := by
  induction h using Derives.induction with
  | number v => cases error
  | group h ih => exact ih (fun f mem => single f (by simp [mem])) error
  | call f h ih => exact absurd List.mem_cons_self (single (.listed f))
  | binary o hl hr ihl ihr =>
    simp only [List.mem_append, List.mem_cons, not_or] at single
    rw [Expr.eval, bind_eq_error] at error
    rcases error with left | ⟨x, -, error⟩
    · exact ihl (fun f => (single f).1) left
    · rcases bind_eq_error.1 error with right | ⟨y, -, error⟩
      · exact ihr (fun f => (single f).2.2) right
      · cases o with
        | div =>
          rw [Operator.apply] at error
          split at error <;> cases error
          rfl
        | add | sub | mul | mod | pow => cases error
  | widen le h ih => exact ih single error

theorem Flat.evaluate_error (h : Flat ts) (w : Writes s.toList ts)
    (error : evaluate s = .error (.evaluation e)) :
    e = .eval (.domain .divisionByZero) ∨ e = .nonFinite := by
  obtain ⟨t, derives⟩ := h.derives
  rw [evaluate, tokenize_of_writes derives w] at error
  simp only [lexed, Except.mapError, ok_bind, Postfix.ofTokens_derives derives, t.eval_ordered]
    at error
  cases value : t.eval with
  | error d =>
    rw [value] at error
    cases error
    obtain rfl := derives.divisionByZero (fun f mem => (h.plain _ mem).2.2 f rfl) value
    exact .inl rfl
  | ok v =>
    rw [value, Postfix.domain_ok, ok_bind, finite] at error
    split at error <;> cases error
    exact .inr rfl

def keyOperator? (c : Char) : Option Operator := GlyphMap.standard.operator? (String.ofList [c])

def keyChar (c : Char) : Char := (keyOperator? c).elim c Operator.symbol

def MayFollow (c d : Char) : Prop :=
  ∀ p ∈ keyOperator? c, ∀ o ∈ keyOperator? d, o = .sub ∧ Session.signMayFollow p

structure Keyed (s : List Char) : Prop where
  chars : ∀ c ∈ s, Lexeme.isRunChar c ∨ (keyOperator? c).isSome
  pairs : s.IsChain MayFollow

/-- A text that is not empty, does not end in an operator and starts with none but a minus sign, and
each longest run of digits and points of which has a digit and at most one point. -/
structure Ready (s : List Char) : Prop where
  nonempty : s ≠ []
  last : ∀ c ∈ s.getLast?, keyOperator? c = none
  first : ∀ c ∈ s.head?, ∀ o ∈ keyOperator? c, o = .sub
  runs : ∀ front run back, s = front ++ (run ++ back) → run ≠ [] →
    (∀ c ∈ run, Lexeme.isRunChar c) → (∀ c ∈ front.getLast?, Lexeme.isRunChar c = false) →
    (∀ c ∈ back.head?, Lexeme.isRunChar c = false) →
    (∃ c ∈ run, c.isDigit) ∧ run.count '.' ≤ 1

theorem resolveChar_run {c : Char} (h : Lexeme.isRunChar c) :
    GlyphMap.standard.resolveChar c = String.ofList [c] := by
  apply GlyphMap.resolveChar_standard
  intro glyph
  simp only [List.mem_cons, List.not_mem_nil, or_false] at glyph
  rcases glyph with rfl | rfl | rfl | rfl <;> revert h <;> decide

theorem keyOperator?_run {c : Char} (h : Lexeme.isRunChar c) : keyOperator? c = none :=
  GlyphMap.nonAscii_standard.charOperator?_run h

theorem keyChar_run {c : Char} (h : Lexeme.isRunChar c) : keyChar c = c := by
  rw [keyChar, keyOperator?_run h]
  rfl

theorem keyChar_operator {c : Char} (h : keyOperator? c = some o) : keyChar c = o.symbol := by
  rw [keyChar, h]
  rfl

theorem isRunChar_of_keyOperator? {c : Char} (h : keyOperator? c = some o) :
    Lexeme.isRunChar c = false := by
  rw [Bool.eq_false_iff]
  intro run
  rw [keyOperator?_run run] at h
  cases h

theorem resolveChar_key {c : Char} (h : Lexeme.isRunChar c ∨ (keyOperator? c).isSome) :
    GlyphMap.standard.resolveChar c = String.ofList [keyChar c] := by
  rcases h with run | operator
  · rw [keyChar_run run, resolveChar_run run]
  · obtain ⟨o, found⟩ := Option.isSome_iff_exists.1 operator
    have text : o.text = GlyphMap.standard.resolveChar c := Operator.text_eq_of_ofText? found
    rw [keyChar_operator found, ← text, Operator.text]

namespace Keyed

theorem normalize {s : String} (h : Keyed s.toList) :
    (GlyphMap.standard.normalize s).toList = s.toList.map keyChar := by
  rw [GlyphMap.normalize, List.map_congr_left fun c mem => resolveChar_key (h.chars c mem),
    String.toList_join]
  induction s.toList with
  | nil => rfl
  | cons c s ih => simp_all

theorem nil : Keyed [] := ⟨by simp, .nil⟩

theorem dropLast (h : Keyed s) : Keyed s.dropLast :=
  ⟨fun c mem => h.chars c (List.mem_of_mem_dropLast mem), h.pairs.dropLast⟩

theorem right_of_append (h : Keyed (a ++ b)) : Keyed b :=
  ⟨fun c mem => h.chars c (List.mem_append_right a mem), h.pairs.right_of_append⟩

theorem concat {c : Char} (h : Keyed s) (char : Lexeme.isRunChar c ∨ (keyOperator? c).isSome)
    (follows : ∀ b ∈ s.getLast?, MayFollow b c) : Keyed (s ++ [c]) := by
  refine ⟨List.forall_mem_append.2 ⟨h.chars, List.forall_mem_singleton.2 char⟩, ?_⟩
  exact h.pairs.append (.singleton c) (by simpa using follows)

theorem literal {run : List Char} (h : ∀ c ∈ run, Lexeme.isRunChar c) (negative : Bool) :
    Keyed (Lexeme.literal negative run).text := by
  refine ⟨?_, GlyphMap.Guarded.literal (fun c mem => keyOperator?_run (h c mem)) negative⟩
  cases negative with
  | false => exact fun c mem => .inl (h c mem)
  | true => exact List.forall_mem_cons.2 ⟨.inr (by decide), fun c mem => .inl (h c mem)⟩

theorem of_display {v : Float} (finite : v.isFinite) : Keyed (display v).toList := by
  obtain ⟨run, literal, text, -⟩ := display_literal (shown_isFinite finite) (shown_ne v)
  rw [← display_shown, text]
  exact .literal literal.chars _

end Keyed

theorem Ready.of_digits {s : List Char} (nonempty : s ≠ [])
    (last : ∀ c ∈ s.getLast?, keyOperator? c = none)
    (first : ∀ c ∈ s.head?, ∀ o ∈ keyOperator? c, o = .sub) (point : '.' ∉ s) : Ready s := by
  refine ⟨nonempty, last, first, fun front run back eq filled chars _ _ => ?_⟩
  have none : '.' ∉ run := fun mem => point (by simp [eq, mem])
  obtain ⟨c, rest, rfl⟩ := List.exists_cons_of_ne_nil filled
  refine ⟨⟨c, List.mem_cons_self, ?_⟩, (List.count_eq_zero_of_not_mem none).le.trans (by decide)⟩
  have other : c ≠ '.' := by
    rintro rfl
    exact none List.mem_cons_self
  simpa [Lexeme.isRunChar, other] using chars c List.mem_cons_self

theorem Ready.behind {a b : List Char} {q : Char} (h : Ready (a ++ q :: b))
    (keyed : Keyed (a ++ q :: b)) (operator : keyOperator? q = some o) : Ready b := by
  have stop : Lexeme.isRunChar q = false := isRunChar_of_keyOperator? operator
  have nonempty : b ≠ [] := by
    rintro rfl
    have := h.last q (by simp)
    rw [operator] at this
    cases this
  refine ⟨nonempty, fun c mem => h.last c ?_, fun c mem p found => ?_, ?_⟩
  · obtain ⟨d, b, rfl⟩ := List.exists_cons_of_ne_nil nonempty
    simpa [List.getLast?_append] using mem
  · have follows := (List.isChain_cons.1 keyed.right_of_append.pairs).1 c mem
    exact (follows o operator p found).1
  · intro front run back eq filled chars before after
    refine h.runs (a ++ q :: front) run back (by simp [eq]) filled chars ?_ after
    cases front with
    | nil => simpa using stop
    | cons c front => simpa [List.getLast?_append] using before

theorem Ready.literal {sign rest : List Char} {c : Char} (h : Ready (sign ++ c :: rest))
    (keyed : Keyed (sign ++ c :: rest)) (run : Lexeme.isRunChar c)
    (stop : ∀ b ∈ sign.getLast?, Lexeme.isRunChar b = false) :
    ∃ run back, c :: rest = run ++ back ∧ IsLiteral run ∧
      ∀ q more, back = q :: more → ∃ o, keyOperator? q = some o := by
  have text := @List.takeWhile_append_dropWhile _ Lexeme.isRunChar (c :: rest)
  have after := head?_dropWhile Lexeme.isRunChar (c :: rest)
  have chars (d : Char) : d ∈ (c :: rest).takeWhile Lexeme.isRunChar → Lexeme.isRunChar d :=
    List.mem_takeWhile_imp
  have nonempty : (c :: rest).takeWhile Lexeme.isRunChar ≠ [] := by simp [run]
  obtain ⟨digit, point⟩ := h.runs sign _ _ (by rw [text]) nonempty chars stop after
  refine ⟨_, _, text.symm, ⟨chars, digit, point⟩, fun q more back => ?_⟩
  have none : Lexeme.isRunChar q = false := after q (by rw [back]; rfl)
  have mem : q ∈ c :: rest := by
    rw [← text, back]
    simp
  have typed := keyed.chars q (List.mem_append_right sign mem)
  rw [none] at typed
  exact Option.isSome_iff_exists.1 (typed.resolve_left (by simp))

theorem map_keyChar_run {run : List Char} (h : ∀ c ∈ run, Lexeme.isRunChar c) :
    run.map keyChar = run := by
  rw [List.map_congr_left fun c mem => keyChar_run (h c mem), List.map_id']

theorem Ready.operand (h : Ready s) (keyed : Keyed s) :
    ∃ w back v, s = w ++ back ∧ Spells (w.map keyChar) (.number v) ∧
      ∀ q more, back = q :: more → ∃ o, keyOperator? q = some o := by
  obtain ⟨c, s, rfl⟩ := List.exists_cons_of_ne_nil h.nonempty
  rcases keyed.chars c List.mem_cons_self with run | operator
  · obtain ⟨w, back, eq, literal, next⟩ := @Ready.literal [] s c h keyed run (by simp)
    refine ⟨w, back, (Decimal.ofRun w).toFloat false, eq, ?_, next⟩
    rw [map_keyChar_run literal.chars]
    exact .literal literal
  · obtain ⟨o, found⟩ := Option.isSome_iff_exists.1 operator
    obtain rfl := h.first c rfl o found
    cases s with
    | nil =>
      have := h.last c rfl
      rw [found] at this
      cases this
    | cons d s =>
      have run : Lexeme.isRunChar d := by
        refine (keyed.chars d (by simp)).resolve_right fun operator => ?_
        obtain ⟨p, second⟩ := Option.isSome_iff_exists.1 operator
        -- No operator may follow the sign.
        cases ((List.isChain_cons_cons.1 keyed.pairs).1 .sub found p second).2
      obtain ⟨w, back, eq, literal, next⟩ :=
        @Ready.literal [c] s d h keyed run (by simpa using isRunChar_of_keyOperator? found)
      refine ⟨c :: w, back, (Decimal.ofRun w).toFloat true, by rw [eq, List.cons_append], ?_, next⟩
      rw [List.map_cons, keyChar_operator found, map_keyChar_run literal.chars]
      exact .negative literal

/-- What is keyed and ready is numbers with operators between them. -/
theorem Ready.flat (h : Ready s) (keyed : Keyed s) :
    ∃ ts, Flat ts ∧ Writes (s.map keyChar) ts := by
  -- By induction on the length: an operand and the operator behind it leave a ready text.
  obtain ⟨w, back, v, rfl, spells, next⟩ := h.operand keyed
  cases back with
  | nil =>
    refine ⟨_, .one v, ?_⟩
    rw [List.append_nil, ← List.append_nil (w.map keyChar)]
    exact .word spells (@Writes.blanks [] (by simp))
  | cons q more =>
    obtain ⟨o, operator⟩ := next q more rfl
    have shorter : more.length < (w ++ q :: more).length := by
      simp
      omega
    have rest : Keyed more := @Keyed.right_of_append (w ++ [q]) more (by simpa using keyed)
    obtain ⟨ts, flat, writes⟩ := Ready.flat (h.behind keyed operator) rest
    refine ⟨_, .more v o flat, ?_⟩
    rw [List.map_append, List.map_cons, keyChar_operator operator]
    exact .word spells (.word (.operator o) writes)
termination_by s.length

namespace Session

variable {limits : Limits} {s : Session}

theorem Sound.mayFollow (h : s.Sound limits) {b c : Char} (accepts : s.accepts (String.ofList [c]))
    (last : b ∈ s.input.toList.getLast?) : MayFollow b c := by
  have follows := accepts_char.1 accepts b last
  rw [h.glyphs] at follows
  exact follows

theorem Sound.keyed_press (h : s.Sound limits) (keyed : Keyed s.input.toList) {k : String}
    (types : s.types k) : Keyed (s.press k).2.input.toList := by
  rw [Session.types] at types
  split at types
  · rename_i c eq
    obtain rfl : String.ofList [c] = k := by rw [← eq, String.ofList_toList]
    rw [press]
    split
    · rename_i accepted
      rw [append, String.toList_append, String.toList_ofList]
      refine keyed.concat ?_ fun b last => h.mayFollow accepted last
      rwa [h.glyphs, Bool.or_eq_true] at types
    · exact keyed
  · cases types

theorem Sound.keyed_calculate (h : s.Sound limits) (keyed : Keyed s.input.toList) :
    Keyed s.calculate.2.input.toList := by
  rcases calculate_input h.evaluator with same | empty | ⟨v, finite, result⟩
  · exact same ▸ keyed
  · exact empty ▸ .nil
  · exact result ▸ .of_display finite

theorem Sound.keyed_key (h : s.Sound limits) (keyed : Keyed s.input.toList) (k : String) :
    Keyed (s.key k).2.input.toList := by
  rw [key]
  cases stroke : s.stroke k with
  | calculate => exact h.keyed_calculate keyed
  | delete => simpa [delete] using keyed.dropLast
  | clear => exact .nil
  | press => exact h.keyed_press keyed (types_of_stroke stroke)
  | ignored => exact keyed

/-- Keys type nothing but what is keyed, whatever is calculated and deleted between them. -/
theorem Sound.keyed_run (h : s.Sound limits) (keyed : Keyed s.input.toList) (keys : List String) :
    Keyed (s.run (keys.map .key)).input.toList := by
  induction keys generalizing s with
  | nil => exact keyed
  | cons k keys ih => exact ih (h.perform (.key k)) (h.keyed_key keyed k)

theorem Sound.calculates_ready (h : s.Sound limits) (room : 0 ≤ limits.cacheSize)
    (keyed : Keyed s.input.toList) (ready : Ready s.input.toList) :
    ∃ out, s.Calculates out ∧ ∀ e, out = .error e →
      e = .eval (.domain .divisionByZero) ∨ e = .nonFinite ∨ e = .lex .tooLong := by
  obtain ⟨ts, flat, writes⟩ := ready.flat keyed
  rw [← keyed.normalize, ← h.glyphs] at writes
  refine ⟨_, h.calculates room, fun e error => ?_⟩
  rw [Input.verdict] at error
  split at error
  · cases error
    exact .inr (.inr rfl)
  · have failed := evaluate_eq_verdict s.expression
    rw [error] at failed
    exact (flat.evaluate_error writes failed).imp_right .inl

end Session

/-- Whatever keys are typed, a ready input gives a value, but for a division by zero, a result that
is not finite, and a text over the length limit. -/
theorem ready_calculates :
    ∀ limits (past : List (Evaluator.Command β α)) (keys : List String) s,
      0 ≤ limits.cacheSize →
      s = Session.run { evaluator := Evaluator.run { limits } past } (keys.map .key) →
      Ready s.input.toList →
      ∃ out, s.Calculates out ∧ ∀ e, out = .error e →
        e = .eval (.domain .divisionByZero) ∨ e = .nonFinite ∨ e = .lex .tooLong := by
  intro limits past keys s room made ready
  have start := Session.Sound.new limits past
  have sound : s.Sound limits := made ▸ start.run _
  have keyed : Keyed s.input.toList := made ▸ start.keyed_run .nil keys
  exact sound.calculates_ready room keyed ready

def Session.dividing : Session :=
  Session.run {} (["8", "÷", "+", "−", "2", "5", "Backspace"].map .key)

theorem ready_dividing : Ready Session.dividing.input.toList := by
  rw [show Session.dividing.input = "8÷−2" by decide]
  refine .of_digits (by decide) ?_ ?_ (by decide)
  · intro c last
    obtain rfl : '2' = c := by simpa using last
    decide
  · intro c first
    obtain rfl : '8' = c := by simpa using first
    decide

theorem ready_calculates_dividing :
    0 ≤ Session.dividing.evaluator.limits.cacheSize ∧ Ready Session.dividing.input.toList ∧
      ∃ out, Session.dividing.Calculates out ∧ ∀ e, out = .error e →
        e = .eval (.domain .divisionByZero) ∨ e = .nonFinite ∨ e = .lex .tooLong :=
  ⟨by decide, ready_dividing,
    @ready_calculates Nat Unit {} [] _ _ (by decide) rfl ready_dividing⟩

end Reckon
