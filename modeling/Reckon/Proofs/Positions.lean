import Reckon.Proofs.Agreement
import Reckon.Proofs.Outcomes

namespace Reckon

open Token

section Lists

variable {α β : Type} {f : α → List β} {l : List α} {a b : List β}

theorem flatMap_cut (split : a ++ b = l.flatMap f) (more : b ≠ []) :
    ∃ front c back mid rest, l = front ++ c :: back ∧ f c = mid ++ rest ∧ rest ≠ [] ∧
      a = front.flatMap f ++ mid ∧ b = rest ++ back.flatMap f := by
  induction l generalizing a with
  | nil => exact absurd (List.append_eq_nil_iff.1 split).2 more
  | cons c l ih =>
    rw [List.flatMap_cons] at split
    by_cases whole : f c <+: a
    · obtain ⟨a, rfl⟩ := whole
      rw [List.append_assoc, List.append_cancel_left_eq] at split
      obtain ⟨front, d, back, mid, rest, rfl, cut, some, rfl, tail⟩ := ih split
      exact ⟨c :: front, d, back, mid, rest, rfl, cut, some, by simp, tail⟩
    · have inside : a <+: f c :=
        (List.prefix_or_prefix_of_prefix ⟨b, split⟩ ⟨l.flatMap f, rfl⟩).resolve_right whole
      obtain ⟨rest, cut⟩ := inside
      have some : rest ≠ [] := by
        rintro rfl
        exact whole ⟨[], by rw [← cut]; simp⟩
      rw [← cut, List.append_assoc, List.append_cancel_left_eq] at split
      exact ⟨[], c, l, a, rest, rfl, cut.symm, some, rfl, split⟩

end Lists

namespace GlyphMap

theorem resolveChar_standard_cases (c : Char) :
    c = 'π' ∧ (standard.resolveChar c).toList = ['P', 'I'] ∨
      c ≠ 'π' ∧ ∃ d, (standard.resolveChar c).toList = [d] := by
  by_cases glyph : c ∈ ['×', '÷', '−', 'π']
  · simp only [List.mem_cons, List.not_mem_nil, or_false] at glyph
    rcases glyph with rfl | rfl | rfl | rfl
    · exact .inr ⟨by decide, '*', by decide⟩
    · exact .inr ⟨by decide, '/', by decide⟩
    · exact .inr ⟨by decide, '-', by decide⟩
    · exact .inl ⟨rfl, by decide⟩
  · refine .inr ⟨?_, c, by rw [resolveChar_standard glyph, String.toList_ofList]⟩
    rintro rfl
    simp at glyph

theorem length_resolved (s : List Char) :
    (s.flatMap fun c => (standard.resolveChar c).toList).length = s.length + s.count 'π' := by
  induction s with
  | nil => rfl
  | cons c s ih =>
    rw [List.flatMap_cons, List.length_append, ih, List.length_cons, List.count_cons]
    rcases resolveChar_standard_cases c with ⟨rfl, two⟩ | ⟨other, d, one⟩
    · rw [two]
      simp
      omega
    · rw [one]
      simp [other]
      omega

end GlyphMap

theorem Reads.stops_of_letter (h : Reads signed rest piece o) {c : Char} (letter : c.isAlpha)
    (mem : c ∈ piece.text) : ∀ d ∈ rest.head?, d.isAlphanum = false := by
  cases h with
  | constant h | function h => exact h.stops
  | @blank d h =>
    rw [List.mem_singleton.1 mem] at letter
    have word : d.isAlphanum := by rw [Char.isAlphanum, letter, Bool.true_or]
    have other := (Lexeme.not_special (.inl word)).1
    rw [h] at other
    cases other
  | leftParen | rightParen | comma =>
    rw [List.mem_singleton.1 mem] at letter
    cases letter
  | operator o =>
    rw [List.mem_singleton.1 mem] at letter
    cases o <;> cases letter
  | literal h =>
    have run := h.chars c mem
    rw [isRunChar_of_isAlpha letter] at run
    cases run
  | negative sign h =>
    rcases List.mem_cons.1 mem with rfl | mem
    · cases letter
    · have run := h.chars c mem
      rw [isRunChar_of_isAlpha letter] at run
      cases run

theorem Splits.stops_of_letter (h : Splits previous ls ts rest) {c : Char} (letter : c.isAlpha)
    (last : (texts ls).getLast? = some c) : ∀ d ∈ rest.head?, d.isAlphanum = false := by
  induction h with
  | nil => cases last
  | @skip previous ls rest piece ts reads _ ih | @token previous ls rest piece t ts reads _ ih =>
    by_cases empty : texts ls = []
    · rw [empty] at reads
      refine reads.stops_of_letter letter (List.mem_of_getLast? ?_)
      simpa [texts, List.flatMap_cons, show ls.flatMap Lexeme.text = [] from empty] using last
    · refine ih ?_
      rw [texts, List.flatMap_cons] at last
      exact (List.getLast?_append_of_ne_nil _ empty).symm.trans last

/-- At the place `p` of a text, whose characters before it are lexemes, a piece starts that is
none. -/
def FaultAt (s : String) (p : Nat) (fault : LexFault) : Prop :=
  p < s.length ∧ ∃ ts, tokenize (String.ofList (s.toList.take p)) = .ok ts ∧
    Faulty (allowsSign (lastOf none ts)) (s.toList.drop p) fault

theorem FaultAt.of_split {s : String} (text : texts ls ++ rest = s.toList)
    (splits : Splits none ls ts rest) (faulty : Faulty (allowsSign (lastOf none ts)) rest fault) :
    FaultAt s (texts ls).length fault := by
  refine ⟨?_, ts, ?_, ?_⟩
  · obtain ⟨c, cs, rfl⟩ := faulty.eq_cons
    rw [← String.length_toList, ← text, List.length_append, List.length_cons]
    omega
  · rw [← text, List.take_left]
    exact tokenize_eq_ok.2 ⟨ls, (String.toList_ofList ..).symm, splits.alone⟩
  · rwa [← text, List.drop_left]

theorem faultAt_of_tokenize {s : String} (h : tokenize s = .error (.at fault p)) :
    FaultAt s p fault := by
  obtain ⟨ls, ts, rest, fault', text, splits, faulty, eq⟩ := tokenize_eq_error.1 h
  cases eq
  exact .of_split text splits faulty

/-- The place of a fault in a normal form, told from the character where it is in the text. -/
theorem faultAt_normalize {s : String}
    (h : tokenize (GlyphMap.standard.normalize s) = .error (.at fault p)) :
    ∃ front c back, s.toList = front ++ c :: back ∧ p = front.length + front.count 'π' ∧
      (GlyphMap.standard.normalize s).toList.drop p =
        (GlyphMap.standard.normalize (String.ofList (c :: back))).toList := by
  obtain ⟨ls, ts, rest, fault', text, splits, faulty, eq⟩ := tokenize_eq_error.1 h
  cases eq
  have more : rest ≠ [] := by
    obtain ⟨c, cs, rfl⟩ := faulty.eq_cons
    exact List.cons_ne_nil c cs
  rw [GlyphMap.toList_normalize] at text
  obtain ⟨front, c, back, mid, tail, original, cut, filled, start, finish⟩ :=
    flatMap_cut text more
  -- Within a `π` the cut would part two letters.
  have edge : mid = [] := by
    cases mid with
    | nil => rfl
    | cons d mid =>
      have short {s : List Char} : [] ≠ s ++ tail := fun empty =>
        filled (List.append_eq_nil_iff.1 empty.symm).2
      rcases GlyphMap.resolveChar_standard_cases c with ⟨-, two⟩ | ⟨-, e, one⟩
      · obtain ⟨rfl, second⟩ := List.cons.inj (two.symm.trans cut)
        cases mid with
        | nil =>
          obtain rfl : ['I'] = tail := second
          have last : (texts ls).getLast? = some 'P' := by rw [start, List.getLast?_concat]
          have stops := splits.stops_of_letter rfl last 'I' (by rw [finish]; rfl)
          cases stops
        | cons f mid => exact absurd (List.cons.inj second).2 short
      · exact absurd (List.cons.inj (one.symm.trans cut)).2 short
  subst edge
  rw [List.append_nil] at start
  rw [List.nil_append] at cut
  refine ⟨front, c, back, original, ?_, ?_⟩
  · rw [start, GlyphMap.length_resolved]
  · rw [GlyphMap.toList_normalize, ← text, List.drop_left, finish, GlyphMap.toList_normalize,
      String.toList_ofList, List.flatMap_cons, cut]

def digitsBehind (s : String) : List Char := s.toList.reverse.takeWhile Char.isDigit

theorem digitsBehind_position (m : String) (p : Nat) :
    digitsBehind (m ++ " at position " ++ toString p) = (Nat.toDigits 10 p).reverse := by
  have digits : ∀ c ∈ (Nat.toDigits 10 p).reverse, c.isDigit := fun c mem =>
    Decimal.isDigit_toDigits p c (List.mem_reverse.1 mem)
  rw [digitsBehind, Nat.toString_eq_ofList_toDigits, String.toList_append, String.toList_ofList,
    List.reverse_append, List.takeWhile_append_of_pos digits, String.toList_append,
    List.reverse_append]
  exact List.append_nil _

theorem Token.describe_closed (t : Token) : ∃ front, t.describe = front ++ ")" := by
  unfold Token.describe
  exact ⟨_, rfl⟩

namespace EvaluationError

theorem message_cases (e : EvaluationError) :
    (∃ fault p, e = .lex (.at fault p)) ∨ digitsBehind e.message = [] := by
  cases e with
  | lex e =>
    cases e with
    | notText | tooLong => exact .inr (by decide)
    | «at» fault p => exact .inl ⟨fault, p, rfl⟩
  | parse e =>
    cases e with
    | mismatchedParentheses => exact .inr (by decide)
    | unexpectedToken t =>
      obtain ⟨front, shown⟩ := t.describe_closed
      refine .inr ?_
      rw [show message _ = "unexpected token: " ++ t.describe from rfl, shown, digitsBehind,
        ← String.append_assoc, String.toList_append, List.reverse_append]
      exact List.takeWhile_cons_of_neg (by decide)
  | eval e =>
    cases e with
    | domain e => exact .inr (by cases e <;> decide)
    | missingOperand | missingArgument | unexpectedToken | leftover =>
      refine .inr ?_
      rw [message, EvalError.message]
      decide
  | nonFinite => exact .inr (by decide)

theorem message_eq_position {e : EvaluationError} {m : String} {p : Nat} :
    e.message = m ++ " at position " ++ toString p ↔
      ∃ fault, e = .lex (.at fault p) ∧ m = fault.message := by
  constructor
  · intro same
    have digits := digitsBehind_position m p
    rw [← same] at digits
    rcases message_cases e with ⟨fault, q, rfl⟩ | none
    · obtain rfl : q = p := by
        rw [show message _ = fault.message ++ " at position " ++ toString q from rfl,
          digitsBehind_position, List.reverse_inj] at digits
        rw [← Nat.repr_inj, Nat.repr_eq_ofList_toDigits, digits, Nat.repr_eq_ofList_toDigits]
      refine ⟨fault, rfl, ?_⟩
      exact ((String.append_left_inj _).1 ((String.append_left_inj _).1 same)).symm
    · rw [none] at digits
      exact absurd (List.reverse_eq_nil_iff.1 digits.symm) Nat.toDigits_ne_nil
  · rintro ⟨fault, rfl, rfl⟩
    rfl

end EvaluationError

theorem display_not_error {v : Float} (finite : v.isFinite) (s : String) :
    display v ≠ "E" ++ s := by
  intro same
  have mem : 'E' ∈ (display (shown v)).toList := by
    rw [display_shown, same, String.toList_append]
    exact List.mem_cons_self
  have char := display_chars (shown_isFinite finite) (shown_ne v) _ mem
  revert char
  decide

def Console.lineAt (x m : String) (p : Nat) : String :=
  x ++ " = Error (" ++ (m ++ " at position " ++ toString p) ++ ")"

theorem Console.line_eq_lineAt {r : Row String α} {m : String} {p : Nat}
    (finite : ∀ v, r.outcome = .ok v → v.isFinite) :
    line r = lineAt r.label m p ↔
      ∃ fault, r.outcome = .error (.lex (.at fault p)) ∧ m = fault.message := by
  rw [line, lineAt]
  cases outcome : r.outcome with
  | ok v =>
    have opening : r.label ++ " = Error (" = r.label ++ " = " ++ ("E" ++ "rror (") := by
      rw [String.append_assoc]
      rfl
    constructor
    · intro same
      rw [opening] at same
      simp only [String.append_assoc, String.append_right_inj] at same
      exact absurd same (display_not_error (finite v outcome) _)
    · rintro ⟨fault, same, -⟩
      cases same
  | error e =>
    have opening : r.label ++ " = " ++ labels.errorDisplay ++ " (" = r.label ++ " = Error (" := by
      rw [String.append_assoc, String.append_assoc]
      rfl
    rw [opening, String.append_left_inj, String.append_right_inj,
      EvaluationError.message_eq_position]
    simp only [Except.error.injEq]

theorem Input.tokenize_of_verdict {maxLength : Int} {x : Input α}
    (h : x.verdict maxLength = .error (.lex (.at fault p))) :
    ∃ s, x = .text s ∧ Reckon.tokenize s = .error (.at fault p) := by
  cases x with
  | other a => cases h
  | text s =>
    rw [verdict] at h
    split at h
    · cases h
    · cases verdict_eq_error.1 h with
      | lex scan => exact ⟨s, rfl, scan⟩

namespace Evaluator

variable {limits : Limits}

theorem outcome_answer_ok {x : Input α} (h : outcome (x.answer limits) = .ok o) :
    o = x.verdict limits.maxLength := by
  rw [Input.answer] at h
  split at h
  · rename_i e failed
    cases h
    exact failed.symm
  · rename_i v value
    split at h
    · cases h
    · cases h
      exact value.symm

theorem rows_ok {xs : List (β × Input α)} {rs : List (Row β α)} (h : rows limits xs = .ok rs) :
    rs = xs.map fun x => ⟨x.1, x.2, x.2.verdict limits.maxLength⟩ := by
  induction xs generalizing rs with
  | nil =>
    cases h
    rfl
  | cons x xs ih =>
    obtain ⟨label, x⟩ := x
    obtain ⟨o, answered, h⟩ := bind_eq_ok.1 h
    obtain ⟨rest, more, h⟩ := bind_eq_ok.1 h
    cases h
    rw [List.map_cons, ← ih more, outcome_answer_ok answered]

end Evaluator

theorem Console.answer_ok {e : Evaluator} {rows : List (Row String Unit)} (sound : e.Sound limits)
    (h : (answer e xs).1 = .ok rows) : rows = xs.map fun x => Entry.row limits.maxLength x x := by
  rw [answer, (sound.many _).1] at h
  rw [Evaluator.rows_ok h, labelled, List.map_map]
  rfl

theorem Batch.run_ok {e : Evaluator} {rows : List BatchRow} (sound : e.Sound limits)
    (h : (run e path column content).1 = .ok rows) :
    ∀ r ∈ rows, r.outcome = r.expression.verdict limits.maxLength := by
  rw [run] at h
  split at h
  · cases h
  · rename_i xs listed
    rw [(sound.many xs).1] at h
    cases answered : Evaluator.rows limits xs with
    | error f =>
      rw [answered] at h
      cases h
    | ok rs =>
      rw [answered] at h
      cases h
      rw [Evaluator.rows_ok answered]
      intro r mem
      obtain ⟨x, -, rfl⟩ := List.mem_map.1 mem
      rfl

/-- The place in the line of an expression counts in the normal form, where the fault is, and not in
the text of the line: the characters from the fault on are those from there on with one more step
for each `π` before it. The rows of a column show normal forms, and places in these. -/
theorem printed_position (limits : Limits) (past : List (Evaluator.Command β α)) (e : Evaluator)
    (used : e = Evaluator.run { limits } past) :
    (∀ xs rows, (Console.answer e xs).1 = .ok rows → rows.map Row.label = xs ∧
      ∀ r ∈ rows, ∀ m p, Console.line r = Console.lineAt r.label m p →
        ∃ fault front c back, m = fault.message ∧ r.label.toList = front ++ c :: back ∧
          FaultAt (GlyphMap.standard.normalize r.label) p fault ∧
          (GlyphMap.standard.normalize r.label).toList.drop p =
            (GlyphMap.standard.normalize (String.ofList (c :: back))).toList ∧
          p = front.length + front.count 'π' ∧ (p = front.length ↔ 'π' ∉ front)) ∧
    ∀ path column content rows, (Batch.run e path column content).1 = .ok rows →
      ∀ r ∈ rows, ∀ fault p, r.outcome = .error (.lex (.at fault p)) →
        ∃ s, r.expression = .text s ∧ FaultAt s p fault := by
  have sound : e.Sound limits := used ▸ (Evaluator.Sound.new limits).run past
  refine ⟨fun xs rows answered => ?_, ?_⟩
  · rw [Console.answer_ok sound answered]
    refine ⟨by rw [List.map_map]; exact List.map_id xs, fun r mem m p printed => ?_⟩
    obtain ⟨x, -, rfl⟩ := List.mem_map.1 mem
    have finite (v) (value : Entry.outcome limits.maxLength x = .ok v) : v.isFinite :=
      isFinite_of_evaluate (Input.evaluate_of_verdict value)
    obtain ⟨fault, failed, rfl⟩ := (Console.line_eq_lineAt finite).1 printed
    change (.text (GlyphMap.standard.normalize x) : Input Unit).verdict _ = _ at failed
    obtain ⟨s, same, scan⟩ := Input.tokenize_of_verdict failed
    cases same
    obtain ⟨front, c, back, original, place, rest⟩ := faultAt_normalize scan
    refine ⟨fault, front, c, back, rfl, original, faultAt_of_tokenize scan, rest, place, ?_⟩
    rw [place, Nat.add_eq_left, List.count_eq_zero]
  · intro path column content rows answered r mem fault p failed
    rw [Batch.run_ok sound answered r mem] at failed
    obtain ⟨s, same, scan⟩ := Input.tokenize_of_verdict failed
    exact ⟨s, same, faultAt_of_tokenize scan⟩

theorem Entry.outcome_dollar :
    outcome ({} : Limits).maxLength "π$" = .error (.lex (.at .unexpectedCharacter 2)) := by
  have name : IsName ['P', 'I'] ['$'] :=
    ⟨⟨_, rfl, rfl⟩, List.all_eq_true.1 (by decide), by simp⟩
  have splits : Splits none [.identifier ['P', 'I']] [.number _] ['$'] :=
    .token (.constant name List.mem_cons_self (by decide)) .nil
  have dollar : Faulty false ['$'] .unexpectedCharacter := by
    refine .character (by decide) (by decide) (fun o => by cases o <;> decide) rfl ?_
    simp [runAhead_iff, Lexeme.startsRun]
  have scan : tokenize "PI$" = .error (.at .unexpectedCharacter 2) :=
    tokenize_eq_error.2 ⟨_, _, _, _, rfl, splits, dollar, rfl⟩
  rw [outcome, show GlyphMap.standard.normalize "π$" = "PI$" by decide,
    Input.verdict_text (by decide), verdict_eq_error.2 (.lex scan)]

theorem printed_position_dollar :
    ∃ e, e = Evaluator.run { limits := {} } ([.clear] : List (Evaluator.Command Unit Unit)) ∧
      (∃ rows, (Console.answer e ["π$"]).1 = .ok rows ∧ ∃ r ∈ rows,
        Console.line r = Console.lineAt r.label "unexpected character" 2 ∧
        ∃ fault front c back, "unexpected character" = fault.message ∧
          r.label.toList = front ++ c :: back ∧
          FaultAt (GlyphMap.standard.normalize r.label) 2 fault ∧
          (GlyphMap.standard.normalize r.label).toList.drop 2 =
            (GlyphMap.standard.normalize (String.ofList (c :: back))).toList ∧
          2 = front.length + front.count 'π' ∧ (2 = front.length ↔ 'π' ∉ front)) ∧
      ∃ rows, (Batch.run e "sums" (some "x") (some "x\nπ$")).1 = .ok rows ∧ ∃ r ∈ rows,
        r.outcome = .error (.lex (.at .unexpectedCharacter 2)) ∧
        ∃ s, r.expression = .text s ∧ FaultAt s 2 .unexpectedCharacter := by
  obtain ⟨lines, columns⟩ :=
    printed_position {} ([.clear] : List (Evaluator.Command Unit Unit)) _ rfl
  have sound := (Evaluator.Sound.new {}).run ([.clear] : List (Evaluator.Command Unit Unit))
  have answered := Console.answer_eq sound (by decide) ["π$"]
  have line : Console.line (Entry.row ({} : Limits).maxLength "π$" "π$") =
      Console.lineAt "π$" "unexpected character" 2 := by
    rw [Entry.line_row, Entry.printed, Entry.outcome_dollar]
    decide
  have plain : ∀ l ∈ [['x'], ['π', '$']], Csv.IsPlain l := by
    simp only [List.forall_mem_cons, List.not_mem_nil, false_implies, implies_true, and_true]
    refine ⟨⟨?_, ?_, ?_, ?_⟩, ⟨?_, ?_, ?_, ?_⟩⟩ <;> simp [Csv.isFieldEnd, Csv.isLineEnd]
  have found : (Batch.run _ "sums" (some "x") (some "x\nπ$")).1 =
      .ok ([(Csv.RowLabel.place 0, "π$")].map _) :=
    Batch.run_eq sound (by decide) "sums" (Csv.read_column plain) (by decide)
  refine ⟨_, rfl, ⟨_, answered, _, List.mem_cons_self, line, ?_⟩,
    _, found, _, List.mem_cons_self, Entry.outcome_dollar, ?_⟩
  · exact (lines _ _ answered).2 _ List.mem_cons_self _ _ line
  · exact columns _ _ _ _ found _ List.mem_cons_self _ _ Entry.outcome_dollar

theorem printed_position_beyond : ∃ rows r, (Console.answer {} ["π$"]).1 = .ok rows ∧ r ∈ rows ∧
    Console.line r = "π$ = Error (unexpected character at position 2)" ∧ ¬2 < r.label.length := by
  have answered := Console.answer_eq (Evaluator.Sound.new {}) (by decide) ["π$"]
  refine ⟨_, _, answered, List.mem_cons_self, ?_, by decide⟩
  rw [Entry.line_row, Entry.printed, Entry.outcome_dollar]
  decide

end Reckon
