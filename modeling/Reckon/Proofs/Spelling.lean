import Reckon.Proofs.Gaps
import Reckon.Proofs.Lexical

namespace Reckon

inductive Spells : List Char → Token → Prop
  | literal (h : IsLiteral run) : Spells run (.number ((Decimal.ofRun run).toFloat false))
  | negative (h : IsLiteral run) : Spells ('-' :: run) (.number ((Decimal.ofRun run).toFloat true))
  | constant (listed : (name, v) ∈ constants) (h : w.map Char.toLower = name.toList) :
    Spells w (.number v)
  | function (f : Func) (h : w.map Char.toLower = f.text.toList) :
    Spells w (.function (.listed f))
  | operator (o : Operator) : Spells [o.symbol] (.operator (.listed o))
  | leftParen : Spells ['('] .leftParen
  | rightParen : Spells [')'] .rightParen

inductive Writes : List Char → List Token → Prop
  | blanks (h : ∀ c ∈ gap, Text.isBlank c) : Writes gap []
  | cons (h : ∀ c ∈ gap, Text.isBlank c) : Spells w t → Writes s ts →
    Writes (gap ++ w ++ s) (t :: ts)

theorem Writes.word (h : Spells w t) (rest : Writes s ts) : Writes (w ++ s) (t :: ts) := by
  have blank : ∀ c ∈ [], Text.isBlank c := by simp
  exact .cons blank h rest

namespace Token

def spreads : Token → Bool
  | .number _ | .function _ => true
  | _ => false

end Token

open Token

theorem IsLiteral.isRun (h : IsLiteral run) (breaks : Breaks rest) : IsRun run rest := by
  have start := h.startsRun []
  rw [List.append_nil] at start
  exact ⟨startsRun_iff.1 start, h.chars, Lexeme.isRunChar_of_breaks breaks⟩

theorem Spells.reads (h : Spells w t) (breaks : t.spreads → Breaks rest)
    (sign : w.head? = some '-' → signed = t.startsOperand) :
    ∃ piece : Lexeme, piece.text = w ∧ Reads signed rest piece (some t) := by
  have stops (spreads : t.spreads) : ∀ c ∈ rest.head?, c.isAlphanum = false :=
    fun c mem => (breaks spreads c mem).1
  cases h with
  | literal h => exact ⟨.literal false _, rfl, .literal (h.isRun (breaks rfl)) h.point⟩
  | negative h => exact ⟨.literal true _, rfl, .negative (sign rfl) (h.isRun (breaks rfl)) h.point⟩
  | constant listed h =>
    refine ⟨.identifier w, rfl, .constant (IsName.map_toLower.1 ?_) listed h⟩
    rw [h]
    simp only [constants, List.mem_singleton] at listed
    cases listed
    exact ⟨⟨_, rfl, rfl⟩, List.all_eq_true.1 (by decide), stops rfl⟩
  | function f h =>
    refine ⟨.identifier w, rfl, .function (IsName.map_toLower.1 ?_) f h⟩
    rw [h]
    exact ⟨by cases f <;> exact ⟨_, rfl, rfl⟩,
      List.all_eq_true.1 (by cases f <;> decide), stops rfl⟩
  | operator o =>
    refine ⟨.operator o, rfl, .operator o ?_⟩
    rintro rfl signed
    exact absurd (sign rfl) (by simp [signed, startsOperand])
  | leftParen => exact ⟨.leftParen, rfl, .leftParen⟩
  | rightParen => exact ⟨.rightParen, rfl, .rightParen⟩

theorem breaks_of_blank {c : Char} (h : Text.isBlank c) (s : List Char) : Breaks (c :: s) := by
  have : ¬(c.isAlphanum ∨ c = '.') := fun word => by simp [(Lexeme.not_special word).1] at h
  apply Breaks.cons
  simpa using this

theorem Writes.breaks (h : Writes s ts) (apart : ∀ t ∈ ts.head?, t.spreads = false) : Breaks s := by
  cases h with
  | blanks blank =>
    cases s with
    | nil => exact breaks_nil
    | cons c s => exact breaks_of_blank (blank c (by simp)) s
  | @cons gap w t s ts blank spells rest =>
    cases gap with
    | cons c gap => exact breaks_of_blank (blank c (by simp)) _
    | nil =>
      have short := apart t rfl
      cases spells with
      | literal h | negative h | constant listed h | function f h => cases short
      | operator o => exact Breaks.cons _ (by cases o <;> decide)
      | leftParen => exact Breaks.cons _ (by decide)
      | rightParen => exact Breaks.cons _ (by decide)

theorem scan_blank {c : Char} (h : Text.isBlank c) (previous : Option Token) (position : Nat)
    (s : List Char) : scan previous position (c :: s) = scan previous (position + 1) s :=
  scan_skips (.blank h) position

theorem scan_blanks {gap : List Char} (h : ∀ c ∈ gap, Text.isBlank c) (previous : Option Token)
    (position : Nat) (s : List Char) :
    scan previous position (gap ++ s) = scan previous (position + gap.length) s := by
  induction gap generalizing position with
  | nil => rfl
  | cons c gap ih =>
    rw [List.forall_mem_cons] at h
    rw [List.cons_append, scan_blank h.1, ih h.2, List.length_cons, Nat.add_assoc,
      Nat.add_comm 1]

theorem Spells.scan (h : Spells w t) (breaks : t.spreads → Breaks rest)
    (sign : w.head? = some '-' → allowsSign previous = t.startsOperand) (position : Nat) :
    Token.scan previous position (w ++ rest) =
      (Token.scan (some t) (position + w.length) rest).map (t :: ·) := by
  obtain ⟨piece, rfl, reads⟩ := h.reads breaks sign
  exact scan_reads reads position

theorem scan_leftParen (previous : Option Token) (position : Nat) (s : List Char) :
    scan previous position ('(' :: s) =
      (scan (some .leftParen) (position + 1) s).map (.leftParen :: ·) :=
  Spells.leftParen.scan (by simp [spreads]) (by simp) position

theorem scan_rightParen (previous : Option Token) (position : Nat) (s : List Char) :
    scan previous position (')' :: s) =
      (scan (some .rightParen) (position + 1) s).map (.rightParen :: ·) :=
  Spells.rightParen.scan (by simp [spreads]) (by simp) position

theorem calls_of_cons (h : callsBracketed (t :: ts)) :
    callsBracketed ts ∧ ∀ f, t = .function f → ∃ s us, ts = .leftParen s :: us := by
  cases t with
  | function f =>
    match ts, h with
    | .leftParen s :: us, h => exact ⟨h, fun _ _ => ⟨s, us, rfl⟩⟩
  | number v | operator o | leftParen s | rightParen s | comma s | unknown s =>
    exact ⟨h, fun f eq => by cases eq⟩

/-- A sign is read as one of a number just where a number has to start, and behind a function there
is an open parenthesis. -/
def Fits (previous : Option Token) (ts : List Token) : Prop :=
  ∀ t ∈ ts.head?, allowsSign previous = t.startsOperand ∨ ∃ s, t = .leftParen s

theorem fits_none (turns : Alternates false ts) : Fits none ts := by
  cases ts with
  | nil => simp [Fits]
  | cons t ts =>
    have turn := (turn_of_cons turns.crowded turns.missing).1
    simp [Fits, turn, allowsSign]

theorem Spells.fits (h : Spells w t) (turns : Alternates after (t :: ts)) :
    Fits (some t) ts ∧ ∀ u ∈ ts.head?, t.spreads → u.spreads = false := by
  cases ts with
  | nil => simp [Fits]
  | cons u ts =>
    obtain ⟨-, crowd, miss⟩ := turn_of_cons turns.crowded turns.missing
    have turn := (turn_of_cons crowd miss).1
    have call := (calls_of_cons turns.calls).2
    simp only [Fits, List.head?_cons, Option.mem_some_iff, forall_eq']
    cases h with
    | literal h | negative h | constant listed h =>
      refine ⟨.inl turn.symm, fun _ => ?_⟩
      cases u <;> first | rfl | cases turn
    | function f h =>
      obtain ⟨s, us, eq⟩ := call _ rfl
      cases eq
      exact ⟨.inr ⟨s, rfl⟩, fun _ => rfl⟩
    | operator o | leftParen | rightParen => exact ⟨.inl turn.symm, by simp [spreads]⟩

theorem Writes.scan (h : Writes s ts) {after : Bool} (turns : Alternates after ts)
    {previous : Option Token} (fits : Fits previous ts) (position : Nat) :
    Token.scan previous position s = .ok ts := by
  -- That a sign fits where it stands is carried on from each token to the next one.
  induction h generalizing previous position after with
  | @blanks gap blank =>
    have := scan_blanks blank previous position []
    rwa [List.append_nil, scan_nil] at this
  | @cons gap w t s ts blank spells writes ih =>
    obtain ⟨next, short⟩ := spells.fits turns
    obtain ⟨turn, crowd, miss⟩ := turn_of_cons turns.crowded turns.missing
    have calls := (calls_of_cons turns.calls).1
    have breaks (spreads : t.spreads) : Breaks s :=
      writes.breaks fun u mem => short u mem spreads
    have sign (minus : w.head? = some '-') : allowsSign previous = t.startsOperand := by
      rcases fits t rfl with same | ⟨s, rfl⟩
      · exact same
      · cases spells
        cases minus
    rw [List.append_assoc, scan_blanks blank, spells.scan breaks sign, ih ⟨crowd, miss, calls⟩ next]
    rfl

theorem spells_one : Spells ['1'] (.number 1) := by
  rw [show (1 : Float) = (Decimal.ofRun ['1']).toFloat false by decide +kernel]
  exact .literal (.of_isDigit rfl)

theorem spells_two : Spells ['2'] (.number 2) := by
  rw [show (2 : Float) = (Decimal.ofRun ['2']).toFloat false by decide +kernel]
  exact .literal (.of_isDigit rfl)

end Reckon
