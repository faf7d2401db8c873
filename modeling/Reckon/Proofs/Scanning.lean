import Reckon.Proofs.Number.Literal

namespace Reckon

/-- A text that no literal and no name goes on with. -/
def Breaks (s : List Char) : Prop := ∀ c ∈ s.head?, c.isAlphanum = false ∧ c ≠ '.'

theorem breaks_nil : Breaks [] := by
  simp [Breaks]

theorem Breaks.cons {c : Char} (s : List Char) (h : c.isAlphanum = false ∧ c ≠ '.') :
    Breaks (c :: s) := by
  simpa [Breaks] using h

namespace Lexeme

variable {rest : List Char}

theorem startsRun_of_breaks (h : Breaks rest) : startsRun rest = false := by
  cases rest with
  | nil => rfl
  | cons c rest =>
    have := h c rfl
    cases rest <;> simp_all [startsRun, Char.isAlphanum]

theorem isRunChar_of_breaks (h : Breaks rest) : ∀ c ∈ rest.head?, isRunChar c = false := by
  intro c mem
  have := h c mem
  simp_all [isRunChar, Char.isAlphanum]

theorem startsRun_append (h : Breaks rest) (s : List Char) :
    startsRun (s ++ rest) = startsRun s := by
  match s with
  | [] => exact startsRun_of_breaks h
  | [c] =>
    cases rest with
    | nil => rfl
    | cons d rest =>
      have := h d rfl
      simp_all [startsRun, Char.isAlphanum]
  | c :: d :: s => rfl

theorem takeWhile_append (p : Char → Bool) (h : ∀ c ∈ rest.head?, p c = false) (s : List Char) :
    (s ++ rest).takeWhile p = s.takeWhile p ∧ (s ++ rest).dropWhile p = s.dropWhile p ++ rest := by
  induction s with
  | nil => cases rest <;> simp_all
  | cons c s ih => by_cases hc : p c <;> simp [hc, ih]

theorem first_append (h : Breaks rest) (signed : Bool) (c : Char) (s : List Char) :
    first signed c (s ++ rest) = ((first signed c s).1, (first signed c s).2 ++ rest) := by
  have start := startsRun_append h
  have run := takeWhile_append isRunChar (isRunChar_of_breaks h)
  have name := takeWhile_append Char.isAlphanum (fun c hc => (h c hc).1)
  simp only [first, literalOf, ← List.cons_append, start, run, name]
  iterate 5 split; · rfl
  split
  · rfl
  · iterate 2 split; · rfl
    rfl

end Lexeme

namespace LexError

def shift (k : Nat) : LexError → LexError
  | .at fault position => .at fault (position + k)
  | e => e

end LexError

namespace Token

def lastOf (previous : Option Token) (ts : List Token) : Option Token := ts.getLast?.or previous

@[simp] theorem lastOf_nil (previous : Option Token) : lastOf previous [] = previous := rfl

@[simp] theorem lastOf_cons (previous : Option Token) (t : Token) (ts : List Token) :
    lastOf previous (t :: ts) = lastOf (some t) ts := by
  cases ts <;> simp [lastOf, List.getLast?_cons]

theorem scan_nil (previous : Option Token) (position : Nat) :
    scan previous position [] = .ok [] := by
  rw [scan]

theorem scan_cons (previous : Option Token) (position : Nat) (c : Char) (s : List Char) :
    scan previous position (c :: s) =
      let piece := Lexeme.first (allowsSign previous) c s
      match piece.1.token with
      | .error fault => .error (.at fault position)
      | .ok none => scan previous (position + piece.1.text.length) piece.2
      | .ok (some t) =>
        (scan (some t) (position + piece.1.text.length) piece.2).map (t :: ·) :=
  scan.eq_2 previous position c s

theorem scan_congr {p q : Option Token} (h : allowsSign p = allowsSign q) (position : Nat)
    (s : List Char) : scan p position s = scan q position s := by
  fun_induction scan p position s with
  | case1 position => rw [scan_nil]
  | case2 p position c s piece fault token => simp only [scan_cons, ← h, piece, token]
  | case3 p position c s piece token ih => simp only [scan_cons, ← h, piece, token, ih h]
  | case4 p position c s piece t token => simp only [scan_cons, ← h, piece, token]

theorem scan_shift (previous : Option Token) (position k : Nat) (s : List Char) :
    scan previous (position + k) s = (scan previous position s).mapError (LexError.shift k) := by
  fun_induction scan previous position s with
  | case1 => rw [scan_nil]; rfl
  | case2 p position c s piece fault token => simp only [scan_cons, piece, token]; rfl
  | case3 p position c s piece token ih =>
    simp only [scan_cons, piece, token] at ih ⊢
    rw [Nat.add_right_comm, ih]
  | case4 p position c s piece t token ih =>
    simp only [scan_cons, piece, token] at ih ⊢
    rw [Nat.add_right_comm, ih]
    cases scan (some t) _ _ <;> rfl

theorem scan_append {rest : List Char} (h : Breaks rest) (previous : Option Token) (position : Nat)
    (s : List Char) :
    scan previous position (s ++ rest) = do
      let ts ← scan previous position s
      return ts ++ (← scan (lastOf previous ts) (position + s.length) rest) := by
  fun_induction scan previous position s with
  | case1 p position =>
    cases h : scan p position rest <;> simp [h, bind, Except.bind, pure, Except.pure]
  | case2 p position c s piece fault token =>
    simp only [List.cons_append, scan_cons, Lexeme.first_append h, piece, token]
    rfl
  | case3 p position c s piece token ih =>
    have size := congrArg List.length (Lexeme.text_first (allowsSign p) c s)
    rw [List.length_append] at size
    simp only [List.cons_append, scan_cons, Lexeme.first_append h, piece, token, ih,
      Nat.add_assoc, size]
  | case4 p position c s piece t token ih =>
    have size := congrArg List.length (Lexeme.text_first (allowsSign p) c s)
    rw [List.length_append] at size
    simp only [List.cons_append, scan_cons, Lexeme.first_append h, piece, token, ih,
      Nat.add_assoc, size]
    cases scan (some t) (position + piece.1.text.length) piece.2 with
    | error e => rfl
    | ok ts =>
      simp only [bind, Except.bind, Except.map, lastOf_cons]
      cases scan (lastOf (some t) ts) (position + (c :: s).length) rest <;> rfl

end Token

end Reckon
