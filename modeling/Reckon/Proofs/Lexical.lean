import Reckon.Proofs.Scanning

namespace Reckon

/-- A run of digits and points, as long as the text goes on with them. -/
structure IsRun (run rest : List Char) : Prop where
  start : ∃ d more, d.isDigit ∧ (run = d :: more ∨ run = '.' :: d :: more)
  chars : ∀ c ∈ run, Lexeme.isRunChar c
  stops : ∀ c ∈ rest.head?, Lexeme.isRunChar c = false

structure IsName (name rest : List Char) : Prop where
  start : ∃ c ∈ name.head?, c.isAlpha
  chars : ∀ c ∈ name, c.isAlphanum
  stops : ∀ c ∈ rest.head?, c.isAlphanum = false

def RunAhead (s : List Char) : Prop := ∃ run rest, s = run ++ rest ∧ IsRun run rest

/-- A lexeme stands before `rest`, and denotes a token or, if it is blank, none. `signed` tells
whether a sign may stand here: just there a minus sign before a run belongs to the run. -/
inductive Reads (signed : Bool) (rest : List Char) : Lexeme → Option Token → Prop
  | blank (h : Text.isBlank c) : Reads signed rest (.blank c) none
  | leftParen : Reads signed rest .leftParen (some .leftParen)
  | rightParen : Reads signed rest .rightParen (some .rightParen)
  | comma : Reads signed rest .comma (some .comma)
  | operator (o : Operator) (h : o = .sub → signed → ¬RunAhead rest) :
    Reads signed rest (.operator o) (some (.operator (.listed o)))
  | literal (h : IsRun run rest) (point : run.count '.' ≤ 1) :
    Reads signed rest (.literal false run) (some (.number ((Decimal.ofRun run).toFloat false)))
  | negative (sign : signed) (h : IsRun run rest) (point : run.count '.' ≤ 1) :
    Reads signed rest (.literal true run) (some (.number ((Decimal.ofRun run).toFloat true)))
  | constant (h : IsName name rest) (listed : (n, v) ∈ constants)
    (same : name.map Char.toLower = n.toList) :
    Reads signed rest (.identifier name) (some (.number v))
  | function (h : IsName name rest) (f : Func) (same : name.map Char.toLower = f.text.toList) :
    Reads signed rest (.identifier name) (some (.function (.listed f)))

inductive Faulty (signed : Bool) : List Char → LexFault → Prop
  | number (h : IsRun run rest) (points : 1 < run.count '.') :
    Faulty signed (run ++ rest) .malformedNumber
  | negative (sign : signed) (h : IsRun run rest) (points : 1 < run.count '.') :
    Faulty signed ('-' :: run ++ rest) .malformedNumber
  | name (h : IsName name rest) (constant : ∀ n v, (n, v) ∈ constants →
    name.map Char.toLower ≠ n.toList) (function : ∀ f : Func,
    name.map Char.toLower ≠ f.text.toList) : Faulty signed (name ++ rest) .unknownIdentifier
  | character (blank : Text.isBlank c = false) (mark : c ∉ ['(', ')', ','])
    (operator : ∀ o : Operator, o.symbol ≠ c) (letter : c.isAlpha = false)
    (run : ¬RunAhead (c :: s)) : Faulty signed (c :: s) .unexpectedCharacter

theorem startsRun_iff {s : List Char} :
    Lexeme.startsRun s ↔ ∃ d more, d.isDigit ∧ (s = d :: more ∨ s = '.' :: d :: more) := by
  constructor
  · intro h
    match s with
    | [c] => exact ⟨c, [], h, .inl rfl⟩
    | c :: d :: s =>
      simp only [Lexeme.startsRun, Bool.or_eq_true, Bool.and_eq_true, decide_eq_true_eq] at h
      rcases h with digit | ⟨rfl, digit⟩
      · exact ⟨c, d :: s, digit, .inl rfl⟩
      · exact ⟨d, s, digit, .inr rfl⟩
  · rintro ⟨d, more, digit, rfl | rfl⟩
    · cases more <;> simp [Lexeme.startsRun, digit]
    · simp [Lexeme.startsRun, digit]

theorem head?_dropWhile (p : Char → Bool) (s : List Char) :
    ∀ c ∈ (s.dropWhile p).head?, p c = false := by
  intro c mem
  have := List.head?_dropWhile_not p s
  rw [Option.mem_def.1 mem] at this
  simpa using this

theorem isRunChar_of_isDigit {c : Char} (h : c.isDigit) : Lexeme.isRunChar c := by
  simp [Lexeme.isRunChar, h]

namespace IsRun

theorem startsRun (h : IsRun run rest) : Lexeme.startsRun (run ++ rest) := by
  obtain ⟨d, more, digit, eq⟩ := h.start
  refine startsRun_iff.2 ⟨d, more ++ rest, digit, ?_⟩
  rcases eq with rfl | rfl
  · exact .inl rfl
  · exact .inr rfl

theorem of_startsRun {s : List Char} (h : Lexeme.startsRun s) :
    IsRun (s.takeWhile Lexeme.isRunChar) (s.dropWhile Lexeme.isRunChar) := by
  obtain ⟨d, more, digit, eq⟩ := startsRun_iff.1 h
  refine ⟨⟨d, more.takeWhile Lexeme.isRunChar, digit, ?_⟩, fun c => List.mem_takeWhile_imp, ?_⟩
  · have first := isRunChar_of_isDigit digit
    have point : Lexeme.isRunChar '.' := rfl
    rcases eq with rfl | rfl
    · simp [first]
    · simp [first, point]
  · exact head?_dropWhile _ s

theorem ne_nil (h : IsRun run rest) : run ≠ [] := by
  obtain ⟨d, more, -, rfl | rfl⟩ := h.start <;> simp

theorem literalOf (h : IsRun run rest) (negative : Bool) :
    Lexeme.literalOf negative (run ++ rest) = (.literal negative run, rest) := by
  have := Lexeme.takeWhile_append Lexeme.isRunChar h.stops run
  simp [Lexeme.literalOf, this, List.takeWhile_eq_self_iff.2 h.chars,
    List.dropWhile_eq_nil_iff.2 h.chars]

end IsRun

theorem runAhead_iff {s : List Char} : RunAhead s ↔ Lexeme.startsRun s := by
  constructor
  · rintro ⟨run, rest, rfl, h⟩
    exact h.startsRun
  · exact fun h => ⟨_, _, List.takeWhile_append_dropWhile.symm, .of_startsRun h⟩

theorem isAlphanum_toLower (c : Char) : c.toLower.isAlphanum = c.isAlphanum := by
  by_cases upper : c.isUpper
  · have alpha : c.isAlpha := by simp [Char.isAlpha, upper]
    simp [Char.isAlphanum, Char.isAlpha_toLower_eq_isAlpha, alpha]
  · rw [Char.toLower_eq_of_not_isUpper upper]

namespace IsName

theorem ofAlpha {c : Char} (alpha : c.isAlpha) (s : List Char) :
    IsName (c :: s.takeWhile Char.isAlphanum) (s.dropWhile Char.isAlphanum) := by
  refine ⟨⟨c, rfl, alpha⟩, ?_, head?_dropWhile _ s⟩
  rw [List.forall_mem_cons]
  exact ⟨by simp [Char.isAlphanum, alpha], fun d => List.mem_takeWhile_imp⟩

theorem eq_cons (h : IsName name rest) :
    ∃ c more, name = c :: more ∧ c.isAlpha ∧ ∀ d ∈ more, d.isAlphanum := by
  obtain ⟨⟨c, first, alpha⟩, chars, -⟩ := h
  obtain ⟨more, rfl⟩ := List.head?_eq_some_iff.1 first
  exact ⟨c, more, rfl, alpha, fun d mem => chars d (List.mem_cons_of_mem c mem)⟩

theorem map_toLower : IsName (name.map Char.toLower) rest ↔ IsName name rest := by
  have start : (∃ c ∈ (name.map Char.toLower).head?, c.isAlpha) ↔ ∃ c ∈ name.head?, c.isAlpha := by
    cases name <;> simp [Char.isAlpha_toLower_eq_isAlpha]
  have chars : (∀ c ∈ name.map Char.toLower, c.isAlphanum) ↔ ∀ c ∈ name, c.isAlphanum := by
    simp [isAlphanum_toLower]
  exact ⟨fun h => ⟨start.1 h.start, chars.1 h.chars, h.stops⟩,
    fun h => ⟨start.2 h.start, chars.2 h.chars, h.stops⟩⟩

theorem congr (h : IsName name rest) (same : name.map Char.toLower = name'.map Char.toLower) :
    IsName name' rest :=
  map_toLower.1 (same ▸ map_toLower.2 h)

end IsName

theorem ofChar?_eq_none {c : Char} : Operator.ofChar? c = none ↔ ∀ o : Operator, o.symbol ≠ c := by
  rw [Operator.ofChar?, List.find?_eq_none]
  simp [Operator.mem_all]

theorem symbol_eq_of_ofChar? {c : Char} (h : Operator.ofChar? c = some o) : o.symbol = c := by
  simpa using List.find?_some h

namespace Lexeme

theorem toNat_word {c : Char} (h : c.isAlphanum ∨ c = '.') : 46 ≤ c.toNat ∧ c.toNat ≤ 122 := by
  rcases h with h | rfl
  · simp [Char.isAlphanum, Char.isAlpha, Char.isUpper, Char.isLower, Char.isDigit,
      UInt32.le_iff_toNat_le] at h
    omega
  · decide

theorem not_special {c : Char} (h : c.isAlphanum ∨ c = '.') :
    Text.isBlank c = false ∧ c ≠ '(' ∧ c ≠ ')' ∧ c ≠ ',' ∧ c ≠ '-' ∧ Operator.ofChar? c = none := by
  have bounds := toNat_word h
  have symbol (o : Operator) : ¬(o.symbol.isAlphanum ∨ o.symbol = '.') := by cases o <;> decide
  refine ⟨?_, ?_, ?_, ?_, ?_, ?_⟩
  · simp [Text.isBlank, Text.blankRanges]
    omega
  · rintro rfl; revert h; decide
  · rintro rfl; revert h; decide
  · rintro rfl; revert h; decide
  · rintro rfl; revert h; decide
  · rw [ofChar?_eq_none]
    rintro o rfl
    exact symbol o h

theorem isRunChar_of_startsRun {c : Char} {s : List Char} (h : startsRun (c :: s)) :
    isRunChar c := by
  cases s <;> grind [startsRun, isRunChar]

theorem first_run (h : IsRun run rest) {c : Char} {s : List Char} (eq : run ++ rest = c :: s)
    (signed : Bool) : first signed c s = (.literal false run, rest) := by
  have start : startsRun (c :: s) := eq ▸ h.startsRun
  have word : c.isAlphanum ∨ c = '.' := by
    have := isRunChar_of_startsRun start
    grind [isRunChar, Char.isAlphanum]
  obtain ⟨blank, left, right, comma, minus, operator⟩ := not_special word
  simp [first, blank, left, right, comma, minus, operator, start]
  rw [← eq]
  exact h.literalOf false

theorem first_signedRun (h : IsRun run rest) :
    first true '-' (run ++ rest) = (.literal true run, rest) := by
  have blank : Text.isBlank '-' = false := by decide
  simp [first, blank, h.startsRun]
  exact h.literalOf true

theorem not_isDigit_of_isAlpha {c : Char} (h : c.isAlpha) : c.isDigit = false := by
  simp [Char.isAlpha, Char.isUpper, Char.isLower, UInt32.le_iff_toNat_le] at h
  simp [Char.isDigit, UInt32.le_iff_toNat_le]
  omega

theorem first_name (h : IsName name rest) {c : Char} {s : List Char} (eq : name ++ rest = c :: s)
    (signed : Bool) : first signed c s = (.identifier name, rest) := by
  have stops := h.stops
  obtain ⟨d, more, rfl, alpha, chars⟩ := h.eq_cons
  cases eq
  have word : c.isAlphanum ∨ c = '.' := by simp [Char.isAlphanum, alpha]
  obtain ⟨blank, left, right, comma, minus, operator⟩ := not_special word
  have start : startsRun (c :: (more ++ rest)) = false := by
    rw [Bool.eq_false_iff]
    intro start
    have := isRunChar_of_startsRun start
    simp [isRunChar, not_isDigit_of_isAlpha alpha] at this
    subst this
    cases alpha
  have := takeWhile_append Char.isAlphanum stops more
  simp [first, blank, left, right, comma, minus, operator, start, this, alpha,
    List.takeWhile_eq_self_iff.2 chars, List.dropWhile_eq_nil_iff.2 chars]

theorem first_operator {signed : Bool} (o : Operator) {s : List Char}
    (sign : o = .sub → signed → startsRun s = false) :
    first signed o.symbol s = (.operator o, s) := by
  have blank : Text.isBlank o.symbol = false := by cases o <;> decide
  have mark : o.symbol ≠ '(' ∧ o.symbol ≠ ')' ∧ o.symbol ≠ ',' := by cases o <;> decide
  have minus : (o.symbol = '-' && signed && startsRun s) = false := by
    cases o <;> cases signed <;> simp_all [Operator.symbol]
  simp [first, blank, mark, minus]

theorem nameToken_constant (listed : (n, v) ∈ constants) (h : name.map Char.toLower = n.toList) :
    nameToken name = .ok (.number v) := by
  simp only [constants, List.mem_singleton] at listed
  cases listed
  simp [nameToken, h, constants]

theorem nameToken_function (f : Func) (h : name.map Char.toLower = f.text.toList) :
    nameToken name = .ok (.function (.listed f)) := by
  have other : constants.lookup f.text = none := by cases f <;> decide
  simp [nameToken, h, other]

theorem nameToken_cases (name : List Char) :
    (∃ n v, (n, v) ∈ constants ∧ name.map Char.toLower = n.toList ∧
      nameToken name = .ok (.number v)) ∨
    (∃ f : Func, name.map Char.toLower = f.text.toList ∧
      nameToken name = .ok (.function (.listed f))) ∨
    (∀ n v, (n, v) ∈ constants → name.map Char.toLower ≠ n.toList) ∧
      (∀ f : Func, name.map Char.toLower ≠ f.text.toList) ∧
      nameToken name = .error .unknownIdentifier := by
  by_cases constant : ∃ n v, (n, v) ∈ constants ∧ name.map Char.toLower = n.toList
  · obtain ⟨n, v, listed, h⟩ := constant
    exact .inl ⟨n, v, listed, h, nameToken_constant listed h⟩
  by_cases function : ∃ f : Func, name.map Char.toLower = f.text.toList
  · obtain ⟨f, h⟩ := function
    exact .inr (.inl ⟨f, h, nameToken_function f h⟩)
  · push Not at constant function
    refine .inr (.inr ⟨constant, function, ?_⟩)
    have noValue : constants.lookup (String.ofList (name.map Char.toLower)) = none := by
      rw [List.lookup_eq_none_iff]
      intro entry mem
      have other := constant entry.1 entry.2 mem
      rw [bne_iff_ne]
      intro eq
      rw [← eq, String.toList_ofList] at other
      exact other rfl
    have noFunction : Func.ofText? (String.ofList (name.map Char.toLower)) = none := by
      rw [Func.ofText?, List.find?_eq_none]
      intro f _ eq
      have other := function f
      rw [of_decide_eq_true eq, String.toList_ofList] at other
      exact other rfl
    simp [nameToken, noValue, noFunction]

end Lexeme

open Lexeme

theorem Reads.first (h : Reads signed rest piece o) :
    ∃ c s, piece.text ++ rest = c :: s ∧ Lexeme.first signed c s = (piece, rest) ∧
      piece.token = .ok o := by
  cases h with
  | @blank c h => exact ⟨c, rest, rfl, by simp [Lexeme.first, h], rfl⟩
  | leftParen => exact ⟨_, _, rfl, rfl, rfl⟩
  | rightParen => exact ⟨_, _, rfl, rfl, rfl⟩
  | comma => exact ⟨_, _, rfl, rfl, rfl⟩
  | operator o h =>
    refine ⟨_, _, rfl, first_operator o fun sub sign => ?_, rfl⟩
    simpa [runAhead_iff] using h sub sign
  | @literal run h point =>
    have filled : run ++ rest ≠ [] := List.append_ne_nil_of_left_ne_nil h.ne_nil rest
    obtain ⟨c, s, eq⟩ := List.exists_cons_of_ne_nil filled
    exact ⟨c, s, eq, first_run h eq signed, by simp [Lexeme.token, point]⟩
  | @negative run sign h point =>
    cases sign
    exact ⟨_, _, rfl, first_signedRun h, by simp [Lexeme.token, point]⟩
  | @constant name n v h listed same =>
    obtain ⟨c, more, rfl, -⟩ := h.eq_cons
    refine ⟨c, more ++ rest, rfl, first_name h rfl signed, ?_⟩
    rw [Lexeme.token, nameToken_constant listed same]
    rfl
  | @function name h f same =>
    obtain ⟨c, more, rfl, -⟩ := h.eq_cons
    refine ⟨c, more ++ rest, rfl, first_name h rfl signed, ?_⟩
    rw [Lexeme.token, nameToken_function f same]
    rfl

theorem Faulty.eq_cons {s : List Char} (h : Faulty signed s fault) : ∃ c cs, s = c :: cs := by
  cases h with
  | @number run rest h => exact List.exists_cons_of_ne_nil (by simp [h.ne_nil])
  | negative => exact ⟨_, _, rfl⟩
  | name h =>
    obtain ⟨c, more, rfl, -⟩ := h.eq_cons
    exact ⟨_, _, rfl⟩
  | character => exact ⟨_, _, rfl⟩

theorem Faulty.first (h : Faulty signed (c :: s) fault) :
    (Lexeme.first signed c s).1.token = .error fault := by
  generalize eq : c :: s = text at h
  cases h with
  | number h points => simp [first_run h eq.symm, Lexeme.token, points]
  | negative sign h points =>
    cases sign
    cases eq
    simp [first_signedRun h, Lexeme.token, points]
  | @name name rest h constant function =>
    rw [first_name h eq.symm, Lexeme.token]
    rcases nameToken_cases name with ⟨n, v, listed, same, -⟩ | ⟨f, same, -⟩ | ⟨-, -, error⟩
    · exact absurd same (constant n v listed)
    · exact absurd same (function f)
    · rw [error]
      rfl
  | character blank mark operator letter run =>
    cases eq
    have noOperator := ofChar?_eq_none.2 operator
    have minus : c ≠ '-' := (operator .sub).symm
    rw [runAhead_iff, Bool.not_eq_true] at run
    simp only [List.mem_cons, List.not_mem_nil, or_false, not_or] at mark
    simp [Lexeme.first, blank, mark, minus, noOperator, run, letter, Lexeme.token]

theorem reads_or_faulty_run {signed negative : Bool} {s : List Char} (sign : negative → signed)
    (start : startsRun s) :
    (∃ o, (literalOf negative s).1.token = .ok o ∧
      Reads signed (literalOf negative s).2 (literalOf negative s).1 o) ∨
    ∃ fault, (literalOf negative s).1.token = .error fault ∧
      Faulty signed (if negative then '-' :: s else s) fault := by
  have run := IsRun.of_startsRun start
  have text := @List.takeWhile_append_dropWhile _ isRunChar s
  simp only [literalOf, Lexeme.token]
  generalize s.takeWhile isRunChar = digits at *
  generalize s.dropWhile isRunChar = rest at *
  subst text
  by_cases point : digits.count '.' ≤ 1
  · rw [if_pos point]
    cases negative with
    | false => exact .inl ⟨_, rfl, .literal run point⟩
    | true => exact .inl ⟨_, rfl, .negative (sign rfl) run point⟩
  · rw [if_neg point]
    rw [Nat.not_le] at point
    cases negative with
    | false => exact .inr ⟨_, rfl, .number run point⟩
    | true => exact .inr ⟨_, rfl, .negative (sign rfl) run point⟩

theorem reads_or_faulty_name {signed : Bool} {c : Char} {s : List Char} (alpha : c.isAlpha) :
    (∃ o, (identifier (c :: s.takeWhile Char.isAlphanum)).token = .ok o ∧
      Reads signed (s.dropWhile Char.isAlphanum)
        (.identifier (c :: s.takeWhile Char.isAlphanum)) o) ∨
    ∃ fault, (identifier (c :: s.takeWhile Char.isAlphanum)).token = .error fault ∧
      Faulty signed (c :: s) fault := by
  have name := IsName.ofAlpha alpha s
  have text := @List.takeWhile_append_dropWhile _ Char.isAlphanum s
  generalize s.takeWhile Char.isAlphanum = more at *
  generalize s.dropWhile Char.isAlphanum = rest at *
  subst text
  simp only [Lexeme.token]
  rcases nameToken_cases (c :: more) with
    ⟨n, v, listed, same, token⟩ | ⟨f, same, token⟩ | ⟨constant, function, token⟩
  · exact .inl ⟨_, by rw [token]; rfl, .constant name listed same⟩
  · exact .inl ⟨_, by rw [token]; rfl, .function name f same⟩
  · exact .inr ⟨_, by rw [token]; rfl, .name name constant function⟩

/-- What is found first reads, or tells what is wrong. -/
theorem reads_or_faulty (signed : Bool) (c : Char) (s : List Char) :
    (∃ o, (first signed c s).1.token = .ok o ∧
      Reads signed (first signed c s).2 (first signed c s).1 o) ∨
    ∃ fault, (first signed c s).1.token = .error fault ∧ Faulty signed (c :: s) fault := by
  fun_cases Lexeme.first signed c s with
  | case1 blank => exact .inl ⟨_, rfl, .blank blank⟩
  | case2 => exact .inl ⟨_, rfl, .leftParen⟩
  | case3 => exact .inl ⟨_, rfl, .rightParen⟩
  | case4 => exact .inl ⟨_, rfl, .comma⟩
  | case5 _ _ _ _ minus =>
    simp only [Bool.and_eq_true, decide_eq_true_eq] at minus
    obtain ⟨⟨rfl, sign⟩, start⟩ := minus
    exact reads_or_faulty_run (fun _ => sign) start
  | case6 _ _ _ _ minus o found =>
    refine .inl ⟨_, rfl, .operator o fun sub sign => ?_⟩
    have symbol := symbol_eq_of_ofChar? found
    subst sub symbol
    rw [runAhead_iff]
    simpa [sign, Operator.symbol] using minus
  | case7 _ _ _ _ _ _ start => exact reads_or_faulty_run (by simp) start
  | case8 _ _ _ _ _ _ _ alpha => exact reads_or_faulty_name alpha
  | case9 blank left right comma _ none start alpha =>
    rw [Bool.not_eq_true] at blank alpha
    refine .inr ⟨_, rfl, .character blank ?_ (ofChar?_eq_none.1 none) alpha ?_⟩
    · simp [left, right, comma]
    · rwa [runAhead_iff]

namespace Token

theorem scan_reads (h : Reads (allowsSign previous) rest piece (some t)) (position : Nat) :
    scan previous position (piece.text ++ rest) =
      (scan (some t) (position + piece.text.length) rest).map (t :: ·) := by
  obtain ⟨c, s, eq, first, token⟩ := h.first
  rw [eq, scan_cons]
  simp only [first, token]

theorem scan_skips (h : Reads (allowsSign previous) rest piece none) (position : Nat) :
    scan previous position (piece.text ++ rest) =
      scan previous (position + piece.text.length) rest := by
  obtain ⟨c, s, eq, first, token⟩ := h.first
  rw [eq, scan_cons]
  simp only [first, token]

theorem scan_faulty (h : Faulty (allowsSign previous) s fault) (position : Nat) :
    scan previous position s = .error (.at fault position) := by
  obtain ⟨c, cs, rfl⟩ := h.eq_cons
  rw [scan_cons]
  simp only [h.first]

end Token

end Reckon
