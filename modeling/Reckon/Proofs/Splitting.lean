import Reckon.Proofs.Spelling

namespace Reckon

open Token

def texts (ls : List Lexeme) : List Char := ls.flatMap Lexeme.text

/-- The lexemes `ls` stand one behind the other before `rest`, the first one behind `previous`, and
denote `ts`. -/
inductive Splits : Option Token → List Lexeme → List Token → List Char → Prop
  | nil : Splits previous [] [] rest
  | skip (h : Reads (allowsSign previous) (texts ls ++ rest) piece none) :
    Splits previous ls ts rest → Splits previous (piece :: ls) ts rest
  | token (h : Reads (allowsSign previous) (texts ls ++ rest) piece (some t)) :
    Splits (some t) ls ts rest → Splits previous (piece :: ls) (t :: ts) rest

theorem texts_cons (piece : Lexeme) (ls : List Lexeme) (rest : List Char) :
    texts (piece :: ls) ++ rest = piece.text ++ (texts ls ++ rest) := by
  rw [texts, List.flatMap_cons, List.append_assoc, texts]

theorem Reads.unique (h : Reads signed rest piece o) (h' : Reads signed rest' piece' o')
    (same : piece.text ++ rest = piece'.text ++ rest') :
    piece = piece' ∧ rest = rest' ∧ o = o' := by
  obtain ⟨c, s, eq, first, token⟩ := h.first
  obtain ⟨c', s', eq', first', token'⟩ := h'.first
  rw [eq, eq'] at same
  cases same
  rw [first] at first'
  cases first'
  rw [token] at token'
  cases token'
  exact ⟨rfl, rfl, rfl⟩

theorem Reads.text_ne_nil (h : Reads signed rest piece o) : piece.text ≠ [] := by
  cases h with
  | literal h => exact h.ne_nil
  | constant h | function h =>
    obtain ⟨c, more, rfl, -⟩ := h.eq_cons
    exact List.cons_ne_nil c more
  | blank | leftParen | rightParen | comma | operator | negative => exact List.cons_ne_nil _ _

theorem Reads.texts_ne_nil (h : Reads signed rest piece o) : texts (piece :: ls) ≠ [] := by
  rw [texts, List.flatMap_cons]
  exact List.append_ne_nil_of_left_ne_nil h.text_ne_nil _

theorem Reads.of_append (h : Reads signed (s ++ rest) piece o) : Reads signed s piece o := by
  have stops {p : Char → Bool} (h : ∀ c ∈ (s ++ rest).head?, p c = false) :
      ∀ c ∈ s.head?, p c = false := by
    cases s with
    | nil => simp
    | cons c s => exact h
  have run {run} (h : IsRun run (s ++ rest)) : IsRun run s := ⟨h.start, h.chars, stops h.stops⟩
  have name {name} (h : IsName name (s ++ rest)) : IsName name s :=
    ⟨h.start, h.chars, stops h.stops⟩
  cases h with
  | blank h => exact .blank h
  | leftParen => exact .leftParen
  | rightParen => exact .rightParen
  | comma => exact .comma
  | operator o h =>
    refine .operator o fun sub sign ahead => h sub sign ?_
    rw [runAhead_iff, startsRun_iff] at ahead ⊢
    obtain ⟨d, more, digit, rfl | rfl⟩ := ahead
    · exact ⟨d, more ++ rest, digit, .inl rfl⟩
    · exact ⟨d, more ++ rest, digit, .inr rfl⟩
  | literal h point => exact .literal (run h) point
  | negative sign h point => exact .negative sign (run h) point
  | constant h listed same => exact .constant (name h) listed same
  | function h f same => exact .function (name h) f same

namespace Splits

theorem scan (h : Splits previous ls ts rest) (position : Nat) :
    Token.scan previous position (texts ls ++ rest) =
      (Token.scan (lastOf previous ts) (position + (texts ls).length) rest).map (ts ++ ·) := by
  induction h generalizing position with
  | @nil previous rest =>
    simp only [texts, List.flatMap_nil, List.nil_append, List.length_nil, Nat.add_zero, lastOf_nil]
    cases Token.scan previous position rest <;> rfl
  | @skip previous ls rest piece ts reads _ ih =>
    rw [texts_cons, scan_skips reads, ih]
    simp [texts, Nat.add_assoc]
  | @token previous ls rest piece t ts reads _ ih =>
    rw [texts_cons, scan_reads reads, ih, lastOf_cons]
    simp only [texts, List.flatMap_cons, List.length_append, Nat.add_assoc]
    cases Token.scan (lastOf (some t) ts) _ rest <;> rfl

theorem unique (h : Splits previous ls ts []) (h' : Splits previous ls' ts' [])
    (same : texts ls = texts ls') : ls = ls' ∧ ts = ts' := by
  generalize hr : ([] : List Char) = rest at h
  induction h generalizing ls' ts' with
  | nil =>
    cases h' with
    | nil => exact ⟨rfl, rfl⟩
    | skip reads _ | token reads _ => exact absurd same.symm reads.texts_ne_nil
  | skip reads _ ih =>
    subst hr
    cases h' with
    | nil => exact absurd same reads.texts_ne_nil
    | skip reads' rest' =>
      obtain ⟨rfl, same, -⟩ := reads.unique reads' (by simpa [texts] using same)
      obtain ⟨rfl, rfl⟩ := ih rest' (by simpa using same) rfl
      exact ⟨rfl, rfl⟩
    | token reads' _ => cases (reads.unique reads' (by simpa [texts] using same)).2.2
  | token reads _ ih =>
    subst hr
    cases h' with
    | nil => exact absurd same reads.texts_ne_nil
    | skip reads' _ => cases (reads.unique reads' (by simpa [texts] using same)).2.2
    | token reads' rest' =>
      obtain ⟨rfl, same, token⟩ := reads.unique reads' (by simpa [texts] using same)
      cases token
      obtain ⟨rfl, rfl⟩ := ih rest' (by simpa using same) rfl
      exact ⟨rfl, rfl⟩

theorem alone (h : Splits previous ls ts rest) : Splits previous ls ts [] := by
  induction h with
  | nil => exact .nil
  | skip reads _ ih => exact .skip (by simpa using reads.of_append) ih
  | token reads _ ih => exact .token (by simpa using reads.of_append) ih

end Splits

theorem exists_splits (previous : Option Token) (s : List Char) :
    ∃ ls ts rest, texts ls ++ rest = s ∧ Splits previous ls ts rest ∧
      (rest = [] ∨ ∃ fault, Faulty (allowsSign (lastOf previous ts)) rest fault) := by
  -- The induction follows the scan, whose positions do not matter here.
  generalize (0 : Nat) = position
  fun_induction scan previous position s with
  | case1 => exact ⟨[], [], [], rfl, .nil, .inl rfl⟩
  | case2 previous position c s piece fault token =>
    rcases reads_or_faulty (allowsSign previous) c s with ⟨o, found, -⟩ | ⟨fault, -, faulty⟩
    · cases token.symm.trans found
    · exact ⟨[], [], c :: s, rfl, .nil, .inr ⟨fault, faulty⟩⟩
  | case3 previous position c s piece token ih =>
    obtain ⟨ls, ts, rest, text, splits, stop⟩ := ih
    rcases reads_or_faulty (allowsSign previous) c s with ⟨o, found, reads⟩ | ⟨fault, found, -⟩
    · cases token.symm.trans found
      refine ⟨piece.1 :: ls, ts, rest, ?_, .skip (text ▸ reads) splits, stop⟩
      rw [texts_cons, text]
      exact Lexeme.text_first ..
    · cases token.symm.trans found
  | case4 previous position c s piece t token ih =>
    obtain ⟨ls, ts, rest, text, splits, stop⟩ := ih
    rcases reads_or_faulty (allowsSign previous) c s with ⟨o, found, reads⟩ | ⟨fault, found, -⟩
    · cases token.symm.trans found
      refine ⟨piece.1 :: ls, t :: ts, rest, ?_, .token (text ▸ reads) splits, ?_⟩
      · rw [texts_cons, text]
        exact Lexeme.text_first ..
      · rwa [lastOf_cons]
    · cases token.symm.trans found

theorem tokenize_of_splits {s : String} (text : texts ls ++ rest = s.toList)
    (h : Splits none ls ts rest) :
    tokenize s = (scan (lastOf none ts) (texts ls).length rest).map (ts ++ ·) := by
  rw [tokenize, ← text, h.scan, Nat.zero_add]

theorem tokenize_eq_ok {s : String} :
    tokenize s = .ok ts ↔ ∃ ls, texts ls = s.toList ∧ Splits none ls ts [] := by
  constructor
  · intro h
    obtain ⟨ls, us, rest, text, splits, rfl | ⟨fault, faulty⟩⟩ := exists_splits none s.toList
    · rw [tokenize_of_splits text splits, scan_nil] at h
      cases h
      rw [List.append_nil] at text
      exact ⟨ls, text, by simpa using splits⟩
    · rw [tokenize_of_splits text splits, scan_faulty faulty] at h
      cases h
  · rintro ⟨ls, text, splits⟩
    rw [← List.append_nil (texts ls)] at text
    rw [tokenize_of_splits text splits, scan_nil, map_ok, List.append_nil]

theorem tokenize_eq_error {s : String} :
    tokenize s = .error e ↔ ∃ ls ts rest fault, texts ls ++ rest = s.toList ∧
      Splits none ls ts rest ∧ Faulty (allowsSign (lastOf none ts)) rest fault ∧
      e = .at fault (texts ls).length := by
  constructor
  · intro h
    obtain ⟨ls, ts, rest, text, splits, rfl | ⟨fault, faulty⟩⟩ := exists_splits none s.toList
    · rw [tokenize_of_splits text splits, scan_nil] at h
      cases h
    · rw [tokenize_of_splits text splits, scan_faulty faulty] at h
      cases h
      exact ⟨ls, ts, rest, fault, text, splits, faulty, rfl⟩
  · rintro ⟨ls, ts, rest, fault, text, splits, faulty, rfl⟩
    rw [tokenize_of_splits text splits, scan_faulty faulty, map_error]

inductive Restyles : Lexeme → Lexeme → Prop
  | refl : Restyles piece piece
  | name (h : name.map Char.toLower = name'.map Char.toLower) :
    Restyles (.identifier name) (.identifier name')
  | blank (h : Text.isBlank c) : Restyles (.blank c') (.blank c)

inductive Restyled : List Lexeme → List Lexeme → Prop
  | nil : Restyled [] []
  | cons (h : Restyles piece piece') : Restyled ls ls' → Restyled (piece :: ls) (piece' :: ls')
  | blank (h : Text.isBlank c) : Restyled ls ls' → Restyled ls (.blank c :: ls')

theorem isRunChar_of_isAlpha {c : Char} (h : c.isAlpha) : Lexeme.isRunChar c = false := by
  have : c ≠ '.' := by
    rintro rfl
    cases h
  simp [Lexeme.isRunChar, Lexeme.not_isDigit_of_isAlpha h, this]

theorem isRunChar_toLower (c : Char) : Lexeme.isRunChar c.toLower = Lexeme.isRunChar c := by
  by_cases upper : c.isUpper
  · have alpha : c.isAlpha := by simp [Char.isAlpha, upper]
    rw [isRunChar_of_isAlpha alpha, isRunChar_of_isAlpha]
    rw [Char.isAlpha_toLower_eq_isAlpha, alpha]
  · rw [Char.toLower_eq_of_not_isUpper upper]

/-- The second text breaks off what is before it, or it starts like the first one but for the case
of a letter. -/
def StartsLike (s s' : List Char) : Prop :=
  Breaks s' ∨ ∃ c ∈ s.head?, ∃ c' ∈ s'.head?, c.toLower = c'.toLower

namespace StartsLike

theorem stops {p : Char → Bool} (h : StartsLike s s') (case : ∀ c, p c.toLower = p c)
    (breaks : Breaks s' → ∀ c ∈ s'.head?, p c = false) (stops : ∀ c ∈ s.head?, p c = false) :
    ∀ c ∈ s'.head?, p c = false := by
  rcases h with h | ⟨c, mem, c', mem', same⟩
  · exact breaks h
  · intro d hd
    cases mem'.symm.trans hd
    rw [← case, ← same, case]
    exact stops c mem

theorem isRun (h : StartsLike rest rest') (run : IsRun digits rest) : IsRun digits rest' :=
  ⟨run.start, run.chars, h.stops isRunChar_toLower Lexeme.isRunChar_of_breaks run.stops⟩

theorem isName (h : StartsLike rest rest') (name : IsName word rest) : IsName word rest' :=
  ⟨name.start, name.chars,
    h.stops isAlphanum_toLower (fun breaks c mem => (breaks c mem).1) name.stops⟩

end StartsLike

theorem Reads.head (h : Reads signed rest piece o) (ahead : ¬RunAhead (piece.text ++ rest)) :
    ∀ c ∈ (piece.text ++ rest).head?, Lexeme.isRunChar c = false := by
  cases h with
  | blank h => exact Lexeme.isRunChar_of_breaks (breaks_of_blank h rest)
  | leftParen | rightParen | comma | negative => rintro c ⟨⟩; rfl
  | operator o => rintro c ⟨⟩; cases o <;> rfl
  | literal h => exact absurd ⟨_, _, rfl, h⟩ ahead
  | constant h | function h =>
    obtain ⟨c, more, rfl, alpha, -⟩ := h.eq_cons
    rintro d ⟨⟩
    exact isRunChar_of_isAlpha alpha

theorem Splits.head (h : Splits previous ls ts []) (ahead : ¬RunAhead (texts ls)) :
    ∀ c ∈ (texts ls).head?, Lexeme.isRunChar c = false := by
  cases h with
  | nil => simp [texts]
  | skip reads _ | token reads _ =>
    rw [List.append_nil] at reads
    exact reads.head ahead

theorem not_runAhead_of_head (h : ∀ c ∈ s.head?, Lexeme.isRunChar c = false) : ¬RunAhead s := by
  rw [runAhead_iff]
  intro start
  cases s with
  | nil => cases start
  | cons c s => simpa [Lexeme.isRunChar_of_startsRun start] using h c rfl

theorem Reads.restyle (h : Reads signed rest piece o) (style : Restyles piece piece')
    (starts : StartsLike rest rest') (ahead : ¬RunAhead rest → ¬RunAhead rest') :
    Reads signed rest' piece' o := by
  cases h with
  | blank h =>
    cases style with
    | refl => exact .blank h
    | blank h => exact .blank h
  | leftParen => cases style; exact .leftParen
  | rightParen => cases style; exact .rightParen
  | comma => cases style; exact .comma
  | operator o h => cases style; exact .operator o fun sub sign => ahead (h sub sign)
  | literal h point => cases style; exact .literal (starts.isRun h) point
  | negative sign h point => cases style; exact .negative sign (starts.isRun h) point
  | constant h listed same =>
    have h := starts.isName h
    cases style with
    | refl => exact .constant h listed same
    | name case => exact .constant (h.congr case) listed (case ▸ same)
  | function h f same =>
    have h := starts.isName h
    cases style with
    | refl => exact .function h f same
    | name case => exact .function (h.congr case) f (case ▸ same)

theorem Restyled.startsLike (style : Restyled ls ls') (h : Splits previous ls ts []) :
    StartsLike (texts ls) (texts ls') := by
  cases style with
  | nil => exact .inl breaks_nil
  | blank white _ => exact .inl (breaks_of_blank white _)
  | @cons piece piece' ls ls' style _ =>
    have some : piece.text ≠ [] := by
      cases h with
      | skip reads _ | token reads _ => exact reads.text_ne_nil
    obtain ⟨c, s, text⟩ := List.exists_cons_of_ne_nil some
    cases style with
    | refl => exact .inr ⟨c, by simp [texts, text], c, by simp [texts, text], rfl⟩
    | @name name name' case =>
      cases name' with
      | nil => simp_all [Lexeme.text]
      | cons c' s' =>
        obtain rfl : name = c :: s := text
        exact .inr ⟨c, rfl, c', rfl, (List.cons.inj case).1⟩
    | blank white => exact .inl (breaks_of_blank white _)

theorem Splits.restyled (h : Splits previous ls ts []) (style : Restyled ls ls') :
    Splits previous ls' ts [] := by
  induction style generalizing previous ts with
  | nil => exact h
  | blank white _ ih => exact .skip (.blank white) (ih h)
  | @cons piece piece' ls ls' style rest ih =>
    have restyle {o} (reads : Reads (allowsSign previous) (texts ls ++ []) piece o) {next ts}
        (h : Splits next ls ts []) : Reads (allowsSign previous) (texts ls' ++ []) piece' o := by
      rw [List.append_nil] at reads ⊢
      have starts := rest.startsLike h
      refine reads.restyle style starts fun ahead => not_runAhead_of_head ?_
      exact starts.stops isRunChar_toLower Lexeme.isRunChar_of_breaks (h.head ahead)
    cases h with
    | skip reads h => exact .skip (restyle reads h) (ih h)
    | token reads h => exact .token (restyle reads h) (ih h)

inductive Denote : Option Token → List Lexeme → List Token → Prop
  | nil : Denote previous [] []
  | cons (h : Reads (allowsSign previous) [] piece (some t)) :
    Denote (some t) ls ts → Denote previous (piece :: ls) (t :: ts)

theorem Reads.before_blank (h : Reads signed [] piece o) {c : Char} (white : Text.isBlank c) :
    Reads signed (c :: s) piece o := by
  have breaks := breaks_of_blank white s
  refine h.restyle .refl (.inl breaks) fun _ ahead => ?_
  rw [runAhead_iff, Lexeme.startsRun_of_breaks breaks] at ahead
  cases ahead

theorem Denote.splits (h : Denote previous ls ts) :
    Splits previous (ls.intersperse (.blank ' ')) ts [] := by
  induction h with
  | nil => exact .nil
  | @cons previous piece t ls ts reads rest ih =>
    cases ls with
    | nil =>
      cases rest
      exact .token reads .nil
    | cons next ls =>
      have white : Text.isBlank ' ' := by decide
      rw [List.intersperse_cons_cons]
      exact .token (reads.before_blank white) (.skip (.blank white) ih)

theorem not_reads_of_faulty (h : Faulty signed s fault) (text : s = piece.text ++ rest) :
    ¬Reads signed rest piece o := by
  intro reads
  obtain ⟨c, cs, eq, first, token⟩ := reads.first
  rw [text, eq] at h
  have fault := h.first
  rw [first] at fault
  cases token.symm.trans fault

/-- A text is tokenized just if it splits into lexemes, and then in one way. Names in another case
and more blanks do not change the tokens, and any lexemes can stand behind each other with blanks
between them. Else the error tells the fault of the first piece that is no lexeme and where it
starts: what is before splits, and no lexeme stands there. -/
theorem tokenize_iff_splits :
    (∀ s ts, tokenize s = .ok ts ↔ ∃ ls, texts ls = s.toList ∧ Splits none ls ts []) ∧
    (∀ ls ls' ts ts', Splits none ls ts [] → Splits none ls' ts' [] → texts ls = texts ls' →
      ls = ls' ∧ ts = ts') ∧
    (∀ ls ls' ts, Splits none ls ts [] → Restyled ls ls' →
      tokenize (String.ofList (texts ls')) = .ok ts) ∧
    (∀ ls ts, Denote none ls ts → Splits none (ls.intersperse (.blank ' ')) ts []) ∧
    (∀ s e, tokenize s = .error e ↔ ∃ ls ts rest fault, texts ls ++ rest = s.toList ∧
      Splits none ls ts rest ∧ Faulty (allowsSign (lastOf none ts)) rest fault ∧
      e = .at fault (texts ls).length) ∧
    ∀ s e, tokenize s = .error e → ∃ fault p ts, e = .at fault p ∧ p < s.length ∧
      tokenize (String.ofList (s.toList.take p)) = .ok ts ∧
      ∀ piece o rest, s.toList.drop p = piece.text ++ rest →
        ¬Reads (allowsSign (lastOf none ts)) rest piece o := by
  refine ⟨fun s ts => tokenize_eq_ok, fun ls ls' ts ts' h h' => h.unique h', ?_,
    fun ls ts h => h.splits, fun s e => tokenize_eq_error, ?_⟩
  · intro ls ls' ts h style
    exact tokenize_eq_ok.2 ⟨ls', (String.toList_ofList ..).symm, h.restyled style⟩
  · intro s e h
    obtain ⟨ls, ts, rest, fault, text, splits, faulty, rfl⟩ := tokenize_eq_error.1 h
    refine ⟨fault, _, ts, rfl, ?_, ?_, ?_⟩
    · obtain ⟨c, cs, rfl⟩ := faulty.eq_cons
      rw [← String.length_toList, ← text, List.length_append, List.length_cons]
      omega
    · rw [← text, List.take_left]
      exact tokenize_eq_ok.2 ⟨ls, (String.toList_ofList ..).symm, splits.alone⟩
    · rw [← text, List.drop_left]
      exact fun piece o rest' eq => not_reads_of_faulty faulty eq

theorem tokenize_capitals_point :
    Splits none [.identifier ['l', 'n']] [.function (.listed .ln)] [] ∧
    Restyled [.identifier ['l', 'n']] [.blank ' ', .identifier ['L', 'N']] ∧
    tokenize (String.ofList (texts [.blank ' ', .identifier ['L', 'N']])) =
      .ok [.function (.listed .ln)] ∧
    tokenize "1 ." = .error (.at .unexpectedCharacter 2) ∧
    ∃ ts, tokenize (String.ofList ("1 .".toList.take 2)) = .ok ts ∧
      ¬Reads (allowsSign (lastOf none ts)) [] (.stray '.') none := by
  obtain ⟨-, -, restyled, -, faults, prefixes⟩ := tokenize_iff_splits
  have white : Text.isBlank ' ' := by decide
  have name : IsName ['l', 'n'] [] := ⟨⟨_, rfl, rfl⟩, List.all_eq_true.1 (by decide), by simp⟩
  have splits : Splits none [.identifier ['l', 'n']] [.function (.listed .ln)] [] :=
    .token (.function name .ln (by decide)) .nil
  have style : Restyled [.identifier ['l', 'n']] [.blank ' ', .identifier ['L', 'N']] :=
    .blank white (.cons (.name (by decide)) .nil)
  have one : IsRun ['1'] [' ', '.'] :=
    ⟨⟨'1', [], rfl, .inl rfl⟩, by simp [Lexeme.isRunChar], by simp [Lexeme.isRunChar]⟩
  have front : Splits none [.literal false ['1'], .blank ' '] [.number _] ['.'] :=
    .token (.literal one (by decide)) (.skip (.blank white) .nil)
  have point : Faulty false ['.'] .unexpectedCharacter := by
    refine .character (by decide) (by decide) (fun o => by cases o <;> decide) rfl ?_
    simp [runAhead_iff, Lexeme.startsRun]
  have error : tokenize "1 ." = .error (.at .unexpectedCharacter 2) :=
    (faults _ _).2 ⟨_, _, _, _, rfl, front, point, rfl⟩
  obtain ⟨fault, p, ts, same, -, before, none⟩ := prefixes _ _ error
  cases same
  exact ⟨splits, style, restyled _ _ _ splits style, error, ts, before, none _ _ _ rfl⟩

end Reckon
