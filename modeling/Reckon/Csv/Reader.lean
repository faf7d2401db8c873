/-!
Reading comma-separated records. A field that starts with a quote runs to its closing quote, a
doubled quote standing for one, and what follows up to the next comma or line end is added to it as
it is. Lines end at a line feed, a carriage return or both. Lines of spaces and tabs only are
skipped, unless they end with carriage returns alone and an indented line follows. A field counts up
to its first null character.
-/

namespace Reckon.Csv

structure Record where
  line : Nat
  fields : List (List Char)
  deriving DecidableEq, Repr

inductive Error
  | noColumns : Error
  | tooWide (expected line found : Nat) : Error
  | openQuote (lines : Nat) : Error
  deriving DecidableEq, Repr

def Error.message : Error → String
  | .noColumns => "No columns to parse from file"
  | .tooWide expected line found =>
    "Error tokenizing data. C error: Expected " ++ toString expected ++ " fields in line " ++
      toString line ++ ", saw " ++ toString found ++ "\n"
  | .openQuote lines =>
    "Error tokenizing data. C error: EOF inside string starting at row " ++ toString lines

def isLineEnd (c : Char) : Bool := c = '\n' || c = '\r'

def isFieldEnd (c : Char) : Bool := c = ',' || isLineEnd c

def plainField (s : List Char) : List Char × List Char :=
  (s.takeWhile (!isFieldEnd ·), s.dropWhile (!isFieldEnd ·))

def quotedField : List Char → Option (List Char × List Char)
  | [] => none
  | '"' :: '"' :: s => (quotedField s).map fun r => ('"' :: r.1, r.2)
  | '"' :: s => some (plainField s)
  | c :: s => (quotedField s).map fun r => (c :: r.1, r.2)

def field : List Char → Option (List Char × List Char)
  | '"' :: s => quotedField s
  | s => some (plainField s)

def afterLine : List Char → List Char
  | '\r' :: '\n' :: s => s
  | '\n' :: s => s
  | '\r' :: s => s
  | s => s

theorem length_plainField (s : List Char) : (plainField s).2.length ≤ s.length :=
  (List.dropWhile_sublist _).length_le

theorem length_quotedField {s : List Char} {r : List Char × List Char}
    (h : quotedField s = some r) : r.2.length < s.length := by
  fun_induction quotedField s generalizing r with
  | case1 => simp at h
  | case2 s ih =>
    obtain ⟨u, hu, rfl⟩ := Option.map_eq_some_iff.1 h
    have := ih hu
    simp
    omega
  | case3 s _ =>
    cases h
    exact Nat.lt_succ_of_le (length_plainField s)
  | case4 c s _ _ ih =>
    obtain ⟨u, hu, rfl⟩ := Option.map_eq_some_iff.1 h
    have := ih hu
    simp
    omega

theorem length_field {s : List Char} {r : List Char × List Char} (h : field s = some r) :
    r.2.length ≤ s.length := by
  unfold field at h
  split at h
  · exact Nat.le_of_lt (Nat.lt_succ_of_lt (length_quotedField h))
  · cases h
    exact length_plainField s

theorem length_afterLine {c : Char} {s : List Char} (h : isLineEnd c = true) :
    (afterLine (c :: s)).length ≤ s.length := by
  unfold afterLine
  split <;> simp_all [isLineEnd]

theorem isFieldEnd_plainField {s : List Char} {c : Char} {rest : List Char}
    (h : (plainField s).2 = c :: rest) : isFieldEnd c = true := by
  have := List.head?_dropWhile_not (!isFieldEnd ·) s
  simp_all [plainField]

theorem isFieldEnd_quotedField {s : List Char} {r : List Char × List Char} {c : Char}
    {rest : List Char} (h : quotedField s = some r) (hr : r.2 = c :: rest) :
    isFieldEnd c = true := by
  fun_induction quotedField s generalizing r with
  | case1 => simp at h
  | case2 s ih | case4 _ s _ _ ih =>
    obtain ⟨u, hu, rfl⟩ := Option.map_eq_some_iff.1 h
    exact ih hu hr
  | case3 s _ =>
    cases h
    exact isFieldEnd_plainField hr

theorem isFieldEnd_field {s : List Char} {r : List Char × List Char} {c : Char}
    {rest : List Char} (h : field s = some r) (hr : r.2 = c :: rest) : isFieldEnd c = true := by
  unfold field at h
  split at h
  · exact isFieldEnd_quotedField h hr
  · cases h
    exact isFieldEnd_plainField hr

def fields (s : List Char) : Option (List (List Char) × List Char) :=
  match _h : field s with
  | none => none
  | some (f, ',' :: rest) => (fields rest).map fun r => (f :: r.1, r.2)
  | some (f, rest) => some ([f], rest)
termination_by s.length
decreasing_by
  have := length_field _h
  simp at this
  omega

theorem length_fields {s : List Char} {r : List (List Char) × List Char} (h : fields s = some r)
    (hs : s ≠ []) : (afterLine r.2).length < s.length := by
  fun_induction fields s generalizing r with
  | case1 => simp at h
  | case2 s f rest hf ih =>
    obtain ⟨u, hu, rfl⟩ := Option.map_eq_some_iff.1 h
    have shorter := length_field hf
    simp at shorter
    by_cases hrest : rest = []
    · subst hrest
      have : u.2 = [] := by
        simp [fields, field, plainField] at hu
        exact hu ▸ rfl
      simp [this, afterLine]
      omega
    · have := ih hu hrest
      simp
      omega
  | case3 s f rest hcomma hf =>
    cases h
    have shorter := length_field hf
    cases rest with
    | nil => simpa [afterLine] using List.length_pos_iff.2 hs
    | cons c rest =>
      have : isLineEnd c = true := by
        have notComma : c ≠ ',' := by rintro rfl; exact hcomma rest rfl
        simpa [isFieldEnd, notComma] using isFieldEnd_field hf rfl
      have := length_afterLine (s := rest) this
      simp at shorter ⊢
      omega

def isPadding (c : Char) : Bool := c = ' ' || c = '\t'

/-- How many lines of padding, each ended by a carriage return alone, stand before an indented line
that is no such line; none if another line follows them. -/
def beforeIndented (s : List Char) : Option Nat :=
  match _h : s.dropWhile isPadding with
  | [] => none
  | '\n' :: _ => none
  | '\r' :: '\n' :: _ => none
  | '\r' :: rest => (beforeIndented rest).map (· + 1)
  | c :: rest => if s = c :: rest then none else some 0
termination_by s.length
decreasing_by
  have := (List.dropWhile_sublist isPadding (l := s)).length_le
  rw [_h] at this
  simp at this
  omega

/-- The records of `s`, which follows so many lines, and the lines before a quote left open. Lines
of padding before an indented line are read again as records of one field, and are counted again. -/
def scan (lines : Nat) (s : List Char) : List Record × Option Nat :=
  match _h : s.dropWhile isPadding with
  | [] => ([], none)
  | c :: rest =>
    if isLineEnd c then
      match beforeIndented s with
      | none => scan (lines + 1) (afterLine (c :: rest))
      | some n =>
        let more := scan (lines + n + 1) (afterLine (c :: rest))
        (⟨lines + n + 1, [s.takeWhile isPadding]⟩ :: more.1, more.2)
    else match _hf : fields s with
      | none => ([], some lines)
      | some r =>
        let more := scan (lines + 1) (afterLine r.2)
        (⟨lines + 1, r.1⟩ :: more.1, more.2)
termination_by s.length
decreasing_by
  any_goals
    have shorter := (List.dropWhile_sublist isPadding (l := s)).length_le
    have := length_afterLine (s := rest) ‹_›
    simp [_h] at shorter
    omega
  exact length_fields _hf (by rintro rfl; simp at _h)

def dropMark : List Char → List Char
  | '\uFEFF' :: s => s
  | s => s

structure Sheet where
  header : List (List Char)
  rows : List (List (List Char))
  deriving DecidableEq, Repr

def width (header : Record) (rows : List Record) : Nat :=
  max header.fields.length ((rows.head?.map (·.fields.length)).getD 0)

def cell (field : List Char) : List Char := field.takeWhile (· ≠ '\x00')

def pad (n : Nat) (fields : List (List Char)) : List (List Char) :=
  fields ++ List.replicate (n - fields.length) []

/-- The table that a text holds. The first row that is too wide is reported before an open quote. -/
def read (s : List Char) : Except Error Sheet :=
  match scan 0 (dropMark s) with
  | ([], none) => .error .noColumns
  | ([], some lines) => .error (.openQuote lines)
  | (header :: rows, unclosed) =>
    let n := width header rows
    match rows.find? (n < ·.fields.length), unclosed with
    | some r, _ => .error (.tooWide n r.line r.fields.length)
    | none, some lines => .error (.openQuote lines)
    | none, none => .ok ⟨header.fields.map cell, rows.map fun r => (pad n r.fields).map cell⟩

end Reckon.Csv
