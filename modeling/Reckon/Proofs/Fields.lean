import Reckon.Csv.Columns
import Reckon.Csv.Writer
import Reckon.Proofs.Records

namespace Reckon.Csv

/-- The texts of a field: in quotes, or as it is if it needs none. -/
inductive IsField : List Char → List Char → Prop
  | quoted (f : List Char) : IsField ('"' :: double f ++ ['"']) f
  | plain (chars : ∀ c ∈ f, isFieldEnd c = false) (quote : f.head? ≠ some '"') : IsField f f

inductive IsRecord : List Char → List (List Char) → Prop
  | single (field : IsField w f) : IsRecord w [f]
  | cons (field : IsField w f) (more : IsRecord l fs) : IsRecord (w ++ ',' :: l) (f :: fs)

inductive IsTable : List Char → List (List (List Char)) → Prop
  | nil : IsTable [] []
  | cons (record : IsRecord l fs) (more : IsTable s records) :
    IsTable (l ++ '\n' :: s) (fs :: records)

variable {c : Char} {s w f l rest : List Char} {fs : List (List Char)}

theorem quotedField_close (stop : rest.head? ≠ some '"') :
    quotedField ('"' :: rest) = some (plainField rest) := by
  rw [quotedField]
  rintro s rfl
  exact stop rfl

theorem quotedField_cons (h : c ≠ '"') (s : List Char) :
    quotedField (c :: s) = (quotedField s).map fun r => (c :: r.1, r.2) := by
  rw [quotedField] <;> simp [h]

theorem quotedField_double (f : List Char) (stop : ∀ c ∈ rest.head?, isFieldEnd c) :
    quotedField (double f ++ '"' :: rest) = some (f, rest) := by
  induction f with
  | nil =>
    have single : rest.head? ≠ some '"' := fun quote => absurd (stop '"' quote) (by decide)
    have nothing : plainField rest = ([], rest) := @plainField_append [] rest (by simp) stop
    rw [double, List.nil_append, quotedField_close single, nothing]
  | cons c f ih =>
    by_cases quote : c = '"'
    · rw [double, if_pos quote, List.cons_append, List.cons_append, quotedField, ih, quote]
      rfl
    · rw [double, if_neg quote, List.cons_append, quotedField_cons quote, ih]
      rfl

namespace IsField

theorem field (h : IsField w f) (stop : ∀ c ∈ rest.head?, isFieldEnd c) :
    field (w ++ rest) = some (f, rest) := by
  cases h with
  | quoted =>
    simp only [List.cons_append, List.append_assoc, List.nil_append, Csv.field]
    exact quotedField_double f stop
  | plain chars quote =>
    rw [field_eq_plainField, plainField_append chars stop]
    cases w with
    | nil => exact fun quoted => absurd (stop '"' quoted) (by decide)
    | cons c w => exact quote

theorem dropWhile (h : IsField w f) (s : List Char) :
    ∃ c t, (w ++ ',' :: s).dropWhile isPadding = c :: t ∧ isLineEnd c = false := by
  cases h with
  | quoted => exact ⟨'"', _, rfl, rfl⟩
  | plain chars quote =>
    clear quote
    induction w with
    | nil => exact ⟨',', s, rfl, rfl⟩
    | cons c w ih =>
      rw [List.forall_mem_cons] at chars
      by_cases pad : isPadding c
      · rw [List.cons_append, List.dropWhile_cons_of_pos pad]
        exact ih chars.2
      · rw [List.cons_append, List.dropWhile_cons_of_neg pad]
        exact ⟨c, _, rfl, (Bool.or_eq_false_iff.1 chars.1).2⟩

theorem first (h : IsField w f) (unmarked : f.head? ≠ some '\uFEFF') (other : c ≠ '\uFEFF') :
    ∀ d ∈ (w ++ c :: rest).head?, d ≠ '\uFEFF' := by
  intro d mem
  cases h with
  | quoted =>
    cases mem
    decide
  | plain =>
    cases w with
    | nil =>
      cases mem
      exact other
    | cons e w =>
      cases mem
      simpa using unmarked

end IsField

namespace IsRecord

theorem fields (h : IsRecord l fs) (stop : ∀ c ∈ rest.head?, isLineEnd c) :
    fields (l ++ rest) = some (fs, rest) := by
  induction h with
  | single field =>
    refine fields_single (field.field fun c mem => by simp [isFieldEnd, stop c mem]) fun comma => ?_
    exact absurd (stop ',' comma) (by decide)
  | cons field more ih =>
    rw [List.append_assoc, List.cons_append, fields_cons (field.field (by simp [isFieldEnd])), ih]
    rfl

theorem scan (h : IsRecord l fs) (wide : 2 ≤ fs.length) (n : Nat) (rest : List Char) :
    scan n (l ++ '\n' :: rest) =
      (⟨n + 1, fs⟩ :: (Csv.scan (n + 1) rest).1, (Csv.scan (n + 1) rest).2) := by
  have read : Csv.fields (l ++ '\n' :: rest) = some (fs, '\n' :: rest) :=
    h.fields (by simp [isLineEnd])
  cases h with
  | single field => exact absurd wide (by simp)
  | @cons w f l fs field more =>
    obtain ⟨c, t, front, filled⟩ := field.dropWhile (l ++ '\n' :: rest)
    rw [← List.cons_append, ← List.append_assoc] at front
    exact scan_filled n front filled read

end IsRecord

theorem pad_of_length {n : Nat} (h : fs.length = n) : pad n fs = fs := by
  rw [pad, h, Nat.sub_self, List.replicate_zero, List.append_nil]

namespace IsTable

variable {records : List (List (List Char))}

theorem scan (h : IsTable s records) (wide : ∀ r ∈ records, 2 ≤ r.length) (n : Nat) :
    ∃ rs, scan n s = (rs, none) ∧ rs.map (·.fields) = records := by
  induction h generalizing n with
  | nil => exact ⟨[], by rw [Csv.scan]; rfl, rfl⟩
  | @cons l fs s records record more ih =>
    rw [List.forall_mem_cons] at wide
    obtain ⟨rs, scanned, same⟩ := ih wide.2 (n + 1)
    refine ⟨⟨n + 1, fs⟩ :: rs, ?_, by rw [List.map_cons, same]⟩
    rw [record.scan wide.1, scanned]

theorem dropMark (h : IsTable s ((f :: fs) :: records)) (first : f.head? ≠ some '\uFEFF') :
    dropMark s = s := by
  refine dropMark_of_first ?_
  cases h with
  | cons record more =>
    cases record with
    | single field => exact field.first first (by decide)
    | cons field =>
      rw [List.append_assoc]
      exact field.first first (by decide)

/-- A table is read, each field up to its first null character. -/
theorem read {header : List (List Char)} (h : IsTable s (header :: records))
    (wide : 2 ≤ header.length) (square : ∀ r ∈ records, r.length = header.length)
    (first : header.head?.bind List.head? ≠ some '\uFEFF') :
    read s = .ok ⟨header.map cell, records.map (·.map cell)⟩ := by
  have widths : ∀ r ∈ header :: records, 2 ≤ r.length :=
    List.forall_mem_cons.2 ⟨wide, fun r mem => (square r mem).symm ▸ wide⟩
  have mark : Csv.dropMark s = s := by
    cases header with
    | nil => exact absurd wide (by simp)
    | cons f fs => exact h.dropMark first
  obtain ⟨_ | ⟨head, rs⟩, scanned, same⟩ := h.scan widths 0
  · cases same
  rw [List.map_cons, List.cons.injEq] at same
  obtain ⟨rfl, rfl⟩ := same
  have lengths : ∀ r ∈ rs, r.fields.length = head.fields.length :=
    fun r mem => square _ (List.mem_map_of_mem mem)
  rw [read_of_scan (mark.symm ▸ scanned) fun r mem => (lengths r mem).le, List.map_map]
  refine congrArg (fun rows => Except.ok (Sheet.mk _ rows)) (List.map_congr_left fun r mem => ?_)
  rw [pad_of_length (lengths r mem)]
  rfl

end IsTable

/-- A carriage return in a field that is written without quotes. -/
structure IsBare (f : List Char) : Prop where
  mem : '\r' ∈ f
  plain : ∀ c ∈ f, isSpecial c = false

theorem isBare_of_not_mem (h : '\r' ∉ f) : ¬IsBare f := fun bare => h bare.mem

theorem writeField_of_plain (h : ∀ c ∈ f, isSpecial c = false) : writeField f = f := by
  rw [writeField, if_neg]
  simpa using h

theorem chars_of_plain (bare : ¬IsBare f) (plain : ∀ c ∈ f, isSpecial c = false) :
    ∀ c ∈ f, isFieldEnd c = false := by
  intro c mem
  have special := plain c mem
  have return' : c ≠ '\r' := by
    rintro rfl
    exact bare ⟨mem, plain⟩
  simp only [isSpecial, Bool.or_eq_false_iff, decide_eq_false_iff_not] at special
  simp [isFieldEnd, isLineEnd, special, return']

theorem isField_writeField (bare : ¬IsBare f) : IsField (writeField f) f := by
  by_cases plain : ∀ c ∈ f, isSpecial c = false
  · rw [writeField_of_plain plain]
    refine .plain (chars_of_plain bare plain) fun quote => ?_
    exact absurd (plain '"' (List.mem_of_mem_head? quote)) (by decide)
  · rw [writeField, if_pos (by simpa using plain)]
    exact .quoted f

theorem isRecord_writeFields (nonempty : fs ≠ []) (bare : ∀ f ∈ fs, ¬IsBare f) :
    IsRecord (writeFields fs) fs := by
  induction fs with
  | nil => contradiction
  | cons f fs ih =>
    rw [List.forall_mem_cons] at bare
    cases fs with
    | nil => exact .single (isField_writeField bare.1)
    | cons g fs => exact .cons (isField_writeField bare.1) (ih (by simp) bare.2)

theorem isTable_write {records : List (List (List Char))} (nonempty : ∀ r ∈ records, r ≠ [])
    (bare : ∀ r ∈ records, ∀ f ∈ r, ¬IsBare f) : IsTable (write records) records := by
  induction records with
  | nil => exact .nil
  | cons r records ih =>
    rw [List.forall_mem_cons] at nonempty bare
    rw [write, List.flatMap_cons, List.append_assoc, List.singleton_append]
    exact .cons (isRecord_writeFields nonempty.1 bare.1) (ih nonempty.2 bare.2)

theorem column_eq_some {sheet : Sheet} {name : String} {cells : List (RowLabel × String)}
    (h : sheet.column? name = some cells) :
    ∃ i, cells.map (·.2) = sheet.rows.map fun row =>
      String.ofList (row.getD (sheet.leading row + i) []) := by
  obtain ⟨i, -, rfl⟩ := Option.map_eq_some_iff.1 h
  refine ⟨i, ?_⟩
  have rows := congrArg (List.map fun row : List (List Char) =>
    String.ofList (row.getD (sheet.leading row + i) [])) (List.zipIdx_map_fst 0 sheet.rows)
  rw [List.map_map] at rows ⊢
  exact rows

theorem column_whole {sheet : Sheet} {name : String} {cells : List (RowLabel × String)}
    (h : read s = .ok sheet) (found : sheet.column? name = some cells) :
    ∀ p ∈ cells, '\x00' ∉ p.2.toList := by
  obtain ⟨header, rows, -, made⟩ := scan_of_read h
  obtain ⟨i, eq⟩ := column_eq_some found
  intro p mem
  have cell : p.2 ∈ cells.map (·.2) := List.mem_map_of_mem mem
  rw [eq, List.mem_map] at cell
  obtain ⟨row, mem, text⟩ := cell
  rw [made, List.mem_map] at mem
  obtain ⟨r, -, rfl⟩ := mem
  rw [← text, String.toList_ofList, List.getD_eq_getElem?_getD, List.getElem?_map]
  cases (pad (width header rows) r.fields)[sheet.leading _ + i]? with
  | none => simp
  | some f => exact fun null => absurd (List.mem_takeWhile_imp null) (by simp)

end Reckon.Csv
