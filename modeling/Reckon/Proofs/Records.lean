import Reckon.Csv.Reader
import Reckon.Proofs.Scanning

namespace Reckon.Csv

variable {c : Char} {s l f rest : List Char} {r : List (List Char) × List Char}

theorem plainField_append (inside : ∀ c ∈ l, isFieldEnd c = false)
    (stop : ∀ c ∈ rest.head?, isFieldEnd c) : plainField (l ++ rest) = (l, rest) := by
  have inside : ∀ c ∈ l, (!isFieldEnd c) = true := by simpa using inside
  have outside : ∀ c ∈ rest.head?, (!isFieldEnd c) = false := by simpa using stop
  obtain ⟨front, back⟩ := Lexeme.takeWhile_append (!isFieldEnd ·) outside l
  rw [List.takeWhile_eq_self_iff.2 inside] at front
  rw [List.dropWhile_eq_nil_iff.2 inside, List.nil_append] at back
  exact Prod.ext front back

theorem field_eq_plainField (h : s.head? ≠ some '"') : field s = some (plainField s) := by
  rw [field.eq_def]
  split
  · exact absurd rfl h
  · rfl

theorem fields_single (h : field s = some (f, rest)) (last : rest.head? ≠ some ',') :
    fields s = some ([f], rest) := by
  rw [fields]
  split
  · rename_i none
    rw [none] at h
    cases h
  · rename_i more
    rw [more] at h
    cases h
    exact absurd rfl last
  · rename_i single
    rw [single] at h
    cases h
    rfl

theorem fields_cons (h : field s = some (f, ',' :: rest)) :
    fields s = (fields rest).map fun r => (f :: r.1, r.2) := by
  rw [fields]
  split
  · rename_i none
    rw [none] at h
    cases h
  · rename_i more
    rw [more] at h
    cases h
    rfl
  · rename_i last single
    rw [single] at h
    cases h
    exact absurd rfl (last rest)

theorem scan_filled (n : Nat) (front : s.dropWhile isPadding = c :: rest)
    (filled : isLineEnd c = false) (h : fields s = some r) :
    scan n s = (⟨n + 1, r.1⟩ :: (scan (n + 1) (afterLine r.2)).1,
      (scan (n + 1) (afterLine r.2)).2) := by
  rw [scan]
  split
  · rename_i none
    rw [front] at none
    cases none
  · rename_i some
    rw [front] at some
    cases some
    rw [if_neg (by simp [filled])]
    split
    · rename_i none
      rw [none] at h
      cases h
    · rename_i some
      rw [some] at h
      cases h
      rfl

structure IsPlain (l : List Char) : Prop where
  nonempty : l ≠ []
  first : ∀ c ∈ l.head?, c ∉ [' ', '\t', '"', '\uFEFF']
  chars : ∀ c ∈ l, isFieldEnd c = false
  whole : '\x00' ∉ l

namespace IsPlain

theorem field (h : IsPlain l) (stop : ∀ c ∈ rest.head?, c = '\n') :
    field (l ++ rest) = some (l, rest) := by
  have plain : plainField (l ++ rest) = (l, rest) :=
    plainField_append h.chars fun c mem => by rw [stop c mem]; rfl
  obtain ⟨c, l, rfl⟩ := List.exists_cons_of_ne_nil h.nonempty
  rw [field_eq_plainField, plain]
  intro quoted
  exact absurd (h.first c rfl) (by simp_all)

theorem scan (h : IsPlain l) (n : Nat) (rest : List Char) (stop : ∀ c ∈ rest.head?, c = '\n') :
    scan n (l ++ rest) = (⟨n + 1, [l]⟩ :: (Csv.scan (n + 1) (afterLine rest)).1,
      (Csv.scan (n + 1) (afterLine rest)).2) := by
  have single : fields (l ++ rest) = some ([l], rest) := by
    refine fields_single (h.field stop) fun comma => ?_
    cases stop ',' comma
  obtain ⟨c, l, rfl⟩ := List.exists_cons_of_ne_nil h.nonempty
  have start : isPadding c = false := by
    have first := h.first c rfl
    simp only [List.mem_cons, List.not_mem_nil, or_false, not_or] at first
    simp [isPadding, first.1, first.2.1]
  have filled : isLineEnd c = false := (Bool.or_eq_false_iff.1 (h.chars c List.mem_cons_self)).2
  exact scan_filled n (List.dropWhile_cons_of_neg (by simp [start])) filled single

end IsPlain

theorem scan_lines {lines : List (List Char)} (h : ∀ l ∈ lines, IsPlain l) (n : Nat) :
    ∃ records, scan n (['\n'].intercalate lines) = (records, none) ∧
      records.map (·.fields) = lines.map ([·]) := by
  induction lines generalizing n with
  | nil => exact ⟨[], by rw [List.intercalate_nil, scan]; rfl, rfl⟩
  | cons l lines ih =>
    rw [List.forall_mem_cons] at h
    obtain ⟨records, scanned, texts⟩ := ih h.2 (n + 1)
    refine ⟨⟨n + 1, [l]⟩ :: records, ?_, by rw [List.map_cons, texts, List.map_cons]⟩
    cases lines with
    | nil =>
      have last := h.1.scan n [] (by simp)
      rw [List.intercalate_nil] at scanned
      rw [List.append_nil, show afterLine [] = [] from rfl, scanned] at last
      rw [List.intercalate_singleton, last]
    | cons m lines =>
      have next := h.1.scan n ('\n' :: ['\n'].intercalate (m :: lines)) (by simp)
      rw [List.intercalate_cons_cons, List.append_assoc, List.singleton_append, next, afterLine,
        scanned]

theorem cell_of_not_mem (h : '\x00' ∉ l) : cell l = l := by
  rw [cell, List.takeWhile_eq_self_iff]
  intro c mem
  simpa using ne_of_mem_of_not_mem mem h

theorem dropMark_of_first (h : ∀ c ∈ s.head?, c ≠ '\uFEFF') : dropMark s = s := by
  rw [dropMark.eq_def]
  split
  · exact absurd rfl (h '\uFEFF' rfl)
  · rfl

theorem read_of_scan {header : Record} {rows : List Record}
    (scanned : scan 0 (dropMark s) = (header :: rows, none))
    (narrow : ∀ r ∈ rows, r.fields.length ≤ header.fields.length) :
    read s = .ok ⟨header.fields.map cell,
      rows.map fun r => (pad header.fields.length r.fields).map cell⟩ := by
  have wide : width header rows = header.fields.length := by
    rw [width]
    cases rows with
    | nil => exact Nat.max_zero _
    | cons r rows => exact Nat.max_eq_left (narrow r List.mem_cons_self)
  have fits : rows.find? (header.fields.length < ·.fields.length) = none := by
    rw [List.find?_eq_none]
    intro r mem
    simpa using narrow r mem
  rw [read, scanned]
  simp only [wide, fits]

theorem scan_of_read {sheet : Sheet} (h : read s = .ok sheet) :
    ∃ header rows, scan 0 (dropMark s) = (header :: rows, none) ∧
      sheet.rows = rows.map fun r => (pad (width header rows) r.fields).map cell := by
  rw [read] at h
  split at h
  · cases h
  · cases h
  · rename_i header rows unclosed scanned
    dsimp only at h
    split at h
    · cases h
    · cases h
    · cases h
      exact ⟨header, rows, scanned, rfl⟩

/-- Lines without anything special, one below the other, are a column under the first of them. -/
theorem read_column {name : List Char} {cells : List (List Char)}
    (h : ∀ l ∈ name :: cells, IsPlain l) :
    read (['\n'].intercalate (name :: cells)) = .ok ⟨[name], cells.map ([·])⟩ := by
  obtain ⟨title, plain⟩ := List.forall_mem_cons.1 h
  have mark : dropMark (['\n'].intercalate (name :: cells)) =
      ['\n'].intercalate (name :: cells) := by
    obtain ⟨c, name, rfl⟩ := List.exists_cons_of_ne_nil title.nonempty
    have first : (['\n'].intercalate ((c :: name) :: cells)).head? = some c := by
      cases cells <;> rfl
    refine dropMark_of_first fun d mem marked => absurd (title.first c rfl) ?_
    rw [first, Option.mem_some_iff] at mem
    rw [mem, marked]
    decide
  obtain ⟨_ | ⟨header, rows⟩, scanned, texts⟩ := scan_lines h 0
  · cases texts
  rw [List.map_cons, List.map_cons, List.cons.injEq] at texts
  obtain ⟨head, texts⟩ := texts
  have single : ∀ r ∈ rows, r.fields.length = 1 := by
    intro r mem
    have field : r.fields ∈ rows.map (·.fields) := List.mem_map_of_mem mem
    rw [texts] at field
    obtain ⟨l, -, eq⟩ := List.mem_map.1 field
    rw [← eq]
    rfl
  have values : (rows.map (·.fields)).map (fun f => (pad 1 f).map cell) = cells.map ([·]) := by
    rw [texts, List.map_map]
    exact List.map_congr_left fun l mem => congrArg ([·]) (cell_of_not_mem (plain l mem).whole)
  rw [List.map_map] at values
  rw [read_of_scan (mark ▸ scanned) fun r mem => by rw [single r mem, head]; rfl, head,
    List.map_singleton, cell_of_not_mem title.whole]
  exact congrArg (fun rows => Except.ok (Sheet.mk [name] rows)) values

end Reckon.Csv
