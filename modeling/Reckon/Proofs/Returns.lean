import Reckon.Proofs.Fields

namespace Reckon.Csv

variable {f : List Char}

def returns (fs : List (List Char)) : Nat := (fs.map (·.count '\r')).sum

def held (rs : List Record) : Nat := (rs.map fun r => returns r.fields).sum

theorem count_plainField (s : List Char) :
    (plainField s).1.count '\r' = 0 ∧ (plainField s).2.count '\r' = s.count '\r' := by
  have front : (plainField s).1.count '\r' = 0 := by
    refine List.count_eq_zero.2 fun mem => ?_
    exact absurd (List.mem_takeWhile_imp mem) (by decide)
  have whole : (plainField s).1 ++ (plainField s).2 = s := List.takeWhile_append_dropWhile
  have count := congrArg (List.count '\r') whole
  rw [List.count_append, front, Nat.zero_add] at count
  exact ⟨front, count⟩

theorem count_quotedField {s : List Char} {r : List Char × List Char}
    (h : quotedField s = some r) : r.1.count '\r' + r.2.count '\r' = s.count '\r' := by
  fun_induction quotedField s generalizing r with
  | case1 => cases h
  | case2 s ih =>
    obtain ⟨u, read, rfl⟩ := Option.map_eq_some_iff.1 h
    simpa using ih read
  | case3 s _ =>
    cases h
    obtain ⟨front, back⟩ := count_plainField s
    simp [front, back]
  | case4 c s _ _ ih =>
    obtain ⟨u, read, rfl⟩ := Option.map_eq_some_iff.1 h
    simp only [List.count_cons, ← ih read]
    omega

theorem count_field {s : List Char} {r : List Char × List Char} (h : field s = some r) :
    r.1.count '\r' + r.2.count '\r' = s.count '\r' := by
  rw [field.eq_def] at h
  split at h
  · simpa using count_quotedField h
  · cases h
    simp [count_plainField]

theorem count_fields {s : List Char} {r : List (List Char) × List Char}
    (h : fields s = some r) : returns r.1 + r.2.count '\r' = s.count '\r' := by
  fun_induction fields s generalizing r with
  | case1 => cases h
  | case2 s f rest first ih =>
    obtain ⟨u, more, rfl⟩ := Option.map_eq_some_iff.1 h
    have one := count_field first
    have others := ih more
    simp only [returns, List.map_cons, List.sum_cons, List.count_cons] at *
    simp at one
    omega
  | case3 s f rest _ first =>
    cases h
    simpa [returns] using count_field first

theorem count_afterLine (s : List Char) : (afterLine s).count '\r' ≤ s.count '\r' := by
  rw [afterLine.eq_def]
  split <;> simp

@[simp] theorem held_cons (r : Record) (rs : List Record) :
    held (r :: rs) = returns r.fields + held rs := by
  simp [held]

theorem returns_padding (s : List Char) : returns [s.takeWhile isPadding] = 0 := by
  have none : '\r' ∉ s.takeWhile isPadding :=
    fun mem => absurd (List.mem_takeWhile_imp mem) (by decide)
  simp [returns, List.count_eq_zero_of_not_mem none]

theorem held_scan (n : Nat) (s : List Char) : held (scan n s).1 ≤ s.count '\r' := by
  have dropped {s : List Char} {rest} (front : s.dropWhile isPadding = rest) :
      (afterLine rest).count '\r' ≤ s.count '\r' :=
    (count_afterLine rest).trans (front ▸ (List.dropWhile_sublist isPadding).count_le '\r')
  fun_induction scan n s with
  | case1 => simp [held]
  | case2 n s c rest front _ _ ih => exact ih.trans (dropped front)
  | case3 n s c rest front _ k _ more ih =>
    rw [held_cons, returns_padding, Nat.zero_add]
    exact ih.trans (dropped front)
  | case4 => simp [held]
  | case5 n s c rest front _ r read more ih =>
    rw [held_cons, ← count_fields read]
    exact Nat.add_le_add_left (ih.trans (count_afterLine r.2)) _

theorem count_of_plain (plain : ∀ c ∈ f, isFieldEnd c = false) : f.count '\r' = 0 :=
  List.count_eq_zero.2 fun mem => absurd (plain '\r' mem) (by decide)

theorem fields_return (plain : ∀ c ∈ f, isFieldEnd c = false) (quote : f.head? ≠ some '"')
    (t : List Char) : fields (f ++ '\r' :: t) = some ([f], '\r' :: t) := by
  refine fields_single ?_ (by simp)
  rw [field_eq_plainField, plainField_append plain (by simp [isFieldEnd, isLineEnd])]
  cases f with
  | nil => simp
  | cons c f => exact quote

theorem held_scan_return (plain : ∀ c ∈ f, isFieldEnd c = false) (quote : f.head? ≠ some '"')
    (n : Nat) (t : List Char) : held (scan n (f ++ '\r' :: t)).1 ≤ t.count '\r' := by
  have after : (afterLine ('\r' :: t)).count '\r' ≤ t.count '\r' := by
    rw [afterLine.eq_def]
    split <;> simp_all
  have more (k : Nat) := (held_scan k (afterLine ('\r' :: t))).trans after
  have back : (f ++ '\r' :: t).dropWhile isPadding = f.dropWhile isPadding ++ '\r' :: t :=
    (Lexeme.takeWhile_append isPadding (by simp [isPadding]) f).2
  cases rest : f.dropWhile isPadding with
  | nil =>
    rw [rest, List.nil_append] at back
    rw [scan]
    split
    · simp [held]
    · rename_i front
      rw [back] at front
      cases front
      rw [if_pos (by decide)]
      split
      · exact more _
      · rw [held_cons, returns_padding, Nat.zero_add]
        exact more _
  | cons c b =>
    have filled : isLineEnd c = false := by
      have mem : c ∈ f := (List.dropWhile_sublist isPadding).subset (rest ▸ List.mem_cons_self)
      exact (Bool.or_eq_false_iff.1 (plain c mem)).2
    rw [rest, List.cons_append] at back
    have none : returns [f] = 0 := by simp [returns, count_of_plain plain]
    rw [scan_filled n back filled (fields_return plain quote t), held_cons, none, Nat.zero_add]
    exact more _

theorem count_writeField (f : List Char) : (writeField f).count '\r' = f.count '\r' := by
  have doubled : (double f).count '\r' = f.count '\r' := by
    induction f with
    | nil => rfl
    | cons c f ih => by_cases quote : c = '"' <;> simp_all [double, List.count_cons]
  rw [writeField]
  split
  · simp [doubled]
  · rfl

theorem count_writeFields (fs : List (List Char)) :
    (writeFields fs).count '\r' = returns fs := by
  fun_induction writeFields fs with
  | case1 => rfl
  | case2 f => simp [returns, count_writeField]
  | case3 f fs _ ih => simp_all [returns, count_writeField]

theorem count_write (records : List (List (List Char))) :
    (write records).count '\r' = (records.map returns).sum := by
  induction records with
  | nil => rfl
  | cons r records ih =>
    rw [write] at ih
    simp [write, count_writeFields, ih]

theorem IsBare.split (bare : IsBare f) : ∃ a t, f = a ++ '\r' :: t ∧
    (∀ c ∈ a, isFieldEnd c = false) ∧ a.head? ≠ some '"' := by
  obtain ⟨a, t, rfl, first⟩ := List.eq_append_cons_of_mem bare.mem
  refine ⟨a, t, rfl, ?_, fun quote => ?_⟩
  · exact chars_of_plain (isBare_of_not_mem first)
      fun c mem => bare.plain c (List.mem_append_left _ mem)
  · have mem := List.mem_of_mem_head? quote
    exact absurd (bare.plain '"' (List.mem_append_left _ mem)) (by decide)

theorem held_scan_write {records : List (List (List Char))}
    (wide : ∀ r ∈ records, 2 ≤ r.length) (bare : ∀ r ∈ records, ∀ f ∈ r.tail, ¬IsBare f)
    (lost : ∃ r ∈ records, ∃ f ∈ r.head?, IsBare f) (n : Nat) :
    held (scan n (write records)).1 < (records.map returns).sum := by
  induction records generalizing n with
  | nil => simp at lost
  | cons r records ih =>
    rw [List.forall_mem_cons] at wide bare
    rw [write, List.flatMap_cons, List.append_assoc, List.singleton_append, ← write, List.map_cons,
      List.sum_cons]
    obtain ⟨f, g, fs, rfl⟩ : ∃ f g fs, r = f :: g :: fs := by
      obtain ⟨f, tail, rfl⟩ := List.exists_cons_of_length_pos (zero_lt_two.trans_le wide.1)
      obtain ⟨g, fs, rfl⟩ := List.exists_cons_of_length_pos (Nat.le_of_succ_le_succ wide.1)
      exact ⟨f, g, fs, rfl⟩
    by_cases first : IsBare f
    -- The first return ends the record and is in no field; all behind it may still be read.
    · obtain ⟨a, t, rfl, plain, quote⟩ := first.split
      have text : writeFields ((a ++ '\r' :: t) :: g :: fs) ++ '\n' :: write records =
          a ++ '\r' :: (t ++ ',' :: writeFields (g :: fs) ++ '\n' :: write records) := by
        simp [writeFields, writeField_of_plain first.plain]
      rw [text]
      refine (held_scan_return plain quote n _).trans_lt ?_
      simp [count_write, count_writeFields, returns, count_of_plain plain]
      omega
    · have record : IsRecord (writeFields (f :: g :: fs)) (f :: g :: fs) :=
        isRecord_writeFields (by simp) (List.forall_mem_cons.2 ⟨first, bare.1⟩)
      rw [record.scan wide.1, held_cons]
      refine Nat.add_lt_add_left (ih wide.2 bare.2 ?_ (n + 1)) _
      simpa [first] using lost

theorem returns_cells (n : Nat) (fs : List (List Char)) :
    returns ((pad n fs).map cell) ≤ returns fs := by
  have fewer (f : List Char) : (cell f).count '\r' ≤ f.count '\r' :=
    (List.takeWhile_sublist _).count_le '\r'
  have padding : returns ((List.replicate (n - fs.length) []).map cell) = 0 := by
    simp [returns, cell]
  have kept : returns (fs.map cell) ≤ returns fs := by
    rw [returns, returns, List.map_map]
    exact List.sum_le_sum fun f _ => fewer f
  rw [returns] at padding kept ⊢
  rw [pad, List.map_append, List.map_append, List.sum_append, padding, Nat.add_zero]
  exact kept

theorem returns_read {sheet : Sheet} (h : read s = .ok sheet) :
    (sheet.rows.map returns).sum ≤ held (scan 0 (dropMark s)).1 := by
  obtain ⟨header, rows, scanned, eq⟩ := scan_of_read h
  rw [scanned, eq, List.map_map, held_cons, held]
  exact (List.sum_le_sum fun r _ => returns_cells _ r.fields).trans (Nat.le_add_left _ _)

theorem returns_column {sheet : Sheet} {name : String} {cells : List (RowLabel × String)}
    (h : sheet.column? name = some cells) :
    (cells.map fun p => p.2.toList.count '\r').sum ≤ (sheet.rows.map returns).sum := by
  obtain ⟨i, eq⟩ := column_eq_some h
  have one (row : List (List Char)) (j : Nat) : (row.getD j []).count '\r' ≤ returns row := by
    rw [List.getD_eq_getElem?_getD]
    cases get : row[j]? with
    | none => simp
    | some f => exact List.le_sum_of_mem (List.mem_map_of_mem (List.mem_of_getElem? get))
  have counts : (cells.map fun p => p.2.toList.count '\r') =
      (cells.map (·.2)).map fun x => x.toList.count '\r' := by
    rw [List.map_map]
    rfl
  rw [counts, eq, List.map_map]
  refine List.sum_le_sum fun row _ => ?_
  simpa using one row _

end Reckon.Csv
