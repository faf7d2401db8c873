import Reckon.Proofs.Agreement
import Reckon.Proofs.Outcomes
import Reckon.Proofs.Returns

namespace Reckon

namespace Decimal

theorem return_not_mem_toDigits (n : Nat) : '\r' ∉ Nat.toDigits 10 n :=
  fun mem => absurd (isDigit_toDigits n _ mem) (by decide)

theorem return_not_mem_positional (d : Decimal) : '\r' ∉ d.positional :=
  fun mem => absurd (d.positional_literal.1.chars _ mem) (by decide)

theorem return_not_mem_scientific (d : Decimal) : '\r' ∉ d.scientific := by
  have digits := return_not_mem_toDigits d.digits
  have size := return_not_mem_toDigits d.leading.natAbs
  have zeros (n : Nat) : '\r' ∉ List.replicate n '0' :=
    fun mem => absurd (List.eq_of_mem_replicate mem) (by decide)
  have sign : '\r' ≠ if d.leading < 0 then '-' else '+' := by split <;> decide
  have exponent : '\r' ∉ 'e' :: (if d.leading < 0 then '-' else '+') ::
      (List.replicate (2 - (Nat.toDigits 10 d.leading.natAbs).length) '0' ++
        Nat.toDigits 10 d.leading.natAbs) := by
    simp [sign, zeros, size]
  rw [scientific, List.mem_append, not_or]
  refine ⟨?_, exponent⟩
  split
  · rename_i first second more eq
    rw [eq] at digits
    simpa using digits
  · exact digits

end Decimal

theorem Layout.return_not_mem_record (v : Float) : '\r' ∉ (Layout.record.write v).toList := by
  have decimal (d : Decimal) : '\r' ∉ Layout.record.ofDecimal d := by
    rw [ofDecimal]
    split
    · rw [List.mem_append, not_or]
      refine ⟨d.return_not_mem_positional, ?_⟩
      split <;> simp [record]
    · exact d.return_not_mem_scientific
  rw [write]
  split
  · simp
  split
  · split <;> simp
  split
  · split
    · simp [record]
    · simpa using decimal _
  · simpa using decimal _

theorem LexError.return_not_mem_message (e : LexError) : '\r' ∉ e.message.toList := by
  cases e with
  | notText | tooLong => simp [message]
  | «at» fault position =>
    have digits : '\r' ∉ (toString position).toList := by
      rw [Nat.toString_eq_repr, Nat.toList_repr]
      exact Decimal.return_not_mem_toDigits position
    rw [message, String.toList_append, String.toList_append]
    simp only [List.mem_append, not_or, digits, not_false_iff, and_true]
    cases fault <;> simp [LexFault.message]

theorem EvalError.return_not_mem_message (e : EvalError) : '\r' ∉ e.message.toList := by
  cases e with
  | domain d => cases d <;> simp [message, DomainError.message]
  | missingOperand | missingArgument | unexpectedToken | leftover => simp [message]

theorem Input.return_not_mem_message {maxLength : Int} {x : Input α} {e : EvaluationError}
    (h : x.verdict maxLength = .error e) : '\r' ∉ e.message.toList := by
  cases x with
  | other a => cases h; exact LexError.return_not_mem_message _
  | text s =>
    rw [Input.verdict] at h
    split at h
    · cases h; exact LexError.return_not_mem_message _
    · have failed : Reckon.evaluate s = .error (.evaluation e) := by
        rw [evaluate_eq_verdict, h]
        rfl
      cases evaluate_eq_error.1 failed with
      | lex h => exact LexError.return_not_mem_message _
      | parse scan h =>
        have text : (EvaluationError.parse .mismatchedParentheses).message =
          "mismatched parentheses" := rfl
        simp [text]
      | eval scan order h => exact EvalError.return_not_mem_message _
      | nonFinite scan order value h => simp [EvaluationError.message]

def Input.chars : Input α → List Char
  | .text s => s.toList
  | .other _ => []

namespace Batch

variable {limits : Limits} {e : Evaluator} {rows : List BatchRow} {path : String}

theorem run_eq_ok {column content : Option String} (h : e.Sound limits)
    (room : 0 ≤ limits.cacheSize) (ran : (run e path column content).1 = .ok rows) :
    ∃ name text sheet cells, column = some name ∧ content = some text ∧
      Csv.read text.toList = .ok sheet ∧ sheet.column? name = some cells ∧
      rows = cells.map fun (label, x) => Entry.row limits.maxLength label x := by
  cases content with
  | none => cases ran
  | some text =>
    cases read : Csv.read text.toList with
    | error err => simp [run, expressions, read, Except.mapError] at ran
    | ok sheet =>
      cases column with
      | none => simp [run, expressions, read, Except.mapError] at ran
      | some name =>
        cases found : sheet.column? name with
        | none => simp [run, expressions, read, found, Except.mapError] at ran
        | some cells =>
          rw [run_eq h room path read found] at ran
          cases ran
          exact ⟨name, text, sheet, cells, rfl, rfl, read, found, rfl⟩

/-- A row of a text in normal form, as batches give them. -/
def IsGiven (maxLength : Int) (r : BatchRow) : Prop :=
  ∃ s, GlyphMap.standard.normalize s = s ∧ '\x00' ∉ s.toList ∧ r = Entry.row maxLength r.label s

theorem isGiven_of_run {column content : Option String} (h : e.Sound limits)
    (room : 0 ≤ limits.cacheSize) (ran : (run e path column content).1 = .ok rows) :
    ∀ r ∈ rows, IsGiven limits.maxLength r := by
  obtain ⟨name, text, sheet, cells, -, -, read, found, rfl⟩ := run_eq_ok h room ran
  intro r mem
  obtain ⟨⟨label, x⟩, cell, rfl⟩ := List.mem_map.1 mem
  refine ⟨GlyphMap.standard.normalize x, GlyphMap.normalize_normalize x, fun null => ?_, ?_⟩
  · rcases (GlyphMap.mem_normalize_standard null).2 with null | known
    · exact Csv.column_whole read found (label, x) cell null
    · exact absurd known (by decide)
  · simp only [Entry.row, Entry.outcome, GlyphMap.normalize_normalize]

def titles : List (List Char) :=
  [labels.expressionColumn, labels.resultColumn, labels.errorColumn].map String.toList

theorem toList_toCsv (rows : List (Row β α)) :
    (toCsv rows).toList = Csv.write (titles :: rows.map record) :=
  String.toList_ofList

theorem IsGiven.return_not_mem_tail {maxLength : Int} {r : BatchRow} (h : IsGiven maxLength r) :
    ∀ f ∈ (record r).tail, '\r' ∉ f := by
  obtain ⟨s, -, -, made⟩ := h
  rw [made, record, List.tail_cons, List.forall_mem_cons, List.forall_mem_singleton]
  simp only [Entry.row, Row.result?, Row.error?]
  cases outcome : Entry.outcome maxLength s with
  | ok v => simpa [Except.toOption] using Layout.return_not_mem_record v
  | error e => simpa [Except.toOption] using Input.return_not_mem_message outcome

theorem IsGiven.isBare_tail {maxLength : Int} {r : BatchRow} (h : IsGiven maxLength r) :
    ∀ f ∈ (record r).tail, ¬Csv.IsBare f :=
  fun f mem => Csv.isBare_of_not_mem (h.return_not_mem_tail f mem)

theorem IsGiven.returns_record {maxLength : Int} {r : BatchRow} (h : IsGiven maxLength r) :
    Csv.returns (record r) = r.expression.chars.count '\r' := by
  have tail : Csv.returns (record r).tail = 0 := by
    refine List.sum_eq_zero fun n mem => ?_
    obtain ⟨f, field, rfl⟩ := List.mem_map.1 mem
    exact List.count_eq_zero_of_not_mem (h.return_not_mem_tail f field)
  have split : Csv.returns (record r) =
      r.expression.chars.count '\r' + Csv.returns (record r).tail := rfl
  rw [split, tail, Nat.add_zero]

theorem isBare_titles : ∀ f ∈ titles, ¬Csv.IsBare f := by
  intro f mem
  refine Csv.isBare_of_not_mem ?_
  fin_cases mem <;> decide

theorem dropMark_toCsv (rows : List (Row β α)) :
    Csv.dropMark (Csv.write (titles :: rows.map record)) =
      Csv.write (titles :: rows.map record) :=
  Csv.dropMark_of_first fun c mem => by
    have first : (Csv.write (titles :: rows.map record)).head? = some 'e' := rfl
    rw [first, Option.mem_some_iff] at mem
    rw [← mem]
    decide

theorem isTable_toCsv {maxLength : Int} (given : ∀ r ∈ rows, IsGiven maxLength r)
    (bare : ∀ r ∈ rows, ¬Csv.IsBare r.expression.chars) :
    Csv.IsTable (toCsv rows).toList (titles :: rows.map record) := by
  rw [toList_toCsv]
  refine Csv.isTable_write ?_ (List.forall_mem_cons.2 ⟨isBare_titles, ?_⟩)
  · simp [titles, record]
  · exact List.forall_mem_map.2 fun r mem =>
      List.forall_mem_cons.2 ⟨bare r mem, (given r mem).isBare_tail⟩

def relabelled (rows : List (Row β α)) : List (Row Csv.RowLabel α) :=
  rows.zipIdx.map fun (r, place) => { r with label := .place place }

theorem toCsv_relabelled (rows : List (Row β α)) : toCsv (relabelled rows) = toCsv rows := by
  have records : (relabelled rows).map record = rows.map record := by
    have first := congrArg (List.map record) (List.zipIdx_map_fst 0 rows)
    rw [List.map_map] at first
    rw [relabelled, List.map_map]
    exact first
  rw [← String.toList_inj, toList_toCsv, toList_toCsv, records]

/-- Rows are given again from any text that has them as a table. -/
theorem run_isTable (h : e.Sound limits) (room : 0 ≤ limits.cacheSize) (path : String)
    (given : ∀ r ∈ rows, IsGiven limits.maxLength r) {table : String}
    (saved : Csv.IsTable table.toList (titles :: rows.map record)) :
    (run e path (some labels.expressionColumn) (some table)).1 = .ok (relabelled rows) := by
  have square : ∀ r ∈ rows.map record, r.length = titles.length := by simp [record, titles]
  have read := saved.read (by decide) square (by decide)
  rw [show titles.map Csv.cell = titles by decide, List.map_map] at read
  have found : Csv.Sheet.column? ⟨titles, rows.map ((·.map Csv.cell) ∘ record)⟩
      labels.expressionColumn = some (rows.zipIdx.map fun (r, place) =>
        (.place place, String.ofList (Csv.cell r.expression.chars))) := by
    have place : (Csv.columnNames titles).idxOf? labels.expressionColumn = some 0 := by decide
    rw [Csv.Sheet.column?, place, Option.map_some, List.zipIdx_map, List.map_map]
    rfl
  rw [run_eq h room path read found, List.map_map, relabelled]
  refine congrArg Except.ok (List.map_congr_left fun (r, place) mem => ?_)
  obtain ⟨s, normal, whole, made⟩ := given r (List.fst_mem_of_mem_zipIdx mem)
  have kept : String.ofList (Csv.cell r.expression.chars) = s := by
    rw [made, Entry.row, normal, Input.chars, Csv.cell_of_not_mem whole, String.ofList_toList]
  simp only [Function.comp_apply, kept]
  rw [made]
  rfl

def returns (rows : List (Row β α)) : Nat :=
  ((rows.map (·.expression)).map (·.chars.count '\r')).sum

theorem held_toCsv_lt {maxLength : Int} (given : ∀ r ∈ rows, IsGiven maxLength r)
    (lost : ∃ r ∈ rows, Csv.IsBare r.expression.chars) :
    Csv.held (Csv.scan 0 (toCsv rows).toList).1 < returns rows := by
  have total : ((titles :: rows.map record).map Csv.returns).sum = returns rows := by
    have none : Csv.returns titles = 0 := by decide
    rw [List.map_cons, List.sum_cons, none, Nat.zero_add, List.map_map, returns, List.map_map]
    exact congrArg List.sum (List.map_congr_left fun r mem => (given r mem).returns_record)
  rw [← total, toList_toCsv]
  refine Csv.held_scan_write ?wide ?tails ?lost 0
  case wide => simp [titles, record]
  case tails =>
    refine List.forall_mem_cons.2 ⟨fun f mem => isBare_titles f (List.mem_of_mem_tail mem), ?_⟩
    exact List.forall_mem_map.2 fun r mem => (given r mem).isBare_tail
  case lost =>
    obtain ⟨r, mem, bare⟩ := lost
    exact ⟨record r, List.mem_cons_of_mem _ (List.mem_map_of_mem mem), _, rfl, bare⟩

theorem returns_run_toCsv (h : e.Sound limits) (room : 0 ≤ limits.cacheSize)
    {again : List BatchRow}
    (ran : (run e path (some labels.expressionColumn) (some (toCsv rows))).1 = .ok again) :
    returns again ≤ Csv.held (Csv.scan 0 (toCsv rows).toList).1 := by
  obtain ⟨name, text, sheet, cells, column, content, read, found, rfl⟩ := run_eq_ok h room ran
  cases column
  cases content
  have kept : returns (cells.map fun (label, x) => Entry.row limits.maxLength label x) =
      (cells.map fun p => p.2.toList.count '\r').sum := by
    rw [returns, List.map_map, List.map_map]
    refine congrArg List.sum (List.map_congr_left fun (label, x) _ => ?_)
    exact GlyphMap.count_normalize_standard (by decide) x
  have unmarked : Csv.dropMark (toCsv rows).toList = (toCsv rows).toList := by
    rw [toList_toCsv, dropMark_toCsv]
  have column := (Csv.returns_column found).trans (Csv.returns_read read)
  rwa [← kept, unmarked] at column

theorem not_isBare_of_run_toCsv (h : e.Sound limits) (room : 0 ≤ limits.cacheSize)
    {maxLength : Int} (given : ∀ r ∈ rows, IsGiven maxLength r) {again : List BatchRow}
    (ran : (run e path (some labels.expressionColumn) (some (toCsv rows))).1 = .ok again)
    (same : again.map (·.expression) = rows.map (·.expression)) :
    ∀ r ∈ rows, ¬Csv.IsBare r.expression.chars := by
  intro r mem bare
  -- The returns in the expressions tell the two batches apart, whatever becomes of the records.
  have fewer : returns again < returns rows :=
    (returns_run_toCsv h room ran).trans_lt (held_toCsv_lt given ⟨r, mem, bare⟩)
  have equal : returns again = returns rows := by rw [returns, returns, same]
  exact fewer.ne equal

/-- A saved batch without bare returns is given and saved again, its rows with their places as
labels, whatever was calculated before. So is one from any text that has its table with quotes where
they are needed. With a bare return the expressions of what is saved are not given again. -/
theorem saved_again (limits limits' : Limits) (room : 0 ≤ limits.cacheSize)
    (room' : 0 ≤ limits'.cacheSize) (length : limits'.maxLength = limits.maxLength)
    (past : List (Evaluator.Command β α)) (past' : List (Evaluator.Command γ δ)) (e e' : Evaluator)
    (made : e = Evaluator.run { limits } past)
    (made' : e' = Evaluator.run { limits := limits' } past') (path output text : String)
    (column content : Option String) (rows : List BatchRow)
    (accepted : (run e path column content).1 = .ok rows)
    (saved : (output, text) ∈ written output rows) :
    ((∀ r ∈ rows, ¬Csv.IsBare r.expression.chars) →
      (run e' output (some labels.expressionColumn) (some text)).1 = .ok (relabelled rows)) ∧
    (∀ name, written name (relabelled rows) = written name rows) ∧
    (∀ table : String, Csv.IsTable table.toList (titles :: rows.map record) →
      (run e' output (some labels.expressionColumn) (some table)).1 = .ok (relabelled rows)) ∧
    ∀ again, (run e' output (some labels.expressionColumn) (some text)).1 = .ok again →
      again.map (·.expression) = rows.map (·.expression) →
        ∀ r ∈ rows, ¬Csv.IsBare r.expression.chars := by
  have sound : e.Sound limits := made ▸ (Evaluator.Sound.new limits).run past
  have sound' : e'.Sound limits' := made' ▸ (Evaluator.Sound.new limits').run past'
  have given := isGiven_of_run sound room accepted
  rw [← length] at given
  have file : text = toCsv rows := by
    rw [written] at saved
    split at saved
    · cases saved
    · cases List.mem_singleton.1 saved
      rfl
  subst file
  refine ⟨fun bare => ?_, fun name => ?_, fun table => ?_, fun again => ?_⟩
  · exact run_isTable sound' room' output given (isTable_toCsv given bare)
  · rw [written, written, toCsv_relabelled]
  · exact run_isTable sound' room' output given
  · exact not_isBare_of_run_toCsv sound' room' given

def quotedTable : String := "n,x\na,\",\"\"\r\n\"\n,2\n"

def quotedRows : List BatchRow :=
  [Entry.row 2 (.place 0) ",\"\r\n", Entry.row 2 (.place 1) "2"]

theorem normalize_quoted : GlyphMap.standard.normalize ",\"\r\n" = ",\"\r\n" := by decide

theorem normalize_two : GlyphMap.standard.normalize "2" = "2" := by decide

theorem run_quotedTable (h : e.Sound ⟨1, 2⟩) (path : String) :
    (run e path (some "x") (some quotedTable)).1 = .ok quotedRows := by
  have table : quotedTable.toList =
      Csv.write [[['n'], ['x']], [['a'], [',', '"', '\r', '\n']], [[], ['2']]] := by decide
  have bare : ∀ r ∈ [[['n'], ['x']], [['a'], [',', '"', '\r', '\n']], [[], ['2']]],
      ∀ f ∈ r, ¬Csv.IsBare f := by
    intro r mem f field h
    have text := h.mem
    have comma := h.plain ','
    fin_cases mem <;> fin_cases field <;> simp [Csv.isSpecial] at text comma
  have read : Csv.read quotedTable.toList =
      .ok ⟨[['n'], ['x']], [[['a'], [',', '"', '\r', '\n']], [[], ['2']]]⟩ := by
    rw [table, (Csv.isTable_write (by decide) bare).read (by decide) (by decide) (by decide)]
    decide
  have found : Csv.Sheet.column?
      ⟨[['n'], ['x']], [[['a'], [',', '"', '\r', '\n']], [[], ['2']]]⟩ "x" =
      some [(.place 0, ",\"\r\n"), (.place 1, "2")] := by decide
  exact run_eq h (by decide) path read found

theorem toCsv_quotedRows :
    toCsv quotedRows =
      "expression,result,error\n\",\"\"\r\n\",,expression too long\n2,2.0,\n" := by
  have long : Entry.outcome 2 ",\"\r\n" = .error (.lex .tooLong) := by
    rw [Entry.outcome, normalize_quoted, Input.verdict]
    exact if_pos (by decide)
  have two : Layout.record.write 2 = "2.0" := by decide +kernel
  have records : quotedRows.map record =
      [[[',', '"', '\r', '\n'], [], "expression too long".toList],
        [['2'], "2.0".toList, []]] := by
    simp [quotedRows, record, Entry.row, Row.result?, Row.error?, normalize_quoted, normalize_two,
      long, Entry.outcome_two, Except.toOption, two, EvaluationError.message, LexError.message]
  rw [← String.toList_inj, toList_toCsv, records]
  decide

theorem saved_again_quoted :
    0 ≤ (⟨1, 2⟩ : Limits).cacheSize ∧ 0 ≤ (⟨0, 2⟩ : Limits).cacheSize ∧ ∃ e e' text,
      e = Evaluator.run { limits := ⟨1, 2⟩ }
        ([.evaluate (.text "2")] : List (Evaluator.Command Nat Unit)) ∧
      e' = Evaluator.run { limits := ⟨0, 2⟩ } ([.clear] : List (Evaluator.Command Nat Unit)) ∧
      text = "expression,result,error\n\",\"\"\r\n\",,expression too long\n2,2.0,\n" ∧
      (run e "sums" (some "x") (some quotedTable)).1 = .ok quotedRows ∧
      ("saved", text) ∈ written "saved" quotedRows ∧
      (run e' "saved" (some "expression") (some text)).1 = .ok (relabelled quotedRows) ∧
      written "again" (relabelled quotedRows) = written "again" quotedRows := by
  have ran := run_quotedTable ((Evaluator.Sound.new ⟨1, 2⟩).run
    ([.evaluate (.text "2")] : List (Evaluator.Command Nat Unit))) "sums"
  have saved : ("saved", toCsv quotedRows) ∈ written "saved" quotedRows := List.mem_singleton.2 rfl
  have bare : ∀ r ∈ quotedRows, ¬Csv.IsBare r.expression.chars := by
    intro r mem h
    have text := h.mem
    have comma := h.plain ','
    fin_cases mem <;>
      simp [Entry.row, Input.chars, normalize_quoted, normalize_two, Csv.isSpecial] at text comma
  obtain ⟨again, files, -⟩ := saved_again ⟨1, 2⟩ ⟨0, 2⟩ (by decide) (by decide) rfl
    ([.evaluate (.text "2")] : List (Evaluator.Command Nat Unit))
    ([.clear] : List (Evaluator.Command Nat Unit)) _ _ rfl rfl "sums" "saved" _ _ _ _ ran saved
  exact ⟨by decide, by decide, _, _, _, rfl, rfl, toCsv_quotedRows, ran, saved, again bare, files _⟩

theorem saved_return_lost :
    ∃ rows, (run {} "sums" (some "x") (some "x\n\"1\r+2\"\n")).1 = .ok rows ∧
      rows.map (·.expression) = [.text "1\r+2"] ∧
      ∀ again, (run {} "saved" (some "expression") (some (toCsv rows))).1 = .ok again →
        again.map (·.expression) ≠ rows.map (·.expression) := by
  have sound := Evaluator.Sound.new {}
  have title : Csv.IsPlain ['x'] := by
    refine ⟨?_, ?_, ?_, ?_⟩ <;> simp [Csv.isFieldEnd, Csv.isLineEnd]
  have quoted : Csv.fields ['"', '1', '\r', '+', '2', '"', '\n'] =
      some ([['1', '\r', '+', '2']], ['\n']) :=
    Csv.fields_single rfl (by decide)
  have below : Csv.scan 1 ['"', '1', '\r', '+', '2', '"', '\n'] =
      ([⟨2, [['1', '\r', '+', '2']]⟩], none) := by
    rw [Csv.scan_filled 1 (c := '"') rfl rfl quoted, Csv.afterLine, Csv.scan]
    rfl
  have scanned : Csv.scan 0 (Csv.dropMark "x\n\"1\r+2\"\n".toList) =
      (⟨1, [['x']]⟩ :: [⟨2, [['1', '\r', '+', '2']]⟩], none) := by
    have chars : Csv.dropMark "x\n\"1\r+2\"\n".toList =
        ['x', '\n', '"', '1', '\r', '+', '2', '"', '\n'] := by decide
    have first := title.scan 0 ['\n', '"', '1', '\r', '+', '2', '"', '\n'] (by simp)
    rw [Csv.afterLine, below] at first
    rw [chars]
    exact first
  have read : Csv.read "x\n\"1\r+2\"\n".toList = .ok ⟨[['x']], [[['1', '\r', '+', '2']]]⟩ :=
    Csv.read_of_scan scanned (by simp)
  have found : Csv.Sheet.column? ⟨[['x']], [[['1', '\r', '+', '2']]]⟩ "x" =
      some [(.place 0, "1\r+2")] := by decide
  have ran : (run {} "sums" (some "x") (some "x\n\"1\r+2\"\n")).1 =
      .ok [Entry.row 1000 (.place 0) "1\r+2"] := run_eq sound (by decide) "sums" read found
  have normal : GlyphMap.standard.normalize "1\r+2" = "1\r+2" := by decide
  refine ⟨_, ran, by simp [Entry.row, normal], fun again accepted same => ?_⟩
  have bare : Csv.IsBare (Entry.row 1000 (Csv.RowLabel.place 0) "1\r+2").expression.chars := by
    rw [Entry.row, normal]
    constructor <;> simp [Input.chars, Csv.isSpecial]
  have given := isGiven_of_run sound (by decide) ran
  exact not_isBare_of_run_toCsv sound (by decide) given accepted same _ List.mem_cons_self bare

end Batch

end Reckon
