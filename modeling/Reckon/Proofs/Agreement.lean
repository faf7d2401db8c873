import Reckon.Batch
import Reckon.Proofs.Continuation
import Reckon.Proofs.Lines
import Reckon.Proofs.Records
import Reckon.Proofs.Repetition

namespace Reckon

variable {limits : Limits} {x : String} {v : Float}

theorem display_line (finite : v.isFinite) : display v ≠ "" ∧ '\n' ∉ (display v).toList := by
  constructor
  · intro empty
    have scan := tokenize_shown finite
    rw [empty] at scan
    simp [tokenize, Token.scan] at scan
  · intro mem
    rw [← display_shown] at mem
    have char := display_chars (shown_isFinite finite) (shown_ne v) _ mem
    revert char
    decide

namespace Entry

def outcome (maxLength : Int) (x : String) : Except EvaluationError Float :=
  (.text (GlyphMap.standard.normalize x) : Input Unit).verdict maxLength

def printed (maxLength : Int) (x : String) : String :=
  match outcome maxLength x with
  | .ok v => x ++ " = " ++ Reckon.display v
  | .error e => x ++ " = Error (" ++ e.message ++ ")"

def displayed (maxLength : Int) (x : String) : String :=
  match outcome maxLength x with
  | .ok v => Reckon.display v
  | .error _ => "Error"

def cells (maxLength : Int) (x : String) : Input Unit × Option Float × Option String :=
  match outcome maxLength x with
  | .ok v => (.text (GlyphMap.standard.normalize x), some v, none)
  | .error e => (.text (GlyphMap.standard.normalize x), none, some e.message)

def row (maxLength : Int) (label : β) (x : String) : Row β Unit :=
  ⟨label, .text (GlyphMap.standard.normalize x), outcome maxLength x⟩

variable (maxLength : Int) (x : String)

theorem outcome_eq_evaluate :
    (outcome maxLength x).mapError .evaluation =
      if maxLength < (GlyphMap.standard.normalize x).length then lexed (.error .tooLong)
      else evaluate (GlyphMap.standard.normalize x) := by
  rw [outcome, Input.verdict, evaluate_eq_verdict]
  split <;> rfl

theorem displayed_line : '\n' ∉ (displayed maxLength x).toList := by
  rw [displayed]
  split
  · rename_i value
    exact (display_line (isFinite_of_evaluate (Input.evaluate_of_verdict value))).2
  · decide

theorem line_row : Console.line (row maxLength x x) = printed maxLength x := by
  rw [Console.line, printed, row]
  cases outcome maxLength x with
  | ok v => rfl
  | error e =>
    rw [show " = Error (" = " = " ++ labels.errorDisplay ++ " (" by decide]
    simp only [String.append_assoc]

theorem cells_row (label : β) :
    ((row maxLength label x).expression, (row maxLength label x).result?,
      (row maxLength label x).error?) = cells maxLength x := by
  rw [cells, row, Row.result?, Row.error?]
  cases outcome maxLength x <;> rfl

theorem failures_rows (entries : List (β × String)) :
    failures (entries.map fun (label, x) => row maxLength label x) =
      entries.countP fun (_, x) => !(outcome maxLength x).isOk := by
  rw [failures, List.countP_map]
  refine List.countP_congr fun (label, x) _ => ?_
  simp only [Function.comp_apply, row, Row.error?]
  cases outcome maxLength x <;> rfl

end Entry

theorem Evaluator.Sound.many_entries {e : Evaluator} (h : e.Sound limits)
    (room : 0 ≤ limits.cacheSize) (entries : List (β × String)) :
    (e.many (entries.map fun (label, x) =>
      (label, (.text (GlyphMap.standard.normalize x) : Input Unit)))).1 =
      .ok (entries.map fun (label, x) => Entry.row limits.maxLength label x) := by
  rw [(h.many _).1, rows_eq_map room, List.map_map]
  rfl

namespace Session

variable {s : Session}

theorem Sound.displays (h : s.Sound limits) (room : 0 ≤ limits.cacheSize)
    (expression : s.expression = GlyphMap.standard.normalize x) :
    ∃ o, s.calculate.1 = .ok o ∧ s.calculate.2.display = Entry.displayed limits.maxLength x := by
  have asked := (h.evaluator.attempt (.text s.expression : Input Unit)).1
  rw [Evaluator.outcome_answer room] at asked
  cases attempted : s.evaluator.attempt (.text s.expression : Input Unit) with
  | mk o next =>
    rw [attempted, expression] at asked
    cases asked
    rw [Entry.displayed, Session.calculate, attempted, ← Entry.outcome]
    cases outcome : Entry.outcome limits.maxLength x with
    | error e => exact ⟨none, rfl, rfl⟩
    | ok v =>
      have line := display_line (isFinite_of_evaluate (Input.evaluate_of_verdict outcome))
      exact ⟨some v, rfl, by simp [Session.display, line.1]⟩

end Session

namespace Console

variable {s : Session}

theorem answer_eq {e : Evaluator} (h : e.Sound limits) (room : 0 ≤ limits.cacheSize)
    (xs : List String) :
    (answer e xs).1 = .ok (xs.map fun x => Entry.row limits.maxLength x x) := by
  have asked := h.many_entries room (xs.map fun x => (x, x))
  rw [List.map_map, List.map_map] at asked
  exact asked

theorem displays_entered (h : s.Sound limits) (room : 0 ≤ limits.cacheSize) (x : String) :
    ∃ o next, (entered s x).calculate = (.ok o, next) ∧ next.Sound limits ∧
      next.display = Entry.displayed limits.maxLength x := by
  have sound : (entered s x).Sound limits := ⟨h.glyphs, h.evaluator⟩
  have expression : (entered s x).expression = GlyphMap.standard.normalize x := by
    rw [Session.expression, sound.glyphs]
    rfl
  obtain ⟨o, value, display⟩ := sound.displays room expression
  exact ⟨o, _, Prod.ext value rfl, sound.calculate, display⟩

theorem interact_eq (h : s.Sound limits) (room : 0 ≤ limits.cacheSize) (xs : List String) :
    (interact s xs).1 = .ok (xs.map (Entry.displayed limits.maxLength)) := by
  induction xs generalizing s with
  | nil => rfl
  | cons x xs ih =>
    obtain ⟨o, next, calculated, sound, display⟩ := displays_entered h room x
    rw [interact, calculated, List.map_cons, ← display]
    dsimp only
    rw [ih sound]
    rfl

end Console

namespace Batch

theorem run_eq {e : Evaluator} (h : e.Sound limits) (room : 0 ≤ limits.cacheSize) (path : String)
    {column text : String} {sheet : Csv.Sheet} {cells : List (Csv.RowLabel × String)}
    (read : Csv.read text.toList = .ok sheet) (found : sheet.column? column = some cells) :
    (run e path (some column) (some text)).1 =
      .ok (cells.map fun (label, x) => Entry.row limits.maxLength label x) := by
  have listed : expressions path (some column) (some text) =
      .ok (cells.map fun (label, x) => (label, .text (GlyphMap.standard.normalize x))) := by
    simp [expressions, read, found, Except.mapError]
  rw [run, listed]
  dsimp only
  rw [h.many_entries room]
  rfl

end Batch

/-- Whatever an evaluator and its session did before, each front end reports for each entry what
its normal form evaluates to, if it is not too long: expressions are printed, lines answered by one
line each, and the cells of a column put in rows, in order. -/
theorem front_ends_agree (limits : Limits) (room : 0 ≤ limits.cacheSize)
    (past : List (Evaluator.Command β α)) (input : String) (error : Option EvaluationError)
    (before : List Session.Command) (e : Evaluator) (s : Session)
    (used : e = Evaluator.run { limits } past)
    (typed : s = Session.run { evaluator := e, input, error } before) :
    (∀ x, (Entry.outcome limits.maxLength x).mapError .evaluation =
      if limits.maxLength < (GlyphMap.standard.normalize x).length then lexed (.error .tooLong)
      else evaluate (GlyphMap.standard.normalize x)) ∧
    (∀ xs, ∃ rows, (Console.answer e xs).1 = .ok rows ∧
      rows.map Console.line = xs.map (Entry.printed limits.maxLength) ∧
      failures rows = xs.countP fun x => !(Entry.outcome limits.maxLength x).isOk) ∧
    (∀ lines : List String, (∀ line ∈ lines, '\n' ∉ line.toList) →
      (Console.interact s (Console.entries ("\n".intercalate lines))).1 =
        .ok ((Console.admitted lines).map (Entry.displayed limits.maxLength))) ∧
    (∀ xs, (∀ x ∈ xs, Console.IsEntry x) → Console.admitted xs = xs) ∧
    (∀ x, '\n' ∉ (Entry.displayed limits.maxLength x).toList) ∧
    ∀ path column text sheet cells, Csv.read (String.toList text) = .ok sheet →
      sheet.column? column = some cells →
      ∃ rows, (Batch.run e path (some column) (some text)).1 = .ok rows ∧
        rows.map (fun r => (r.label, r.expression, r.result?, r.error?)) =
          cells.map fun (label, x) => (label, Entry.cells limits.maxLength x) := by
  have sound : e.Sound limits := used ▸ (Evaluator.Sound.new limits).run past
  have start : Session.Sound limits { evaluator := e, input, error } := ⟨rfl, sound⟩
  have session : s.Sound limits := typed ▸ start.run before
  refine ⟨Entry.outcome_eq_evaluate _, fun xs => ⟨_, Console.answer_eq sound room xs, ?_, ?_⟩,
    fun lines single => ?_, fun xs => Console.admitted_of_isEntry, Entry.displayed_line _, ?_⟩
  · rw [List.map_map]
    exact List.map_congr_left fun x _ => Entry.line_row _ x
  · have count := Entry.failures_rows limits.maxLength (xs.map fun x => (x, x))
    rw [List.map_map, List.countP_map] at count
    exact count
  · rw [Console.entries_intercalate single, Console.interact_eq session room]
  · intro path column text sheet cells read found
    refine ⟨_, Batch.run_eq sound room path read found, ?_⟩
    rw [List.map_map]
    exact List.map_congr_left fun (label, x) _ => congrArg (label, ·) (Entry.cells_row _ x label)

theorem Entry.outcome_two : outcome 2 "2" = .ok 2 := by
  have finite : Float.isFinite 2 := by decide
  have value := evaluate_shown finite
  rw [show display 2 = "2" by decide +kernel, show shown 2 = 2 by decide] at value
  rw [outcome, show GlyphMap.standard.normalize "2" = "2" by decide, Input.verdict_text (by decide),
    verdict_of_evaluate value]

theorem Entry.outcome_sum : outcome 2 "1+1" = .error (.lex .tooLong) := by
  rw [outcome, show GlyphMap.standard.normalize "1+1" = "1+1" by decide, Input.verdict]
  exact if_pos (by decide)

theorem front_ends_agree_short :
    0 ≤ (⟨1, 2⟩ : Limits).cacheSize ∧ ∃ e s,
      e = Evaluator.run { limits := ⟨1, 2⟩ }
        ([.evaluate (.text "2"), .many [(0, .text "1+"), (1, .other ())]] :
          List (Evaluator.Command Nat Unit)) ∧
      s = Session.run { evaluator := e, input := "7", error := some .nonFinite }
        [.press "+", .calculate, .press "3"] ∧
      (∃ rows, (Console.answer e ["2", "1+1"]).1 = .ok rows ∧
        rows.map Console.line = ["2 = 2", "1+1 = Error (expression too long)"] ∧
        failures rows = 1) ∧
      (Console.interact s (Console.entries "2\n\n 1+1\t\nexit\n3")).1 = .ok ["2", "Error"] ∧
      ∃ rows, (Batch.run e "sums" (some "x") (some "x\n2\n1+1")).1 = .ok rows ∧
        rows.map (fun r => (r.label, r.expression, r.result?, r.error?)) =
          [(.place 0, .text "2", some 2, none),
            (.place 1, .text "1+1", none, some "expression too long")] := by
  refine ⟨by decide, _, _, rfl, rfl, ?_⟩
  obtain ⟨-, expressions, lines, -, -, columns⟩ := @front_ends_agree Nat Unit ⟨1, 2⟩ (by decide)
    [.evaluate (.text "2"), .many [(0, .text "1+"), (1, .other ())]] "7" (some .nonFinite)
    [.press "+", .calculate, .press "3"] _ _ rfl rfl
  have shows : display 2 = "2" := by decide +kernel
  refine ⟨?_, ?_, ?_⟩
  · obtain ⟨rows, answer, printed, failed⟩ := expressions ["2", "1+1"]
    refine ⟨rows, answer, ?_, ?_⟩
    · rw [printed]
      simp only [List.map_cons, List.map_nil, Entry.printed, Entry.outcome_two, Entry.outcome_sum,
        shows]
      decide
    · rw [failed]
      simp [Entry.outcome_two, Entry.outcome_sum, Except.isOk, Except.toBool]
  · have text : "2\n\n 1+1\t\nexit\n3" = "\n".intercalate ["2", "", " 1+1\t", "exit", "3"] := by
      decide
    rw [text, lines _ (by decide),
      show Console.admitted ["2", "", " 1+1\t", "exit", "3"] = ["2", "1+1"] by decide]
    simp only [List.map_cons, List.map_nil, Entry.displayed, Entry.outcome_two, Entry.outcome_sum,
      shows]
  · have plain : ∀ l ∈ [['x'], ['2'], ['1', '+', '1']], Csv.IsPlain l := by
      simp only [List.forall_mem_cons, List.not_mem_nil, false_implies, implies_true, and_true]
      refine ⟨⟨?_, ?_, ?_, ?_⟩, ⟨?_, ?_, ?_, ?_⟩, ⟨?_, ?_, ?_, ?_⟩⟩ <;>
        simp [Csv.isFieldEnd, Csv.isLineEnd]
    obtain ⟨rows, answer, cells⟩ := columns "sums" "x" "x\n2\n1+1" _
      [(.place 0, "2"), (.place 1, "1+1")] (Csv.read_column plain) (by decide)
    refine ⟨rows, answer, ?_⟩
    rw [cells]
    simp only [List.map_cons, List.map_nil, Entry.cells, Entry.outcome_two, Entry.outcome_sum]
    rw [show GlyphMap.standard.normalize "2" = "2" by decide,
      show GlyphMap.standard.normalize "1+1" = "1+1" by decide]
    rfl

end Reckon
