import Reckon.Evaluator
import Reckon.Proofs.Failures

namespace Reckon

/-- The value of `s`, or its error; it fails in no other way. -/
def verdict (s : String) : Except EvaluationError Float :=
  match h : evaluate s with
  | .ok v => .ok v
  | .error (.evaluation e) => .error e
  | .error (.unlisted _) | .error .nothingToDrop =>
    False.elim (by obtain ⟨e, eq⟩ := evaluate_error h; cases eq)

theorem evaluate_eq_verdict (s : String) : evaluate s = (verdict s).mapError .evaluation := by
  unfold verdict
  split
  · assumption
  · assumption
  all_goals
    rename_i h
    obtain ⟨e, eq⟩ := evaluate_error h
    cases eq

theorem verdict_of_evaluate (h : evaluate s = .ok v) : verdict s = .ok v := by
  have eq := evaluate_eq_verdict s
  rw [h] at eq
  cases value : verdict s with
  | error e => rw [value] at eq; cases eq
  | ok w => rw [value] at eq; cases eq; rfl

namespace Input

def verdict (maxLength : Int) : Input α → Except EvaluationError Float
  | .other _ => .error (.lex .notText)
  | .text s => if maxLength < s.length then .error (.lex .tooLong) else Reckon.verdict s

/-- The answer for given limits. With less than no room every value is lost. -/
def answer (limits : Limits) (x : Input α) : Except Failure Float :=
  match x.verdict limits.maxLength with
  | .error e => .error (.evaluation e)
  | .ok v => if limits.cacheSize < 0 then .error .nothingToDrop else .ok v

theorem answer_eq_verdict {limits : Limits} (room : 0 ≤ limits.cacheSize) (x : Input α) :
    x.answer limits = (x.verdict limits.maxLength).mapError .evaluation := by
  rw [answer]
  cases x.verdict limits.maxLength with
  | error e => rfl
  | ok v => exact if_neg (Int.not_lt.2 room)

theorem answer_eq_ok {limits : Limits} {x : Input α} :
    x.answer limits = .ok v ↔ 0 ≤ limits.cacheSize ∧ x.verdict limits.maxLength = .ok v := by
  rw [answer, ← Int.not_lt]
  cases x.verdict limits.maxLength with
  | error e => simp
  | ok w => by_cases room : limits.cacheSize < 0 <;> simp [room]

theorem verdict_text {maxLength : Int} {s : String} (short : s.length ≤ maxLength) :
    (.text s : Input α).verdict maxLength = Reckon.verdict s :=
  if_neg (Int.not_lt.2 short)

theorem evaluate_of_verdict {maxLength : Int} {s : String}
    (h : (.text s : Input α).verdict maxLength = .ok v) : Reckon.evaluate s = .ok v := by
  rw [verdict] at h
  split at h
  · cases h
  · rw [evaluate_eq_verdict, h]
    rfl

end Input

theorem outcome_eq_ok {r : Except Failure Float} : outcome r = .ok (.ok v) ↔ r = .ok v := by
  rcases r with (e | s | _) | w <;> simp [outcome]

namespace Recent

variable {r kept : Recent} {key : String} {entry : String × Float}

theorem mem_of_get? (h : r.get? key = some v) : (key, v) ∈ r := by
  obtain ⟨front, back, rfl, -⟩ := List.lookup_eq_some_iff.1 h
  simp

theorem mem_touch : entry ∈ r.touch key ↔ entry ∈ r := by
  by_cases h : entry.1 = key <;> simp [touch, h]

theorem trim_of_nonneg {size : Int} (h : 0 ≤ size) (r : Recent) :
    ∃ kept, r.trim size = some kept ∧ ∀ entry ∈ kept, entry ∈ r := by
  refine ⟨_, if_neg (Int.not_lt.2 h), ?_⟩
  exact fun entry => List.mem_of_mem_drop

end Recent

namespace Evaluator

/-- What is kept are values of expressions, and nothing is where there is less than no room. -/
structure Sound (limits : Limits) (e : Evaluator) : Prop where
  limits_eq : e.limits = limits
  empty : limits.cacheSize < 0 → e.recent = []
  kept : ∀ entry ∈ e.recent, verdict entry.1 = .ok entry.2

theorem Sound.new (limits : Limits) : Sound limits { limits } :=
  ⟨rfl, fun _ => rfl, by simp⟩

def rows (limits : Limits) : List (β × Input α) → Except Failure (List (Row β α))
  | [] => .ok []
  | (label, x) :: rest => do
    let o ← outcome (x.answer limits)
    return ⟨label, x, o⟩ :: (← rows limits rest)

def Command.answer (limits : Limits) : Command β α → Except Failure (Answer β α)
  | .evaluate x => (x.answer limits).map .value
  | .attempt x => (outcome (x.answer limits)).map .outcome
  | .many xs => (rows limits xs).map .rows
  | .clear => .ok .done

def answers (e : Evaluator) : List (Command β α) → List (Except Failure (Answer β α))
  | [] => []
  | c :: cs => (e.perform c).1 :: answers (e.perform c).2 cs

variable {limits : Limits} {e : Evaluator}

theorem Sound.keep (h : e.Sound limits) (value : verdict s = .ok v) :
    (e.keep s v).1 = (if limits.cacheSize < 0 then .error .nothingToDrop else .ok v) ∧
      (e.keep s v).2.Sound limits := by
  obtain ⟨rfl, empty, kept⟩ := h
  by_cases room : e.limits.cacheSize < 0
  · have lost : e.keep s v = (.error .nothingToDrop, { e with recent := [] }) := by
      simp [Evaluator.keep, Recent.trim, room]
    rw [lost, if_pos room]
    exact ⟨rfl, rfl, fun _ => rfl, by simp⟩
  · obtain ⟨rest, trim, sub⟩ := Recent.trim_of_nonneg (Int.not_lt.1 room) (e.recent.push s v)
    simp only [Evaluator.keep, trim, room, if_false]
    refine ⟨trivial, rfl, fun less => absurd less room, fun entry mem => ?_⟩
    rcases List.mem_append.1 (sub entry mem) with old | new
    · exact kept entry old
    · rw [List.mem_singleton.1 new, value]

theorem Sound.request (h : e.Sound limits) (x : Input α) :
    (e.request x).1 = x.answer limits ∧ (e.request x).2.Sound limits := by
  cases x with
  | other a => exact ⟨rfl, h⟩
  | text s =>
    obtain ⟨rfl, empty, kept⟩ := h
    rw [Evaluator.request, tooLong, Input.answer, Input.verdict]
    by_cases long : e.limits.maxLength < s.length
    · simpa [long] using ⟨rfl, rfl, empty, kept⟩
    · simp only [long, decide_false, Bool.false_eq_true, ↓reduceIte]
      split
      -- What is found is the value of its text; a miss adds such a value or nothing.
      · rename_i v found
        have mem := Recent.mem_of_get? found
        have room : ¬e.limits.cacheSize < 0 := fun less => by simp [empty less] at mem
        refine ⟨by simp [kept _ mem, room], rfl, fun less => absurd less room, ?_⟩
        exact fun entry mem => kept entry (Recent.mem_touch.1 mem)
      · rw [evaluate_eq_verdict]
        have missed : Sound e.limits { e with misses := e.misses + 1 } := ⟨rfl, empty, kept⟩
        cases value : verdict s with
        | ok v => exact missed.keep value
        | error f => exact ⟨rfl, missed⟩

theorem Sound.attempt (h : e.Sound limits) (x : Input α) :
    (e.attempt x).1 = outcome (x.answer limits) ∧ (e.attempt x).2.Sound limits := by
  obtain ⟨value, sound⟩ := h.request x
  exact ⟨congrArg outcome value, sound⟩

theorem Sound.many (h : e.Sound limits) (xs : List (β × Input α)) :
    (e.many xs).1 = rows limits xs ∧ (e.many xs).2.Sound limits := by
  induction xs generalizing e with
  | nil => exact ⟨rfl, h⟩
  | cons x xs ih =>
    obtain ⟨label, x⟩ := x
    obtain ⟨value, sound⟩ := h.attempt x
    rw [Evaluator.many, rows, ← value]
    cases asked : e.attempt x with
    | mk o next =>
      rw [asked] at sound
      cases o with
      | error f => exact ⟨rfl, sound⟩
      | ok o =>
        obtain ⟨rest, sound⟩ := ih sound
        refine ⟨?_, sound⟩
        rw [← rest]
        dsimp only
        cases (next.many xs).1 <;> rfl

theorem Sound.perform (h : e.Sound limits) (c : Command β α) :
    (e.perform c).1 = c.answer limits ∧ (e.perform c).2.Sound limits := by
  cases c with
  | evaluate x =>
    obtain ⟨value, sound⟩ := h.request x
    exact ⟨congrArg (Except.map Answer.value) value, sound⟩
  | attempt x =>
    obtain ⟨value, sound⟩ := h.attempt x
    exact ⟨congrArg (Except.map Answer.outcome) value, sound⟩
  | many xs =>
    obtain ⟨value, sound⟩ := h.many xs
    exact ⟨congrArg (Except.map Answer.rows) value, sound⟩
  | clear => exact ⟨rfl, h.limits_eq, fun _ => rfl, by simp [Evaluator.perform, clear]⟩

theorem Sound.answers (h : e.Sound limits) (cs : List (Command β α)) :
    e.answers cs = cs.map (Command.answer limits) := by
  induction cs generalizing e with
  | nil => rfl
  | cons c cs ih =>
    obtain ⟨answer, sound⟩ := h.perform c
    rw [Evaluator.answers, answer, ih sound, List.map_cons]

theorem Sound.run (h : e.Sound limits) (cs : List (Command β α)) : (e.run cs).Sound limits := by
  induction cs generalizing e with
  | nil => exact h
  | cons c cs ih => exact ih (h.perform c).2

def Command.verdict (maxLength : Int) : Command β α → Except Failure (Answer β α)
  | .evaluate x => ((x.verdict maxLength).mapError .evaluation).map .value
  | .attempt x => .ok (.outcome (x.verdict maxLength))
  | .many xs => .ok (.rows (xs.map fun x => ⟨x.1, x.2, x.2.verdict maxLength⟩))
  | .clear => .ok .done

theorem outcome_answer (room : 0 ≤ limits.cacheSize) (x : Input α) :
    outcome (x.answer limits) = .ok (x.verdict limits.maxLength) := by
  rw [Input.answer_eq_verdict room]
  cases x.verdict limits.maxLength <;> rfl

theorem rows_eq_map (room : 0 ≤ limits.cacheSize) (xs : List (β × Input α)) :
    rows limits xs = .ok (xs.map fun x => ⟨x.1, x.2, x.2.verdict limits.maxLength⟩) := by
  induction xs with
  | nil => rfl
  | cons x xs ih =>
    rw [rows, outcome_answer room, ih]
    rfl

theorem Command.answer_eq_verdict (room : 0 ≤ limits.cacheSize) (c : Command β α) :
    c.answer limits = c.verdict limits.maxLength := by
  cases c with
  | evaluate x => exact congrArg (Except.map Answer.value) (x.answer_eq_verdict room)
  | attempt x => exact congrArg (Except.map Answer.outcome) (outcome_answer room x)
  | many xs => exact congrArg (Except.map Answer.rows) (rows_eq_map room xs)
  | clear => rfl

/-- A new evaluator answers each command by the verdicts on its expressions, and these are what the
expressions evaluate to. -/
theorem answers_eq_verdict (limits : Limits) (room : 0 ≤ limits.cacheSize)
    (cs : List (Command β α)) :
    answers { limits } cs = cs.map (Command.verdict limits.maxLength) ∧
      ∀ s, evaluate s = (Reckon.verdict s).mapError .evaluation := by
  refine ⟨?_, evaluate_eq_verdict⟩
  rw [(Sound.new limits).answers cs]
  exact List.map_congr_left fun c _ => c.answer_eq_verdict room

theorem answers_one_kept :
    0 ≤ (⟨1, 3⟩ : Limits).cacheSize ∧
      answers { limits := ⟨1, 3⟩ } ([.evaluate (.text "1"), .attempt (.text "1+1+1"),
        .many [(0, .text "2"), (1, .other ())], .evaluate (.text "1")] : List (Command Nat Unit)) =
      [.evaluate (.text "1"), .attempt (.text "1+1+1"), .many [(0, .text "2"), (1, .other ())],
        .evaluate (.text "1")].map (Command.verdict 3) :=
  ⟨by decide, (answers_eq_verdict ⟨1, 3⟩ (by decide) _).1⟩

end Evaluator

end Reckon
