import Reckon.Session
import Reckon.Proofs.Outcomes

namespace Reckon.Session

variable {s t : Session} {c d : Command}

/-- What makes a session forget the error before. -/
inductive Event
  | typed : Event
  | cleared : Event
  | calculated : Except EvaluationError Float → Event

def Event.error? : Event → Option EvaluationError
  | .calculated (.error e) => some e
  | _ => none

def pressed? (s : Session) (value : String) : Option Event :=
  if (s.press value).1 then some .typed else none

def calculated? (s : Session) : Option Event :=
  (s.evaluator.attempt (.text s.expression : Input Unit)).1.toOption.map .calculated

def event? (s : Session) : Command → Option Event
  | .press value => s.pressed? value
  | .pressFunction name => (s.pressFunction name).1.toOption.map fun _ => .typed
  | .clear => some .cleared
  | .calculate => s.calculated?
  | .delete | .setInput _ => none
  | .key k => match s.stroke k with
    | .press => s.pressed? k
    | .clear => some .cleared
    | .calculate => s.calculated?
    | .delete | .ignored => none

def history (s : Session) : List Command → List Event
  | [] => []
  | c :: cs => (s.event? c).toList ++ (s.perform c).2.history cs

namespace Command

def assigns : Command → Bool
  | .setInput _ => true
  | _ => false

def clears : Command → Bool
  | .clear => true
  | .key k => k ∈ ["c", "C", "Escape"]
  | _ => false

end Command

theorem press_error (s : Session) (value : String) :
    (s.press value).2.error = ((s.pressed? value).map Event.error?).getD s.error := by
  rw [pressed?, press]
  cases s.accepts value <;> rfl

theorem calculate_error (s : Session) :
    s.calculate.2.error = (s.calculated?.map Event.error?).getD s.error := by
  rw [calculated?, calculate]
  cases s.evaluator.attempt (.text s.expression : Input Unit) with
  | mk o next => rcases o with f | e | v <;> rfl

theorem perform_error (s : Session) (c : Command) :
    (s.perform c).2.error = ((s.event? c).map Event.error?).getD s.error := by
  cases c with
  | press value => exact s.press_error value
  | pressFunction name =>
    rw [perform, event?, pressFunction]
    cases Func.ofText? name <;> rfl
  | calculate => exact s.calculate_error
  | delete | clear | setInput => rfl
  | key k =>
    rw [perform, key, event?]
    cases s.stroke k with
    | press => exact s.press_error k
    | calculate => exact s.calculate_error
    | delete | clear | ignored => rfl

/-- The error of a session is that of the latest event. -/
theorem run_error (s : Session) (cs : List Command) :
    (s.run cs).error = ((s.history cs).getLast?.map Event.error?).getD s.error := by
  induction cs generalizing s with
  | nil => rfl
  | cons c cs ih =>
    rw [run, List.foldl_cons, ← run, ih, perform_error, history, List.getLast?_append]
    cases ((s.perform c).2.history cs).getLast? with
    | none => cases s.event? c <;> rfl
    | some e => rfl

/-- With an error the input is empty. -/
def Settled (s : Session) : Prop := s.error.isSome → s.input = ""

theorem settled_of_none (h : s.error = none) : s.Settled := by
  simp [Settled, h]

theorem Settled.press (h : s.Settled) (value : String) : (s.press value).2.Settled := by
  rw [Session.press]
  split
  · exact settled_of_none rfl
  · exact h

theorem Settled.delete (h : s.Settled) : s.delete.Settled := by
  intro error
  simp [Session.delete, h error]

theorem Settled.calculate (h : s.Settled) : s.calculate.2.Settled := by
  rw [Session.calculate]
  cases s.evaluator.attempt (.text s.expression : Input Unit) with
  | mk o next =>
    rcases o with f | e | v
    · exact h
    · exact fun _ => rfl
    · exact settled_of_none rfl

theorem Settled.perform (h : s.Settled) (fresh : c.assigns → s.error = none) :
    (s.perform c).2.Settled := by
  cases c with
  | press value => exact h.press value
  | pressFunction name =>
    rw [Session.perform, pressFunction]
    split
    · exact settled_of_none rfl
    · exact h
  | delete => exact h.delete
  | clear => exact settled_of_none rfl
  | calculate => exact h.calculate
  | setInput input => exact settled_of_none (fresh rfl)
  | key k =>
    rw [Session.perform, key]
    cases s.stroke k with
    | press => exact h.press k
    | delete => exact h.delete
    | clear => exact settled_of_none rfl
    | calculate => exact h.calculate
    | ignored => exact h

theorem error_of_clears (s : Session) (h : c.clears) : (s.perform c).2.error = none := by
  cases c with
  | clear => rfl
  | key k =>
    have stroke : s.stroke k = .clear := by
      simp only [Command.clears, decide_eq_true_eq, List.mem_cons, List.not_mem_nil, or_false] at h
      rcases h with rfl | rfl | rfl <;> rfl
    rw [perform, key, stroke]
    rfl
  | press | pressFunction | delete | calculate | setInput => cases h

theorem Settled.run {cs : List Command} (h : s.Settled)
    (assigns : cs.IsChain fun c d => d.assigns → c.clears)
    (fresh : ∀ c ∈ cs.head?, c.assigns → s.error = none) : (s.run cs).Settled := by
  induction cs generalizing s with
  | nil => exact h
  | cons c cs ih =>
    obtain ⟨next, assigns⟩ := List.isChain_cons.1 assigns
    refine ih (h.perform (fresh c rfl)) assigns fun d mem assigned => ?_
    exact s.error_of_clears (next d mem assigned)

theorem display_of_error (h : s.error.isSome) (empty : s.input = "") : s.display = "Error" := by
  simp [display, h, empty, labels]

theorem display_of_none (h : s.error = none) :
    s.display = if s.input = "" then "0" else s.input := by
  simp [display, h, labels]

theorem press_refused {value : String} (h : (s.press value).1 = false) : (s.press value).2 = s := by
  rw [press] at h ⊢
  split at h
  · cases h
  · rename_i refused
    rw [if_neg refused]

theorem pressFunction_refused {name : String} (h : (s.pressFunction name).1 = .error e) :
    (s.pressFunction name).2 = s := by
  rw [pressFunction] at h ⊢
  split at h
  · cases h
  · rfl

theorem calculate_failed (h : s.calculate.1 = .error f) :
    s.calculate.2.input = s.input ∧ s.calculate.2.error = s.error := by
  rw [calculate] at h ⊢
  cases attempted : s.evaluator.attempt (.text s.expression : Input Unit) with
  | mk o next =>
    rw [attempted] at h
    rcases o with f | e | v
    · exact ⟨rfl, rfl⟩
    · cases h
    · cases h

theorem perform_failed (h : (s.perform c).1 = .error (.failure f)) :
    (s.perform c).2.input = s.input ∧ (s.perform c).2.error = s.error := by
  cases c with
  | calculate =>
    obtain ⟨f, failed, -⟩ := mapError_eq_error.1 h
    exact calculate_failed (map_eq_error.1 failed)
  | key k =>
    rw [perform, key] at h ⊢
    obtain ⟨f, failed, -⟩ := mapError_eq_error.1 h
    have failed := map_eq_error.1 failed
    cases stroke : s.stroke k with
    | calculate =>
      rw [stroke] at failed
      exact calculate_failed (map_eq_error.1 failed)
    | press | delete | clear | ignored =>
      rw [stroke] at failed
      cases failed
  | pressFunction name => cases (mapError_eq_error.1 h).choose_spec.2
  | press | delete | clear | setInput => cases h

/-- A new session, whose input is assigned only when it has just been cleared, has the error of its
latest event, shown in place of an empty input. What is refused, or left by a failed lookup, changes
neither input nor error. -/
theorem shows_latest (evaluator : Evaluator) (glyphs : GlyphMap) (cs : List Command) (s : Session)
    (assigns : cs.IsChain fun c d => d.assigns → c.clears)
    (made : s = Session.run { evaluator, glyphs } cs) :
    (∀ e, s.error = some e ↔
      (history { evaluator, glyphs } cs).getLast? = some (.calculated (.error e))) ∧
    (s.error.isSome → s.input = "" ∧ s.display = "Error") ∧
    (s.error = none → s.display = if s.input = "" then "0" else s.input) ∧
    (∀ value, (s.perform (.press value)).1 = .ok (.accepted false) →
      (s.perform (.press value)).2 = s) ∧
    (∀ k, s.stroke k = .press → (s.press k).1 = false → (s.perform (.key k)).2 = s) ∧
    (∀ name e, (s.perform (.pressFunction name)).1 = .error e →
      (s.perform (.pressFunction name)).2 = s) ∧
    ∀ c f, (s.perform c).1 = .error (.failure f) →
      (s.perform c).2.input = s.input ∧ (s.perform c).2.error = s.error := by
  have settled : s.Settled := by
    rw [made]
    exact (settled_of_none rfl).run assigns fun _ _ _ => rfl
  refine ⟨fun e => ?_, fun error => ⟨settled error, display_of_error error (settled error)⟩,
    display_of_none, fun value refused => press_refused ?_, fun k stroke refused => ?_,
    fun name e refused => ?_, fun c f => perform_failed⟩
  · rw [made, run_error]
    cases (history { evaluator, glyphs } cs).getLast? with
    | none => simp
    | some event => rcases event with _ | _ | (e' | v) <;> simp [Event.error?]
  · simpa [perform] using refused
  · rw [perform, key, stroke]
    exact press_refused refused
  · obtain ⟨unknown, pressed, -⟩ := mapError_eq_error.1 refused
    exact pressFunction_refused (map_eq_error.1 pressed)

theorem calculated_empty :
    calculated? {} = some (.calculated (.error (.eval (.leftover 0)))) := by
  have expression : expression {} = "" := by decide
  have short : Evaluator.tooLong {} "" = false := by decide
  simp [calculated?, expression, Evaluator.attempt, Evaluator.request, short, Recent.get?,
    evaluate_empty, outcome, Except.toOption]

theorem shows_latest_empty :
    ([.press "7", .key "c", .setInput "", .calculate, .delete] : List Command).IsChain
      (fun c d => d.assigns → c.clears) ∧
    ∃ s, s = Session.run {} [.press "7", .key "c", .setInput "", .calculate, .delete] ∧
      s.error = some (.eval (.leftover 0)) ∧ s.input = "" ∧ s.display = "Error" := by
  have chain : ([.press "7", .key "c", .setInput "", .calculate, .delete] : List Command).IsChain
      (fun c d => d.assigns → c.clears) := by simp [Command.assigns, Command.clears]
  obtain ⟨latest, error, -⟩ := shows_latest {} GlyphMap.standard _ _ chain rfl
  have last : (history {} [.press "7", .key "c", .setInput "", .calculate, .delete]).getLast? =
      some (.calculated (.error (.eval (.leftover 0)))) := by
    have new : ((perform {} (.press "7")).2.perform (.key "c")).2.perform (.setInput "") =
        (.ok .done, {}) := by decide
    simp only [history, new]
    rw [List.getLast?_append, List.getLast?_append, List.getLast?_append]
    simp [event?, calculated_empty]
  have stored := (latest _).2 last
  exact ⟨chain, _, rfl, stored, error (by rw [stored]; rfl)⟩

end Reckon.Session
