import Reckon.Proofs.Outcomes
import Reckon.Proofs.Recency

namespace Reckon

namespace Recent

/-- The least recent entries are dropped one by one, as long as there are more than `size`: the
result with what is left. -/
inductive Evicts (size : Int) : Recent → Except Failure Unit → Recent → Prop
  | stop (fits : (r.length : Int) ≤ size) : Evicts size r (.ok ()) r
  | drop (full : size < (entry :: rest).length) :
    Evicts size rest o left → Evicts size (entry :: rest) o left
  | fail (full : size < ([] : Recent).length) : Evicts size [] (.error .nothingToDrop) []

variable {size : Int} {r left left' : Recent}

theorem Evicts.of_nonneg (room : 0 ≤ size) (r : Recent) :
    Evicts size r (.ok ()) (r.rtake size.toNat) := by
  induction r with
  | nil =>
    rw [rtake_of_length_le (Nat.zero_le _)]
    exact .stop (by simpa using room)
  | cons entry rest ih =>
    by_cases fits : ((entry :: rest).length : Int) ≤ size
    · rw [rtake_of_length_le (by omega)]
      exact .stop fits
    · have full : size.toNat ≤ rest.length := by rw [List.length_cons] at fits; omega
      rw [← List.singleton_append, rtake_append (.inr full)]
      exact .drop (not_le.1 fits) ih

theorem Evicts.of_negative (less : size < 0) (r : Recent) :
    Evicts size r (.error .nothingToDrop) [] := by
  induction r with
  | nil => exact .fail less
  | cons entry rest ih => exact .drop (less.trans_le (Int.natCast_nonneg _)) ih

theorem Evicts.unique (h : Evicts size r o left) (h' : Evicts size r o' left') :
    o = o' ∧ left = left' := by
  induction h with
  | stop fits =>
    cases h' with
    | stop => exact ⟨rfl, rfl⟩
    | drop full | fail full => exact absurd fits full.not_ge
  | drop full _ ih =>
    cases h' with
    | stop fits => exact absurd fits full.not_ge
    | drop _ h' => exact ih h'
  | fail full =>
    cases h' with
    | stop fits => exact absurd fits full.not_ge
    | fail => exact ⟨rfl, rfl⟩

end Recent

namespace Input

variable {limits : Limits} {x : Input α}

theorem answer_of_value (less : limits.cacheSize < 0) (value : x.verdict limits.maxLength = .ok v) :
    x.answer limits = .error .nothingToDrop := by
  rw [answer, value]
  exact if_pos less

theorem answer_of_error (error : x.verdict limits.maxLength = .error f) :
    x.answer limits = .error (.evaluation f) := by
  rw [answer, error]

def hasValue (maxLength : Int) (x : Input α) : Bool := (x.verdict maxLength).isOk

theorem hasValue_of_value {maxLength : Int} (value : x.verdict maxLength = .ok v) :
    x.hasValue maxLength = true := by
  rw [hasValue, value]
  rfl

theorem hasValue_of_error {maxLength : Int} (error : x.verdict maxLength = .error f) :
    x.hasValue maxLength = false := by
  rw [hasValue, error]
  rfl

/-- The inputs that are looked at where no value can be kept: those up to the first with a value. -/
def attempted (maxLength : Int) : List (Input α) → List (Input α)
  | [] => []
  | x :: rest => x :: if x.hasValue maxLength then [] else attempted maxLength rest

end Input

namespace Evaluator

variable {limits : Limits} {e : Evaluator}

theorem keep_of_evicts (h : Recent.Evicts e.limits.cacheSize (e.recent.push s v) o left) :
    e.keep s v = (o.map fun _ => v, { e with recent := left }) := by
  rw [keep, Recent.trim]
  by_cases less : e.limits.cacheSize < 0
  · obtain ⟨rfl, rfl⟩ := h.unique (.of_negative less _)
    rw [if_pos less]
    rfl
  · obtain ⟨rfl, rfl⟩ := h.unique (.of_nonneg (not_lt.1 less) _)
    rw [if_neg less]
    rfl

theorem keep_of_negative (e : Evaluator) (less : e.limits.cacheSize < 0) (s : String) (v : Float) :
    e.keep s v = (.error .nothingToDrop, { e with recent := [] }) :=
  keep_of_evicts (.of_negative less _)

def Command.attempted (maxLength : Int) : Command β α → List (Input α)
  | .evaluate x | .attempt x => [x]
  | .many xs => Input.attempted maxLength (xs.map (·.2))
  | .clear => []

def attemptedSince (maxLength : Int) (past : List (Input α)) : List (Command β α) → List (Input α)
  | [] => past
  | .clear :: cs => attemptedSince maxLength [] cs
  | c :: cs => attemptedSince maxLength (past ++ c.attempted maxLength) cs

def Command.loss (maxLength : Int) : Command β α → Except Failure (Answer β α)
  | .evaluate x => match x.verdict maxLength with
    | .ok _ => .error .nothingToDrop
    | .error f => .error (.evaluation f)
  | .attempt x => match x.verdict maxLength with
    | .ok _ => .error .nothingToDrop
    | .error f => .ok (.outcome (.error f))
  | .many xs =>
    if xs.any fun x => x.2.hasValue maxLength then .error .nothingToDrop
    else .ok (.rows (xs.map fun x => ⟨x.1, x.2, x.2.verdict maxLength⟩))
  | .clear => .ok .done

theorem rows_of_negative (less : limits.cacheSize < 0) (xs : List (β × Input α)) :
    rows limits xs = if xs.any fun x => x.2.hasValue limits.maxLength
      then .error .nothingToDrop
      else .ok (xs.map fun x => ⟨x.1, x.2, x.2.verdict limits.maxLength⟩) := by
  induction xs with
  | nil => rfl
  | cons x xs ih =>
    rw [rows, List.any_cons]
    cases value : x.2.verdict limits.maxLength with
    | ok v =>
      rw [Input.answer_of_value less value, Input.hasValue_of_value value]
      rfl
    | error f =>
      rw [Input.answer_of_error value, Input.hasValue_of_error value, Bool.false_or, ih]
      by_cases lost : xs.any fun x => x.2.hasValue limits.maxLength
      · rw [if_pos lost, if_pos lost]
        rfl
      · rw [if_neg lost, if_neg lost, List.map_cons, value]
        rfl

theorem Command.answer_eq_loss (less : limits.cacheSize < 0) (c : Command β α) :
    c.answer limits = c.loss limits.maxLength := by
  cases c with
  | evaluate x | attempt x =>
    rw [answer, loss]
    cases value : x.verdict limits.maxLength with
    | ok v => rw [Input.answer_of_value less value]; rfl
    | error f => rw [Input.answer_of_error value]; rfl
  | many xs =>
    rw [answer, loss, rows_of_negative less]
    split <;> rfl
  | clear => rfl

/-- An evaluator with less than no room, which has looked at the inputs of `past`. -/
structure Loses (limits : Limits) (past : List (Input α)) (e : Evaluator) : Prop where
  limits_eq : e.limits = limits
  empty : e.recent = []
  hits : e.hits = 0
  misses : e.misses = past.countP (!·.rejected limits.maxLength)

namespace Loses

variable {past : List (Input α)}

theorem new (limits : Limits) : Loses limits ([] : List (Input α)) { limits } :=
  ⟨rfl, rfl, rfl, rfl⟩

theorem request (h : e.Loses limits past) (less : limits.cacheSize < 0) (x : Input α) :
    e.request x = (x.answer limits,
      { e with misses := e.misses + (!x.rejected limits.maxLength).toNat }) := by
  obtain ⟨rfl, empty, -, -⟩ := h
  cases x with
  | other a => rfl
  | text s =>
    rw [Evaluator.request, tooLong, Input.answer, Input.verdict, Input.rejected]
    by_cases long : e.limits.maxLength < s.length
    · simp [long, lexed, Except.mapError]
    · simp only [long, decide_false, Bool.false_eq_true, ↓reduceIte, empty, Recent.get?,
        List.lookup_nil, evaluate_eq_verdict, Bool.not_false, Bool.toNat_true]
      cases verdict s with
      | error f => rfl
      | ok v =>
        simp only [Except.mapError, less, ↓reduceIte]
        exact keep_of_negative { e with recent := [], misses := e.misses + 1 } less s v

theorem step (h : e.Loses limits past) (less : limits.cacheSize < 0) (x : Input α) :
    (e.request x).2.Loses limits (past ++ [x]) := by
  rw [h.request less]
  refine ⟨h.limits_eq, h.empty, h.hits, ?_⟩
  rw [List.countP_append, List.countP_singleton, ← h.misses]
  cases x.rejected limits.maxLength <;> rfl

theorem many (h : e.Loses limits past) (less : limits.cacheSize < 0) (xs : List (β × Input α)) :
    (e.many xs).2.Loses limits (past ++ Input.attempted limits.maxLength (xs.map (·.2))) := by
  induction xs generalizing e past with
  | nil =>
    rw [List.map_nil, Input.attempted, List.append_nil]
    exact h
  | cons x xs ih =>
    obtain ⟨label, x⟩ := x
    have next := h.step less x
    rw [Evaluator.many, attempt, List.map_cons, Input.attempted, List.append_cons]
    rw [h.request less] at next ⊢
    cases value : x.verdict limits.maxLength with
    | ok v =>
      rw [Input.answer_of_value less value, Input.hasValue_of_value value, if_pos rfl,
        List.append_nil]
      exact next
    | error f =>
      rw [Input.answer_of_error value, Input.hasValue_of_error value]
      exact ih next

theorem perform (h : e.Loses limits past) (less : limits.cacheSize < 0) (c : Command β α) :
    (e.perform c).2.Loses limits (attemptedSince limits.maxLength past [c]) := by
  cases c with
  | evaluate x | attempt x => exact h.step less x
  | many xs => exact h.many less xs
  | clear => exact ⟨h.limits_eq, rfl, rfl, rfl⟩

theorem run (h : e.Loses limits past) (less : limits.cacheSize < 0) (cs : List (Command β α)) :
    (e.run cs).Loses limits (attemptedSince limits.maxLength past cs) := by
  induction cs generalizing e past with
  | nil => exact h
  | cons c cs ih =>
    have next := ih (h.perform less c)
    cases c <;> exact next

end Loses

/-- The dropping ends whatever is kept and whatever the size is, and in one way: with as many of the
last entries as there is room for, or where there is less than no room with none and a failed look
into an empty store. In the second case, after any commands nothing is kept and no request was a
hit; the misses are the inputs that were looked at and not refused, and those of a list are looked
at up to the first with a value. A value is lost with that failure, also one that is asked for as an
outcome or in a list, and an error is told as where there is room. -/
theorem evicts_all (limits : Limits) (less : limits.cacheSize < 0) (cs : List (Command β α)) :
    (∀ (size : Int) (r : Recent),
      (0 ≤ size → r.Evicts size (.ok ()) (r.rtake size.toNat) ∧
        (r.rtake size.toNat).length = min r.length size.toNat) ∧
      (size < 0 → r.Evicts size (.error .nothingToDrop) []) ∧
      ∀ o o' left left', r.Evicts size o left → r.Evicts size o' left' → o = o' ∧ left = left') ∧
    (∀ (e : Evaluator) s v o left, (e.recent.push s v).Evicts e.limits.cacheSize o left →
      e.keep s v = (o.map fun _ => v, { e with recent := left })) ∧
    (run { limits } cs).recent = [] ∧ (run { limits } cs).hits = 0 ∧
    (run { limits } cs).misses =
      (attemptedSince limits.maxLength [] cs).countP (!·.rejected limits.maxLength) ∧
    answers { limits } cs = cs.map (Command.loss limits.maxLength) ∧
    (∀ s, evaluate s = (Reckon.verdict s).mapError .evaluation) ∧
    ∀ (x : Input α) f, x.verdict limits.maxLength = .error f →
      ((run { limits } cs).request x).1 = .error (.evaluation f) ∧
      ∀ size, 0 ≤ size → ∀ ds : List (Command β α),
        ((run { limits := { limits with cacheSize := size } } ds).request x).1 =
          .error (.evaluation f) := by
  have lost := (Loses.new limits).run less cs
  refine ⟨fun size r => ⟨fun room => ⟨.of_nonneg room r, ?_⟩, fun less => .of_negative less r,
    fun o o' left left' h h' => h.unique h'⟩, fun e s v o left => keep_of_evicts, lost.empty,
    lost.hits, lost.misses, ?_, evaluate_eq_verdict, fun x f error => ⟨?_, fun size room ds => ?_⟩⟩
  · rw [List.rtake, List.length_drop]
    omega
  · rw [(Sound.new limits).answers cs]
    exact List.map_congr_left fun c _ => c.answer_eq_loss less
  · rw [lost.request less, Input.answer_of_error error]
  · have sound := (Sound.new { limits with cacheSize := size }).run ds
    exact (sound.request x).1.trans (Input.answer_of_error error)

def lostRequests : List (Command Nat Unit) :=
  [.evaluate (.text "1"), .attempt (.text "1+1+1"),
    .many [(0, .text ""), (1, .text "2"), (2, .text "1")]]

theorem evicts_all_unreached :
    (⟨-1, 3⟩ : Limits).cacheSize < 0 ∧ (run { limits := ⟨-1, 3⟩ } lostRequests).recent = [] ∧
      (run { limits := ⟨-1, 3⟩ } lostRequests).hits = 0 ∧
      (run { limits := ⟨-1, 3⟩ } lostRequests).misses = 3 ∧
      answers { limits := ⟨-1, 3⟩ } lostRequests =
        [.error .nothingToDrop, .ok (.outcome (.error (.lex .tooLong))),
          .error .nothingToDrop] := by
  have one : (.text "1" : Input Unit).verdict 3 = .ok 1 := by
    rw [Input.verdict_text (by decide)]
    exact verdict_of_spells (s := "1") spells_one (by decide +kernel)
  have two : (.text "2" : Input Unit).verdict 3 = .ok 2 := by
    rw [Input.verdict_text (by decide)]
    exact verdict_of_spells (s := "2") spells_two (by decide +kernel)
  have empty : (.text "" : Input Unit).verdict 3 = .error (.eval (.leftover 0)) := by
    rw [Input.verdict_text (by decide), verdict_eq_error, ← evaluate_eq_error, evaluate_empty]
  have long : (.text "1+1+1" : Input Unit).verdict 3 = .error (.lex .tooLong) := by
    rw [Input.verdict]
    exact if_pos (by decide)
  obtain ⟨-, -, recent, hits, misses, answers, -, -⟩ :=
    evicts_all ⟨-1, 3⟩ (by decide) lostRequests
  refine ⟨by decide, recent, hits, misses.trans ?_, answers.trans ?_⟩
  · simp [attemptedSince, lostRequests, Command.attempted, Input.attempted,
      Input.hasValue_of_error empty, Input.hasValue_of_value two]
    decide
  · simp [lostRequests, Command.loss, one, long, Input.hasValue_of_error empty,
      Input.hasValue_of_value two]

end Evaluator

end Reckon
