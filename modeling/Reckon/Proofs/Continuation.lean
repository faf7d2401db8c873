import Reckon.Session
import Reckon.Proofs.Glyphs
import Reckon.Proofs.Substitution
import Reckon.Proofs.Transparency

namespace Reckon

namespace Session

variable {limits : Limits} {s t u : Session}

structure Sound (limits : Limits) (s : Session) : Prop where
  glyphs : s.glyphs = GlyphMap.standard
  evaluator : s.evaluator.Sound limits

def Typed (s : Session) (text : String) (t : Session) : Prop :=
  ∃ error, t = { s with input := s.input ++ text, error }

theorem Typed.refl (s : Session) : s.Typed "" s :=
  ⟨s.error, by rw [String.append_empty]⟩

theorem Typed.trans (h : s.Typed a t) (h' : t.Typed b u) : s.Typed (a ++ b) u := by
  obtain ⟨error, rfl⟩ := h
  obtain ⟨error, rfl⟩ := h'
  exact ⟨error, by simp [String.append_assoc]⟩

theorem Typed.sound (h : s.Typed a t) (sound : s.Sound limits) : t.Sound limits := by
  obtain ⟨error, rfl⟩ := h
  exact ⟨sound.glyphs, sound.evaluator⟩

theorem append_typed (s : Session) (value : String) : s.Typed value (s.append value) :=
  ⟨none, rfl⟩

theorem press_typed (s : Session) (value : String) : ∃ text, s.Typed text (s.press value).2 := by
  rw [press]
  split
  · exact ⟨value, s.append_typed value⟩
  · exact ⟨"", .refl s⟩

theorem pressFunction_typed (s : Session) (name : String) :
    ∃ text, s.Typed text (s.pressFunction name).2 := by
  rw [pressFunction]
  split
  · exact ⟨_, s.append_typed _⟩
  · exact ⟨"", .refl s⟩

def Command.Types : Command → Prop
  | .press _ | .pressFunction _ => True
  | .key k => k ∉ ["Enter", "=", "Backspace", "c", "C", "Escape"]
  | .delete | .clear | .calculate | .setInput _ => False

theorem perform_typed {c : Command} (types : c.Types) (s : Session) :
    ∃ text, s.Typed text (s.perform c).2 := by
  cases c with
  | press value => exact s.press_typed value
  | pressFunction name => exact s.pressFunction_typed name
  | key k =>
    simp [Command.Types] at types
    have stroke : s.stroke k = if s.types k then .press else .ignored := by
      simp [stroke, types]
    simp only [perform, key, stroke]
    cases s.types k with
    | true => exact s.press_typed k
    | false => exact ⟨"", .refl s⟩
  | delete | clear | calculate | setInput input => cases types

theorem run_typed {cs : List Command} (types : ∀ c ∈ cs, c.Types) (s : Session) :
    ∃ text, s.Typed text (s.run cs) := by
  induction cs generalizing s with
  | nil => exact ⟨"", .refl s⟩
  | cons c cs ih =>
    rw [List.forall_mem_cons] at types
    obtain ⟨a, first⟩ := perform_typed types.1 s
    obtain ⟨b, rest⟩ := ih types.2 (s.perform c).2
    exact ⟨a ++ b, first.trans rest⟩

theorem calculate_glyphs (s : Session) : s.calculate.2.glyphs = s.glyphs := by
  rw [calculate]
  cases s.evaluator.attempt (.text s.expression : Input Unit) with
  | mk o next => rcases o with f | e | v <;> rfl

theorem calculate_sound (h : s.evaluator.Sound limits) : s.calculate.2.evaluator.Sound limits := by
  have sound := (h.attempt (.text s.expression : Input Unit)).2
  rw [calculate]
  cases asked : s.evaluator.attempt (.text s.expression : Input Unit) with
  | mk o next =>
    rw [asked] at sound
    rcases o with f | e | v <;> exact sound

theorem perform_keeps (s : Session) (c : Command) :
    (s.perform c).2 = s.calculate.2 ∨ ∃ input error, (s.perform c).2 = { s with input, error } := by
  cases c with
  | press value =>
    obtain ⟨text, error, typed⟩ := s.press_typed value
    exact .inr ⟨_, _, typed⟩
  | pressFunction name =>
    obtain ⟨text, error, typed⟩ := s.pressFunction_typed name
    exact .inr ⟨_, _, typed⟩
  | key k =>
    rw [perform, key]
    cases s.stroke k with
    | calculate => exact .inl rfl
    | press =>
      obtain ⟨text, error, typed⟩ := s.press_typed k
      exact .inr ⟨_, _, typed⟩
    | delete | clear | ignored => exact .inr ⟨_, _, rfl⟩
  | calculate => exact .inl rfl
  | delete | clear | setInput => exact .inr ⟨_, _, rfl⟩

theorem Sound.calculate (h : s.Sound limits) : s.calculate.2.Sound limits :=
  ⟨s.calculate_glyphs.trans h.glyphs, calculate_sound h.evaluator⟩

theorem Sound.perform (h : s.Sound limits) (c : Command) : (s.perform c).2.Sound limits := by
  rcases s.perform_keeps c with same | ⟨input, error, same⟩
  · exact same ▸ h.calculate
  · exact same ▸ ⟨h.glyphs, h.evaluator⟩

theorem Sound.run (h : s.Sound limits) (cs : List Command) : (s.run cs).Sound limits := by
  induction cs generalizing s with
  | nil => exact h
  | cons c cs ih => exact ih (h.perform c)

theorem Sound.new (limits : Limits) (past : List (Evaluator.Command β α)) :
    Session.Sound limits { evaluator := Evaluator.run { limits } past } :=
  ⟨rfl, (Evaluator.Sound.new limits).run past⟩

inductive Calculates (s : Session) : Except EvaluationError Float → Prop
  | value (h : s.calculate.1 = .ok (some v)) : Calculates s (.ok v)
  | error (h : s.calculate.1 = .ok none) (left : s.calculate.2.error = some e) :
    Calculates s (.error e)

theorem Sound.calculates (h : s.Sound limits) (room : 0 ≤ limits.cacheSize) :
    s.Calculates ((.text s.expression : Input Unit).verdict limits.maxLength) := by
  have asked := (h.evaluator.attempt (.text s.expression : Input Unit)).1
  rw [Evaluator.outcome_answer room] at asked
  cases attempted : s.evaluator.attempt (.text s.expression : Input Unit) with
  | mk o next =>
    rw [attempted] at asked
    cases asked
    cases verdict : (.text s.expression : Input Unit).verdict limits.maxLength with
    | error e =>
      rw [verdict] at attempted
      exact .error (by rw [Session.calculate, attempted]) (by rw [Session.calculate, attempted])
    | ok v =>
      rw [verdict] at attempted
      exact .value (by rw [Session.calculate, attempted])

theorem calculate_eq_value (h : s.evaluator.Sound limits) (value : s.calculate.1 = .ok (some v)) :
    0 ≤ limits.cacheSize ∧ evaluate s.expression = .ok v ∧
      s.calculate.2.input = Reckon.display v := by
  have asked := (h.attempt (.text s.expression : Input Unit)).1
  cases attempted : s.evaluator.attempt (.text s.expression : Input Unit) with
  | mk o next =>
    rw [attempted] at asked
    rw [Session.calculate, attempted] at value ⊢
    rcases o with f | e | w
    · cases value
    · cases value
    · cases value
      obtain ⟨room, verdict⟩ := Input.answer_eq_ok.1 (outcome_eq_ok.1 asked.symm)
      exact ⟨room, Input.evaluate_of_verdict verdict, rfl⟩

theorem Sound.of_calculate (h : s.Sound limits) (value : s.calculate.1 = .ok (some v)) :
    0 ≤ limits.cacheSize ∧ evaluate s.expression = .ok v ∧
      s.calculate.2.input = Reckon.display v :=
  calculate_eq_value h.evaluator value

theorem Sound.calculates_typed (h : s.Sound limits) (value : s.calculate.1 = .ok (some r))
    (nonzero : r ≠ -0.0) (typed : s.calculate.2.Typed text t)
    (apart : Breaks (GlyphMap.standard.normalize text).toList)
    (short : t.expression.length ≤ limits.maxLength) :
    ∃ out, t.Calculates out ∧
      Alike (evaluate ("(" ++ s.expression ++ ")" ++ GlyphMap.standard.normalize text))
        (out.mapError .evaluation) := by
  obtain ⟨room, total, shown⟩ := h.of_calculate value
  have sound := typed.sound h.calculate
  obtain ⟨-, -, -, -, -, small⟩ := evaluate_eq_ok.1 total
  have expression : t.expression = Reckon.display r ++ GlyphMap.standard.normalize text := by
    obtain ⟨error, rfl⟩ := typed
    rw [Session.expression, h.calculate.glyphs, shown, GlyphMap.normalize_append,
      GlyphMap.normalize_display small nonzero]
  refine ⟨_, sound.calculates room, ?_⟩
  rw [Input.verdict_text short, ← evaluate_eq_verdict, expression]
  exact alike_front total nonzero apart

end Session

/-- A displayed value stands for the group of its expression, anywhere in a text and, before an
operator, in front of it without parentheses. So a session goes on from a result as from the group
of the expression that gave it. -/
theorem alike_displayed :
    (∀ b r, evaluate b = .ok r → r ≠ -0.0 →
      (∀ a c, Alike (evaluate (a ++ "(" ++ b ++ ")" ++ c))
        (evaluate (a ++ "(" ++ display r ++ ")" ++ c))) ∧
      ∀ o c, Alike (evaluate ("(" ++ b ++ ")" ++ (Operator.text o ++ c)))
        (evaluate (display r ++ (o.text ++ c)))) ∧
    ∀ limits (past : List (Evaluator.Command β α)) (before typing : List Session.Command) s t r,
      s = Session.run { evaluator := Evaluator.run { limits } past } before →
      s.calculate.1 = .ok (some r) → r ≠ -0.0 →
      t = s.calculate.2.run typing → (∀ c ∈ typing, c.Types) →
      (∃ text, t.input = display r ++ text) ∧
      ∀ text o rest, t.input = display r ++ text →
        GlyphMap.standard.normalize text = Operator.text o ++ rest →
        t.expression.length ≤ limits.maxLength →
        ∃ out, t.Calculates out ∧
          Alike (evaluate ("(" ++ s.expression ++ ")" ++ GlyphMap.standard.normalize text))
            (out.mapError .evaluation) := by
  have apart (o : Operator) (c : String) : Breaks (o.text ++ c).toList := by
    rw [String.toList_append, Operator.text, String.toList_ofList]
    exact .cons _ (by cases o <;> decide)
  refine ⟨fun b r value nonzero => ⟨alike_group value nonzero, fun o c => ?_⟩, ?_⟩
  · exact alike_front value nonzero (apart o c)
  · intro limits past before typing s t r made value nonzero typed types
    have new : Evaluator.Sound limits { limits } := .new limits
    have start : Session.Sound limits { evaluator := Evaluator.run { limits } past } :=
      ⟨rfl, new.run past⟩
    have sound : s.Sound limits := made ▸ start.run before
    obtain ⟨text, typed⟩ : ∃ text, s.calculate.2.Typed text t := typed ▸ Session.run_typed types _
    have shown : t.input = display r ++ text := by
      obtain ⟨error, rfl⟩ := typed
      rw [(sound.of_calculate value).2.2]
    refine ⟨⟨text, shown⟩, fun text' o rest same operator short => ?_⟩
    obtain rfl := (String.append_right_inj _).1 (same.symm.trans shown)
    exact sound.calculates_typed value nonzero typed (operator ▸ apart o rest) short

theorem evaluate_difference : evaluate "1-2" = .ok (-1) := by
  have writes : Writes "1-2".toList [.number 1, .operator (.listed .sub), .number 2] :=
    .word spells_one (.word (.operator .sub) (.word spells_two (@Writes.blanks [] (by simp))))
  have turns : Token.Alternates false [.number 1, .operator (.listed .sub), .number 2] :=
    ⟨rfl, rfl, rfl⟩
  have difference : (1 - 2 : Float) = -1 := by decide +kernel
  refine evaluate_eq_ok.2 ⟨_, _, writes.scan turns (fits_none turns) 0, rfl, ?_, by decide +kernel⟩
  simp [Postfix.eval, Postfix.apply, Operator.apply, difference]

namespace Session

def differing : Session := run {} [.setInput "1-2"]

theorem sound_differing : differing.Sound {} := ⟨rfl, Evaluator.Sound.new {}⟩

theorem calculate_differing : differing.calculate.1 = .ok (some (-1)) := by
  have expression : differing.expression = "1-2" := by decide
  have calculates := sound_differing.calculates (by decide)
  rw [expression, Input.verdict_text (by decide)] at calculates
  have value := evaluate_difference
  rw [evaluate_eq_verdict] at value
  cases verdict : Reckon.verdict "1-2" with
  | error e => rw [verdict] at value; cases value
  | ok v =>
    rw [verdict] at value calculates
    cases value
    cases calculates with
    | value h => exact h

theorem input_differing :
    (differing.calculate.2.run [.press "*", .press "3"]).input = "-1*3" := by
  have glyphs := sound_differing.calculate.glyphs
  have input := (sound_differing.of_calculate calculate_differing).2.2
  rw [show Reckon.display (-1) = "-1" by decide +kernel] at input
  have one : GlyphMap.standard.operator? "1" = none := by decide
  have three : GlyphMap.standard.operator? "3" = none := by decide
  simp [run, perform, press, accepts, lastOperator?, append, glyphs, input, one, three]

end Session

theorem alike_displayed_difference :
    (Alike (evaluate ("2^" ++ "(" ++ "1-2" ++ ")" ++ ""))
        (evaluate ("2^" ++ "(" ++ display (-1) ++ ")" ++ "")) ∧
      Alike (evaluate ("(" ++ "1-2" ++ ")" ++ (Operator.text .mul ++ "3")))
        (evaluate (display (-1) ++ (Operator.text .mul ++ "3")))) ∧
    ∃ out, (Session.differing.calculate.2.run [.press "*", .press "3"]).Calculates out ∧
      Alike (evaluate ("(" ++ Session.differing.expression ++ ")" ++
        GlyphMap.standard.normalize "*3")) (out.mapError .evaluation) := by
  have nonzero : (-1 : Float) ≠ -0.0 := by decide
  obtain ⟨texts, sessions⟩ := @alike_displayed Nat Unit
  have text := texts _ _ evaluate_difference nonzero
  refine ⟨⟨text.1 _ _, text.2 _ _⟩, ?_⟩
  have input := Session.input_differing
  have sound := Session.sound_differing.calculate.run [.press "*", .press "3"]
  refine (sessions {} [] [.setInput "1-2"] [.press "*", .press "3"] Session.differing _ (-1)
    rfl Session.calculate_differing nonzero rfl (by simp [Session.Command.Types])).2 "*3" .mul "3"
    ?_ (by decide) ?_
  · rw [input, show display (-1) = "-1" by decide +kernel]
    rfl
  · rw [Session.expression, input, sound.glyphs]
    decide

end Reckon
