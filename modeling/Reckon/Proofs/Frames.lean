import Reckon.Frame
import Reckon.Proofs.Recency
import Reckon.Proofs.Number.Bits

namespace Reckon

def arranged (places : List Nat) (l : List α) : List α := places.filterMap (l[·]?)

section Arranged

variable {α γ : Type} {places : List Nat} {l : List α}

theorem arranged_map (f : α → γ) : arranged places (l.map f) = (arranged places l).map f := by
  simp [arranged, List.map_filterMap]

theorem arranged_range (l : List α) : arranged (List.range l.length) l = l := by
  induction l with
  | nil => rfl
  | cons a l ih =>
    rw [arranged, List.length_cons, List.range_succ_eq_map, List.filterMap_cons,
      List.filterMap_map]
    exact congrArg (a :: ·) ih

theorem arranged_perm (order : places.Perm (List.range l.length)) : (arranged places l).Perm l :=
  (order.filterMap _).trans (.of_eq (arranged_range l))

end Arranged

namespace Input

variable (maxLength : Int) (x : Input α)

/-- The evaluation of an input that is not too long, without anything kept. -/
def evaluateWithin : Except Failure Float :=
  match x with
  | .text s => if maxLength < s.length then lexed (.error .tooLong) else Reckon.evaluate s
  | .other a => (.other a : Input α).evaluate

theorem evaluateWithin_eq :
    x.evaluateWithin maxLength = (x.verdict maxLength).mapError .evaluation := by
  cases x with
  | other a => rfl
  | text s =>
    rw [evaluateWithin, verdict, evaluate_eq_verdict]
    split <;> rfl

def resultCell : Float := (x.verdict maxLength).toOption.getD Number.notANumber

def errorCell : Option String :=
  match x.verdict maxLength with
  | .ok _ => none
  | .error e => some e.message

variable {maxLength x}

theorem cells_of_value (h : x.evaluateWithin maxLength = .ok v) :
    x.resultCell maxLength = v ∧ x.errorCell maxLength = none := by
  rw [evaluateWithin_eq, mapError_eq_ok] at h
  rw [resultCell, errorCell, h]
  exact ⟨rfl, rfl⟩

theorem cells_of_failure (h : x.evaluateWithin maxLength = .error f) :
    x.resultCell maxLength = Number.notANumber ∧ x.errorCell maxLength = some f.message := by
  rw [evaluateWithin_eq] at h
  obtain ⟨e, error, rfl⟩ := mapError_eq_error.1 h
  rw [resultCell, errorCell, error]
  exact ⟨rfl, rfl⟩

theorem isNaN_resultCell :
    (x.resultCell maxLength).isNaN ↔ ∃ m, x.errorCell maxLength = some m := by
  rw [resultCell, errorCell]
  cases value : x.verdict maxLength with
  | error e =>
    have nan : Number.notANumber.isNaN := by decide
    exact ⟨fun _ => ⟨_, rfl⟩, fun _ => nan⟩
  | ok v =>
    cases x with
    | other a => cases value
    | text s =>
      have finite := isFinite_of_evaluate (evaluate_of_verdict value)
      rw [Number.isFinite_eq] at finite
      constructor
      · intro nan
        rw [show v.isNaN from nan] at finite
        cases finite
      · rintro ⟨m, same⟩
        cases same

end Input

namespace Column

variable {xs ys : Column α} {x : Input (Datum α)} {i : Nat}

def IsWord (n : Int) : Prop := -(Number.signBit : Int) ≤ n ∧ n < Number.signBit

/-- Values with one that is no number, or whose integers are all words with a sign. -/
def Steady (xs : Column α) : Prop :=
  (∃ x ∈ xs, isNumeric x = false) ∨ ∀ x ∈ xs, ∀ n, integer? x = some n → IsWord n

theorem of_rounds (h : rounds xs) : (∀ x ∈ xs, isNumeric x) ∧ ∃ x ∈ xs, integer? x = none := by
  simp only [rounds, Bool.and_eq_true, List.all_eq_true, List.any_eq_true,
    Option.isNone_iff_eq_none] at h
  exact h.1

theorem length_tabled : xs.tabled.length = xs.length := by
  rw [tabled]
  split
  · exact List.length_map _
  · rfl

theorem getElem?_tabled (h : xs[i]? = some x) :
    xs.tabled[i]? = some (if xs.rounds then toReal x else x) := by
  rw [tabled]
  split <;> simp [h]

theorem fit_of_words {ns : List Int} (h : ∀ n ∈ ns, IsWord n) : fit ns := by
  have large : ns.any (Number.signBit ≤ ·) = false := by
    rw [List.any_eq_false]
    intro n mem
    simpa using (h n mem).2
  have words : ns.all (fun n => -Number.signBit ≤ n && n < 2 * Number.signBit) := by
    rw [List.all_eq_true]
    intro n mem
    obtain ⟨low, high⟩ := h n mem
    simp only [Bool.and_eq_true, decide_eq_true_eq]
    omega
  rw [fit, words, large, Bool.and_false]
  rfl

theorem rounds_of_words (h : ∀ x ∈ xs, ∀ n, integer? x = some n → IsWord n) :
    xs.rounds = (xs.all isNumeric && xs.any fun x => (integer? x).isNone) := by
  have words : fit ((xs.takeWhile fun x => !isMissing x).filterMap integer?) := by
    refine fit_of_words fun n mem => ?_
    obtain ⟨x, before, integer⟩ := List.mem_filterMap.1 mem
    exact h x ((List.takeWhile_sublist _).subset before) n integer
  rw [rounds, words, Bool.and_true]

theorem rounds_perm (order : ys.Perm xs) (steady : xs.Steady) : ys.rounds = xs.rounds := by
  rcases steady with ⟨x, mem, other⟩ | words
  · have none {zs : Column α} (mem : x ∈ zs) : zs.rounds = false := by
      rw [Bool.eq_false_iff]
      intro rounds
      rw [(of_rounds rounds).1 x mem] at other
      cases other
    rw [none mem, none (order.mem_iff.2 mem)]
  · rw [rounds_of_words words, rounds_of_words fun x mem => words x (order.mem_iff.1 mem),
      order.all_eq, order.any_eq]

theorem tabled_arranged (order : places.Perm (List.range xs.length)) (steady : xs.Steady) :
    tabled (arranged places xs) = arranged places xs.tabled := by
  rw [tabled, rounds_perm (arranged_perm order) steady, tabled]
  split
  · rw [arranged_map]
  · rfl

end Column

namespace Evaluator

variable {limits : Limits} {e : Evaluator} {labels : List β} {xs : Column α}

theorem Sound.frame (h : e.Sound limits) (room : 0 ≤ limits.cacheSize)
    (same : labels.length = xs.length) :
    (e.frame (labels.zip xs)).1 = .ok
      { labels
        expressions := xs.tabled
        results := xs.map (Input.resultCell limits.maxLength)
        errors := xs.map (Input.errorCell limits.maxLength) } := by
  have rows := (h.many (labels.zip xs)).1
  rw [rows_eq_map room] at rows
  have values {γ : Type} (f : Input (Datum α) → γ) :
      (labels.zip xs).map (f ∘ Prod.snd) = xs.map f := by
    rw [← List.map_map, List.map_snd_zip same.ge]
  have shown := congrArg Column.tabled (List.map_snd_zip same.ge)
  have named : (labels.zip xs).map Prod.fst = labels := List.map_fst_zip same.le
  rw [Evaluator.frame, rows, map_ok, Frame.ofRows, List.map_map, List.map_map, List.map_map,
    List.map_map]
  refine congrArg Except.ok ((Frame.mk.injEq ..).mpr ⟨named, shown, ?_, ?_⟩)
  · exact values (Input.resultCell limits.maxLength)
  · exact values (Input.errorCell limits.maxLength)

theorem manyLog_getLast? {rows : List (β × Input (Datum α))} {f : Frame β α}
    (h : (e.frame rows).1 = .ok f) :
    (e.manyLog rows).getLast? = some ⟨.info, .evaluator,
      "Evaluated " ++ toString f.errors.length ++ " expressions, " ++
        toString (f.errors.countP (·.isSome)) ++ " failed"⟩ := by
  obtain ⟨rs, answered, rfl⟩ := map_eq_ok.1 h
  rw [manyLog, answered, Log.after, List.getLast?_concat, failures, Frame.ofRows, List.length_map,
    List.countP_map]
  rfl

theorem order_shows (α : Type) : ∃ (small : Limits) (ys : Column α) (places : List Nat),
    0 ≤ small.cacheSize ∧ places.Perm (List.range ys.length) ∧
    ∀ left right : Evaluator,
      left = (Evaluator.frame { limits := small } (ys.map fun y => ((), y))).2 →
      right = (Evaluator.frame { limits := small } ((arranged places ys).map fun y => ((), y))).2 →
      left.recent.keys ≠ right.recent.keys ∧ left.hits ≠ right.hits := by
  have one : (.text "1" : Input (Datum α)).success? 3 = some "1" := by
    have value := verdict_of_spells (s := "1") spells_one (by decide +kernel)
    exact Input.success?_eq_some.2 ⟨rfl, 1, by rw [Input.verdict_text (by decide), value]⟩
  have two : (.text "2" : Input (Datum α)).success? 3 = some "2" := by
    have value := verdict_of_spells (s := "2") spells_two (by decide +kernel)
    exact Input.success?_eq_some.2 ⟨rfl, 2, by rw [Input.verdict_text (by decide), value]⟩
  have again : [(.text "1" : Input (Datum α))].rtakeWhile (!·.isText "1") = [] := rfl
  have between : [.text "1", (.text "2" : Input (Datum α))].rtakeWhile (!·.isText "1") =
    [.text "2"] := rfl
  have asked (zs : Column α) := (Recalls.new ⟨1, 3⟩).many (by decide) (zs.map fun z => ((), z))
  refine ⟨⟨1, 3⟩, [.text "1", .text "1", .text "2"], [0, 2, 1], by decide,
    (by decide : [0, 2, 1].Perm (List.range 3)), ?_⟩
  rintro left right rfl rfl
  have first := asked [.text "1", .text "1", .text "2"]
  have second := asked [.text "1", .text "2", .text "1"]
  constructor
  · intro same
    have keys := first.keys.symm.trans (Eq.trans same second.keys)
    simp [kept, successes, one, two] at keys
    revert keys
    decide
  · intro same
    have hits := first.hits.symm.trans (Eq.trans same second.hits)
    simp [tally, isHit, successes, one, two, again, between] at hits

/-- However an evaluator with room was used before, the table of values has one row for each of
them, in order and under their labels: with the value, which is rounded where it is an integer in a
column of numbers that are not all integers, and with what the value evaluates to on its own, or NaN
and the error. Just the errors have NaN, and their number is logged. For values in another order any
evaluator of the same length limit has the results and errors in that order, and the values too
unless they are numbers alone with integers of more than a word. What an evaluator keeps and counts
tells the orders apart. -/
theorem frame_pointwise (limits : Limits) (room : 0 ≤ limits.cacheSize)
    (past : List (Command γ (Datum α))) (e : Evaluator) (used : e = run { limits } past)
    (labels : List β) (xs : Column α) (same : labels.length = xs.length) :
    ∃ f : Frame β α, (e.frame (labels.zip xs)).1 = .ok f ∧ f.labels = labels ∧
      f.expressions.length = xs.length ∧ f.results.length = xs.length ∧
      f.errors.length = xs.length ∧
      (∀ (i : Nat) x, xs[i]? = some x →
        f.expressions[i]? = some (if xs.rounds then Column.toReal x else x) ∧
        (∀ v, x.evaluateWithin limits.maxLength = .ok v →
          f.results[i]? = some v ∧ f.errors[i]? = some none) ∧
        ∀ failure, x.evaluateWithin limits.maxLength = .error failure →
          f.results[i]? = some Number.notANumber ∧ f.errors[i]? = some (some failure.message)) ∧
      (xs.rounds → (∀ x ∈ xs, Column.isNumeric x) ∧ ∃ x ∈ xs, Column.integer? x = none) ∧
      (∀ (i : Nat) v, f.results[i]? = some v → (v.isNaN ↔ ∃ m, f.errors[i]? = some (some m))) ∧
      (e.manyLog (labels.zip xs)).getLast? = some ⟨.info, .evaluator,
        "Evaluated " ++ toString xs.length ++ " expressions, " ++
          toString (f.errors.countP (·.isSome)) ++ " failed"⟩ ∧
      (∀ places, places.Perm (List.range xs.length) →
        (∀ (others : Limits) (before : List (Command γ (Datum α))) (names : List β),
          0 ≤ others.cacheSize → others.maxLength = limits.maxLength →
          names.length = xs.length →
          ((run { limits := others } before).frame (names.zip (arranged places xs))).1 = .ok
            { labels := names
              expressions := Column.tabled (arranged places xs)
              results := arranged places f.results
              errors := arranged places f.errors }) ∧
        (xs.Steady → Column.tabled (arranged places xs) = arranged places f.expressions)) ∧
      ∃ (small : Limits) (ys : Column α) (places : List Nat),
        0 ≤ small.cacheSize ∧ places.Perm (List.range ys.length) ∧ ∀ left right : Evaluator,
          left = (frame { limits := small } (ys.map fun y => ((), y))).2 →
          right = (frame { limits := small } ((arranged places ys).map fun y => ((), y))).2 →
          left.recent.keys ≠ right.recent.keys ∧ left.hits ≠ right.hits := by
  have sound : e.Sound limits := used ▸ (Sound.new limits).run past
  have answered := sound.frame room same
  have cells {i : Nat} {x} (value : xs[i]? = some x) :
      (xs.map (Input.resultCell limits.maxLength))[i]? = some (x.resultCell limits.maxLength) ∧
      (xs.map (Input.errorCell limits.maxLength))[i]? = some (x.errorCell limits.maxLength) := by
    simp [value]
  refine ⟨_, answered, rfl, Column.length_tabled, List.length_map _, List.length_map _,
    fun i x value => ⟨Column.getElem?_tabled value, fun v ok => ?_, fun failure error => ?_⟩,
    Column.of_rounds, fun i v cell => ?_, ?_, fun places order => ⟨?_, ?_⟩, order_shows α⟩
  · rw [← (Input.cells_of_value ok).1, ← (Input.cells_of_value ok).2]
    exact cells value
  · rw [← (Input.cells_of_failure error).1, ← (Input.cells_of_failure error).2]
    exact cells value
  · obtain ⟨x, value, rfl⟩ : ∃ x, xs[i]? = some x ∧ x.resultCell limits.maxLength = v := by
      simpa using cell
    simp only [(cells value).2, Option.some_inj, Input.isNaN_resultCell]
  · rw [manyLog_getLast? answered, List.length_map]
  · intro others before names roomy alike named
    have length : names.length = (arranged places xs).length :=
      named.trans (arranged_perm order).length_eq.symm
    have next := ((Sound.new others).run before).frame roomy length
    rw [next, alike, arranged_map, arranged_map]
  · exact Column.tabled_arranged order

def mixture : Column Unit := [.text "1", .other (.integer 1), .text "1+1+1"]

theorem frame_pointwise_mixture :
    0 ≤ (⟨1, 3⟩ : Limits).cacheSize ∧ ["a", "a", "b"].length = mixture.length ∧
    [2, 0, 1].Perm (List.range mixture.length) ∧ ∃ e, e = run { limits := ⟨1, 3⟩ }
      ([.evaluate (.text "2"), .many [(0, .text "1"), (1, .other .missing)]] :
        List (Command Nat (Datum Unit))) ∧
    ∃ f : Frame String Unit, (e.frame (["a", "a", "b"].zip mixture)).1 = .ok f ∧
      f.expressions[1]? = some (.other (.integer 1)) ∧
      f.results[0]? = some 1 ∧ f.errors[0]? = some none ∧
      f.results[1]? = some Number.notANumber ∧
      f.errors[1]? = some (some "expression must be a string") ∧
      f.errors[2]? = some (some "expression too long") ∧
      Column.tabled (arranged [2, 0, 1] mixture) = arranged [2, 0, 1] f.expressions ∧
      ((run { limits := ⟨0, 3⟩ } ([] : List (Command Nat (Datum Unit)))).frame
        (["b", "a", "c"].zip (arranged [2, 0, 1] mixture))).1 = .ok
          { labels := ["b", "a", "c"]
            expressions := Column.tabled (arranged [2, 0, 1] mixture)
            results := arranged [2, 0, 1] f.results
            errors := arranged [2, 0, 1] f.errors } := by
  have order : [2, 0, 1].Perm (List.range mixture.length) := by decide
  have value : (.text "1" : Input (Datum Unit)).evaluateWithin 3 = .ok 1 := by
    rw [Input.evaluateWithin_eq, Input.verdict_text (by decide),
      verdict_of_spells (s := "1") spells_one (by decide +kernel)]
    rfl
  have long : (.text "1+1+1" : Input (Datum Unit)).evaluateWithin 3 =
      lexed (.error .tooLong) := by
    rw [Input.evaluateWithin]
    exact if_pos (by decide)
  have steady : mixture.Steady := .inl ⟨.text "1", List.mem_cons_self, rfl⟩
  obtain ⟨f, answered, -, -, -, -, rows, -, -, -, orders, -⟩ := frame_pointwise ⟨1, 3⟩ (by decide)
    ([.evaluate (.text "2"), .many [(0, .text "1"), (1, .other .missing)]] :
      List (Command Nat (Datum Unit))) _ rfl ["a", "a", "b"] mixture rfl
  obtain ⟨-, first, -⟩ := rows 0 _ rfl
  obtain ⟨shown, -, second⟩ := rows 1 _ rfl
  obtain ⟨-, -, third⟩ := rows 2 _ rfl
  obtain ⟨others, columns⟩ := orders [2, 0, 1] order
  obtain ⟨one, none⟩ := first 1 value
  obtain ⟨nan, some⟩ := second _ rfl
  refine ⟨by decide, rfl, order, _, rfl, f, answered, shown, one, none, nan, some, ?_,
    columns steady, others ⟨0, 3⟩ [] ["b", "a", "c"] (by decide) rfl rfl⟩
  exact (third _ long).2

def numbers : Column Unit := [.other (.integer 9007199254740993), .other (.real 0.5)]

theorem frame_rounds : ∃ f : Frame Nat Unit, (frame {} ([0, 1].zip numbers)).1 = .ok f ∧
    numbers[0]? = some (.other (.integer 9007199254740993)) ∧
    f.expressions[0]? = some (.other (.real 9007199254740992)) ∧
    f.expressions[0]? ≠ numbers[0]? := by
  have first : numbers[0]? = some (.other (.integer 9007199254740993)) := rfl
  have sound := Sound.new {}
  have pairs : [0, 1].length = numbers.length := rfl
  have answered := sound.frame (by decide) pairs
  have value : Decimal.toFloat (decide ((9007199254740993 : Int) < 0)) ⟨9007199254740993, 0⟩ =
      9007199254740992 := by decide +kernel
  have shown : numbers.tabled[0]? = some (.other (.real 9007199254740992)) := by
    rw [Column.getElem?_tabled first, if_pos (by decide), ← value]
    rfl
  refine ⟨_, answered, first, shown, fun same => ?_⟩
  cases shown.symm.trans (same.trans first)

end Evaluator

end Reckon
