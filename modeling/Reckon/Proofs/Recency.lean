import Reckon.Proofs.Spelling
import Reckon.Proofs.Transparency

namespace Reckon

section Lists

variable {α : Type} {l front back : List α} {a : α} {k : Nat}

theorem rtake_append (h : front = [] ∨ k ≤ back.length) :
    (front ++ back).rtake k = back.rtake k := by
  rcases h with rfl | h
  · rfl
  · have past : front.length ≤ front.length + back.length - k := by omega
    rw [List.rtake, List.rtake, List.length_append, List.drop_append,
      List.drop_eq_nil_of_le past, List.nil_append]
    congr 1
    omega

theorem rtake_of_length_le (h : l.length ≤ k) : l.rtake k = l := by
  rw [List.rtake, Nat.sub_eq_zero_of_le h, List.drop_zero]

theorem exists_eq_append_rtake (l : List α) (k : Nat) :
    ∃ front, l = front ++ l.rtake k ∧ (l.rtake k).length ≤ k ∧
      (front = [] ∨ k ≤ (l.rtake k).length) := by
  refine ⟨l.take (l.length - k), (List.take_append_drop ..).symm, ?_, ?_⟩
  · rw [List.rtake, List.length_drop]
    omega
  · rcases Nat.lt_or_ge l.length k with small | large
    · rw [Nat.sub_eq_zero_of_le small.le]
      exact .inl rfl
    · right
      rw [List.rtake, List.length_drop]
      omega

theorem mem_rtake_of_nodup (h : (front ++ a :: back).Nodup) :
    a ∈ (front ++ a :: back).rtake k ↔ back.length < k := by
  constructor
  · intro mem
    by_contra! full
    rw [List.append_cons, rtake_append (.inr full)] at mem
    have single := (List.nodup_middle.1 h).notMem
    exact single (List.mem_append_right _ (List.mem_of_mem_drop mem))
  · intro room
    rw [List.rtake, List.drop_append_of_le_length (by simp; omega)]
    simp

theorem exists_eq_append_rtakeWhile {p : α → Bool} (mem : a ∈ l) (h : p a = false) :
    ∃ front b, p b = false ∧ l = front ++ b :: l.rtakeWhile p := by
  have some : l.rdropWhile p ≠ [] := fun none => by
    rw [List.rdropWhile_eq_nil_iff.1 none a mem] at h
    cases h
  have last := List.rdropWhile_last_not p l some
  refine ⟨(l.rdropWhile p).dropLast, _, Bool.eq_false_of_not_eq_true last, ?_⟩
  rw [List.append_cons, List.dropLast_append_getLast, List.rdropWhile_append_rtakeWhile]

variable [DecidableEq α]

theorem dedup_concat (l : List α) (a : α) : (l ++ [a]).dedup = l.dedup.filter (· ≠ a) ++ [a] := by
  induction l with
  | nil => simp
  | cons b l ih =>
    by_cases old : b ∈ l
    · rw [List.cons_append, List.dedup_cons_of_mem (List.mem_append_left _ old), ih,
        List.dedup_cons_of_mem old]
    · by_cases same : b = a
      · subst same
        rw [List.cons_append, List.dedup_cons_of_mem (by simp), ih, List.dedup_cons_of_notMem old]
        simp
      · rw [List.cons_append, List.dedup_cons_of_notMem (by simp [old, same]), ih,
          List.dedup_cons_of_notMem old, List.filter_cons_of_pos (by simpa using same),
          List.cons_append]

theorem dedup_append_cons (front : List α) (h : a ∉ back) :
    ∃ pre, (front ++ a :: back).dedup = pre ++ a :: back.dedup := by
  induction front with
  | nil => exact ⟨[], List.dedup_cons_of_notMem h⟩
  | cons b front ih =>
    obtain ⟨pre, ih⟩ := ih
    rw [List.cons_append, List.dedup_cons, ih]
    split
    · exact ⟨pre, rfl⟩
    · exact ⟨b :: pre, rfl⟩

theorem rtake_move (distinct : l.Nodup) (mem : a ∈ l.rtake k) :
    (l.rtake k).filter (· ≠ a) ++ (l.rtake k).filter (· = a) =
      (l.filter (· ≠ a) ++ [a]).rtake k := by
  obtain ⟨front, split, few, all⟩ := exists_eq_append_rtake l k
  generalize l.rtake k = last at *
  subst split
  have apart : ∀ b ∈ front, decide (b ≠ a) = true := by
    intro b inFront
    have := List.disjoint_of_nodup_append distinct inFront
    simp only [decide_eq_true_eq]
    rintro rfl
    exact this mem
  have single : last.filter (· = a) = [a] := by
    rw [List.filter_eq, List.count_eq_one_of_mem distinct.of_append_right mem]
    rfl
  have size : (last.filter (· ≠ a) ++ [a]).length = last.length := by
    rw [← single]
    simpa using (List.filter_append_perm (fun b => decide (b ≠ a)) last).length_eq
  rw [single, List.filter_append, List.filter_eq_self.2 apart, List.append_assoc,
    rtake_append (by rwa [size]), rtake_of_length_le (by rwa [size])]

theorem rtake_add (new : a ∉ l.rtake k) :
    (l.rtake k ++ [a]).rtake k = (l.filter (· ≠ a) ++ [a]).rtake k := by
  obtain ⟨front, split, -, all⟩ := exists_eq_append_rtake l k
  generalize l.rtake k = last at *
  subst split
  have same : last.filter (· ≠ a) = last := by
    rw [List.filter_eq_self]
    intro b mem
    simp only [decide_eq_true_eq]
    rintro rfl
    exact new mem
  rw [List.filter_append, same, List.append_assoc]
  refine (rtake_append ?_).symm
  rcases all with rfl | full
  · exact .inl rfl
  · exact .inr (full.trans (by simp))

end Lists

namespace Input

def rejected (maxLength : Int) : Input α → Bool
  | .other _ => true
  | .text s => maxLength < s.length

def isText (s : String) : Input α → Bool
  | .other _ => false
  | .text t => t = s

def success? (maxLength : Int) (x : Input α) : Option String :=
  match x, x.verdict maxLength with
  | .text s, .ok _ => some s
  | _, _ => none

theorem success?_eq_some {maxLength : Int} {x : Input α} :
    x.success? maxLength = some s ↔ x = .text s ∧ ∃ v, x.verdict maxLength = .ok v := by
  cases x with
  | other a => simp [success?, verdict]
  | text t =>
    cases value : (.text t : Input α).verdict maxLength with
    | error e => simp [success?, value]
    | ok v => simp [success?, value]

theorem success?_of_rejected {maxLength : Int} {x : Input α} (h : x.rejected maxLength) :
    x.success? maxLength = none := by
  cases x with
  | other a => rfl
  | text s => simp [success?, verdict, of_decide_eq_true h]

theorem verdict_of_fits {maxLength : Int} (h : (.text s : Input α).rejected maxLength = false) :
    (.text s : Input α).verdict maxLength = Reckon.verdict s :=
  if_neg (of_decide_eq_false h)

theorem eq_text_of_isText {x : Input α} (h : x.isText s) : x = .text s := by
  cases x with
  | other a => cases h
  | text t => rw [of_decide_eq_true h]

end Input

section History

variable (limits : Limits) (past : List (Input α))

def successes : List String := past.filterMap (·.success? limits.maxLength)

/-- The distinct successful texts by their last request, as many of the last ones as there is room
for. -/
def kept : List String := (successes limits past).dedup.rtake limits.cacheSize.toNat

/-- A text that was successful before, and behind its last request fewer other texts than there is
room for. -/
def isHit : Input α → Bool
  | .other _ => false
  | .text s => s ∈ successes limits past &&
    (successes limits (past.rtakeWhile (!·.isText s))).dedup.length < limits.cacheSize

def isMiss (x : Input α) : Bool := !x.rejected limits.maxLength && !isHit limits past x

def tally (p : List (Input α) → Input α → Bool) (past : List (Input α)) : List (Input α) → Nat
  | [] => 0
  | x :: rest => (p past x).toNat + tally p (past ++ [x]) rest

theorem tally_concat (p : List (Input α) → Input α → Bool) (past rest : List (Input α))
    (x : Input α) :
    tally p past (rest ++ [x]) = tally p past rest + (p (past ++ rest) x).toNat := by
  induction rest generalizing past with
  | nil => simp [tally]
  | cons y rest ih => simp [tally, ih, Nat.add_assoc]

variable {limits past}

theorem successes_of_text {x : Input α} (h : x.success? limits.maxLength = some s) :
    successes limits (past ++ [x]) = successes limits past ++ [s] := by
  simp [successes, h]

theorem successes_of_none {x : Input α} (h : x.success? limits.maxLength = none) :
    successes limits (past ++ [x]) = successes limits past := by
  simp [successes, h]

theorem kept_of_none {x : Input α} (h : x.success? limits.maxLength = none) :
    kept limits (past ++ [x]) = kept limits past := by
  rw [kept, successes_of_none h, kept]

theorem kept_of_text {x : Input α} (h : x.success? limits.maxLength = some s) :
    kept limits (past ++ [x]) =
      ((successes limits past).dedup.filter (· ≠ s) ++ [s]).rtake limits.cacheSize.toNat := by
  rw [kept, successes_of_text h, dedup_concat]

theorem isHit_of_none {x : Input α} (h : x.success? limits.maxLength = none) :
    isHit limits past x = false := by
  cases x with
  | other a => rfl
  | text s =>
    have new : s ∉ successes limits past := by
      intro mem
      obtain ⟨y, -, value⟩ := List.mem_filterMap.1 mem
      obtain rfl := (Input.success?_eq_some.1 value).1
      cases h.symm.trans value
    simp [isHit, new]

theorem mem_kept : s ∈ kept limits past ↔ isHit limits past (.text s) := by
  rw [isHit, Bool.and_eq_true, decide_eq_true_eq, decide_eq_true_eq]
  by_cases mem : s ∈ successes limits past
  · obtain ⟨x, asked, value⟩ := List.mem_filterMap.1 mem
    obtain rfl := (Input.success?_eq_some.1 value).1
    obtain ⟨front, y, isText, split⟩ :=
      exists_eq_append_rtakeWhile (p := fun y => !y.isText s) asked (by simp [Input.isText])
    obtain rfl := Input.eq_text_of_isText (show y.isText s by simpa using isText)
    have later : s ∉ successes limits (past.rtakeWhile (!·.isText s)) := by
      intro mem
      obtain ⟨y, behind, value⟩ := List.mem_filterMap.1 mem
      obtain rfl := (Input.success?_eq_some.1 value).1
      simpa [Input.isText] using List.mem_rtakeWhile_imp behind
    generalize past.rtakeWhile (!·.isText s) = back at *
    have all : successes limits past =
        successes limits front ++ s :: successes limits back := by
      simp [split, successes, value]
    have distinct := List.nodup_dedup (successes limits past)
    obtain ⟨pre, order⟩ := dedup_append_cons (successes limits front) later
    rw [all, order] at distinct
    rw [kept, all, order, mem_rtake_of_nodup distinct]
    simp
  · have absent : s ∉ kept limits past := fun inKept =>
      mem (List.mem_dedup.1 (List.mem_of_mem_drop inKept))
    simp [mem, absent]

end History

namespace Evaluator

def Command.requests : Command β α → List (Input α)
  | .evaluate x | .attempt x => [x]
  | .many xs => xs.map (·.2)
  | .clear => []

def since (past : List (Input α)) : List (Command β α) → List (Input α)
  | [] => past
  | .clear :: cs => since [] cs
  | c :: cs => since (past ++ c.requests) cs

variable {limits : Limits} {e : Evaluator}

/-- What a request does to an evaluator that has room. -/
inductive Step {α : Type} (e : Evaluator) : Input α → Evaluator → Prop
  | rejected (h : x.rejected e.limits.maxLength) : Step e x e
  | hit (fits : (.text s : Input α).rejected e.limits.maxLength = false)
    (mem : s ∈ e.recent.keys) :
    Step e (.text s) { e with recent := e.recent.touch s, hits := e.hits + 1 }
  | failure (fits : (.text s : Input α).rejected e.limits.maxLength = false)
    (new : s ∉ e.recent.keys) (h : verdict s = .error f) :
    Step e (.text s) { e with misses := e.misses + 1 }
  | success {kept : Recent} (fits : (.text s : Input α).rejected e.limits.maxLength = false)
    (new : s ∉ e.recent.keys) (h : verdict s = .ok v)
    (room : (e.recent.push s v).trim e.limits.cacheSize = some kept) :
    Step e (.text s) { e with recent := kept, misses := e.misses + 1 }

theorem step_request (room : 0 ≤ e.limits.cacheSize) (x : Input α) : e.Step x (e.request x).2 := by
  cases x with
  | other a => exact .rejected rfl
  | text s =>
    rw [request]
    by_cases long : e.tooLong s
    · rw [if_pos long]
      exact .rejected long
    · have fits : (.text s : Input α).rejected e.limits.maxLength = false := by
        simpa [tooLong, Input.rejected] using long
      rw [if_neg long]
      cases found : e.recent.get? s with
      | some v =>
        have mem : s ∈ e.recent.keys := List.mem_map.2 ⟨_, Recent.mem_of_get? found, rfl⟩
        exact .hit fits mem
      | none =>
        have new : s ∉ e.recent.keys := by
          intro mem
          obtain ⟨entry, inRecent, rfl⟩ := List.mem_map.1 mem
          simpa using List.lookup_eq_none_iff.1 found entry inRecent
        dsimp only
        rw [evaluate_eq_verdict]
        cases value : verdict s with
        | error f => exact .failure fits new value
        | ok v =>
          obtain ⟨recent, trim, -⟩ := Recent.trim_of_nonneg room (e.recent.push s v)
          simp only [Except.mapError, keep, trim]
          exact .success fits new value trim

theorem Sound.many_eq_foldl (h : e.Sound limits) (room : 0 ≤ limits.cacheSize)
    (xs : List (β × Input α)) :
    (e.many xs).2 = (xs.map (·.2)).foldl (fun e x => (e.request x).2) e := by
  induction xs generalizing e with
  | nil => rfl
  | cons x xs ih =>
    obtain ⟨label, x⟩ := x
    obtain ⟨asked, sound⟩ := h.attempt x
    rw [outcome_answer room] at asked
    rw [List.map_cons, List.foldl_cons, Evaluator.many]
    change _ = List.foldl _ (e.attempt x).2 _
    cases attempted : e.attempt x with
    | mk o next =>
      rw [attempted] at asked sound
      cases asked
      exact ih sound

/-- What is kept and counted after the requests of `past`. -/
structure Recalls (limits : Limits) (past : List (Input α)) (e : Evaluator) : Prop where
  sound : e.Sound limits
  keys : e.recent.keys = kept limits past
  hits : e.hits = tally (isHit limits) [] past
  misses : e.misses = tally (isMiss limits) [] past

namespace Recalls

variable {past : List (Input α)} {x : Input α}

theorem new (limits : Limits) : Recalls limits ([] : List (Input α)) { limits } := by
  refine ⟨.new limits, ?_, rfl, rfl⟩
  simp [kept, successes, Recent.keys]

theorem isHit_iff (h : e.Recalls limits past) :
    isHit limits past (.text s) ↔ s ∈ e.recent.keys := by
  rw [h.keys, mem_kept]

theorem count (h : e.Recalls limits past) {hit miss : Bool} (isHit : isHit limits past x = hit)
    (isMiss : isMiss limits past x = miss) :
    e.hits + hit.toNat = tally (Reckon.isHit limits) [] (past ++ [x]) ∧
      e.misses + miss.toNat = tally (Reckon.isMiss limits) [] (past ++ [x]) := by
  rw [tally_concat, tally_concat, List.nil_append, isHit, isMiss, h.hits, h.misses]
  exact ⟨rfl, rfl⟩

theorem step (h : e.Recalls limits past) (room : 0 ≤ limits.cacheSize) (x : Input α) :
    (e.request x).2.Recalls limits (past ++ [x]) := by
  obtain ⟨rfl, -, known⟩ := h.sound
  have sound := (h.sound.request x).2
  have step := step_request room x
  generalize (e.request x).2 = next at *
  cases step with
  | rejected refused =>
    have fails := Input.success?_of_rejected refused
    have noHit : isHit e.limits past x = false := isHit_of_none fails
    obtain ⟨hits, misses⟩ := h.count noHit (show isMiss _ past x = false by simp [isMiss, refused])
    exact ⟨sound, by rw [kept_of_none fails, h.keys], hits, misses⟩
  | @hit s fits mem =>
    obtain ⟨entry, inRecent, rfl⟩ := List.mem_map.1 mem
    have value : (.text entry.1 : Input α).success? e.limits.maxLength = some entry.1 :=
      Input.success?_eq_some.2 ⟨rfl, entry.2, by rw [Input.verdict_of_fits fits, known _ inRecent]⟩
    have hit := h.isHit_iff.2 mem
    obtain ⟨hits, misses⟩ := h.count hit
      (show isMiss _ past (.text entry.1) = false by simp [isMiss, hit])
    refine ⟨sound, ?_, hits, misses⟩
    rw [h.keys] at mem
    rw [Recent.keys_touch, h.keys, kept_of_text value]
    exact rtake_move (List.nodup_dedup _) mem
  | @failure s f fits new value =>
    have fails : (.text s : Input α).success? e.limits.maxLength = none := by
      simp [Input.success?, Input.verdict_of_fits fits, value]
    have noHit : isHit e.limits past (.text s) = false := isHit_of_none fails
    obtain ⟨hits, misses⟩ := h.count noHit
      (show isMiss _ past (.text s) = true by simp [isMiss, noHit, fits])
    exact ⟨sound, by rw [kept_of_none fails, h.keys], hits, misses⟩
  | @success s v rest fits new value trim =>
    have value : (.text s : Input α).success? e.limits.maxLength = some s :=
      Input.success?_eq_some.2 ⟨rfl, v, by rw [Input.verdict_of_fits fits, value]⟩
    have noHit : isHit e.limits past (.text s) = false := by
      rw [Bool.eq_false_iff, ne_eq, h.isHit_iff]
      exact new
    obtain ⟨hits, misses⟩ := h.count noHit
      (show isMiss _ past (.text s) = true by simp [isMiss, noHit, fits])
    refine ⟨sound, ?_, hits, misses⟩
    rw [h.keys] at new
    rw [Recent.keys_trim trim, kept_of_text value, ← rtake_add new, ← kept, ← h.keys,
      Recent.keys_push, List.rtake]
    simp [Recent.push, Recent.keys]

theorem requests (h : e.Recalls limits past) (room : 0 ≤ limits.cacheSize) (xs : List (Input α)) :
    (xs.foldl (fun e x => (e.request x).2) e).Recalls limits (past ++ xs) := by
  induction xs generalizing e past with
  | nil => rwa [List.append_nil]
  | cons x xs ih =>
    rw [List.append_cons]
    exact ih (h.step room x)

theorem many (h : e.Recalls limits past) (room : 0 ≤ limits.cacheSize) (xs : List (β × Input α)) :
    (e.many xs).2.Recalls limits (past ++ xs.map (·.2)) := by
  rw [h.sound.many_eq_foldl room]
  exact h.requests room _

theorem perform (h : e.Recalls limits past) (room : 0 ≤ limits.cacheSize) (c : Command β α) :
    (e.perform c).2.Recalls limits (since past [c]) := by
  cases c with
  | evaluate x | attempt x => exact h.step room x
  | many xs => exact h.many room xs
  | clear =>
    have cleared : (e.perform (.clear : Command β α)).2 = { limits } := by
      simp [Evaluator.perform, clear, h.sound.limits_eq]
    rw [cleared]
    exact new limits

theorem run (h : e.Recalls limits past) (room : 0 ≤ limits.cacheSize) (cs : List (Command β α)) :
    (e.run cs).Recalls limits (since past cs) := by
  induction cs generalizing e past with
  | nil => exact h
  | cons c cs ih =>
    have next := ih (h.perform room c)
    cases c <;> exact next

end Recalls

theorem request_of_rejected (h : e.Sound limits) (room : 0 ≤ limits.cacheSize) {x : Input α}
    (refused : x.rejected limits.maxLength) : (e.request x).2 = e := by
  obtain ⟨rfl, -, -⟩ := h
  have step := step_request room x
  generalize (e.request x).2 = next at *
  cases step with
  | rejected => rfl
  | hit fits | failure fits | success fits => cases fits.symm.trans refused

theorem request_of_error (h : e.Sound limits) (room : 0 ≤ limits.cacheSize)
    (fits : (.text s : Input α).rejected limits.maxLength = false) (fails : evaluate s = .error f) :
    (e.request (.text s : Input α)).2 = { e with misses := e.misses + 1 } := by
  obtain ⟨rfl, -, known⟩ := h
  have step := step_request room (.text s : Input α)
  generalize (e.request (.text s : Input α)).2 = next at *
  cases step with
  | rejected refused => cases fits.symm.trans refused
  | hit _ mem =>
    obtain ⟨entry, inRecent, rfl⟩ := List.mem_map.1 mem
    rw [evaluate_eq_verdict, known entry inRecent] at fails
    cases fails
  | failure => rfl
  | success _ _ value =>
    rw [evaluate_eq_verdict, value] at fails
    cases fails

/-- What a new evaluator with room keeps and counts after any commands, told from the requests since
the last clearing: the last of the distinct successful texts are kept, one of these is a hit, and
what is neither a hit nor refused is a miss. What is refused changes nothing, and what fails only
the misses. -/
theorem recalls_run (limits : Limits) (room : 0 ≤ limits.cacheSize) (cs : List (Command β α)) :
    let e := run { limits } cs
    let past := since [] cs
    e.recent.keys = (successes limits past).dedup.rtake limits.cacheSize.toNat ∧
    e.hits = tally (isHit limits) [] past ∧ e.misses = tally (isMiss limits) [] past ∧
    (∀ x : Input α,
      (e.request x).1 = (x.verdict limits.maxLength).mapError .evaluation ∧
      (e.request x).2.hits = e.hits + (isHit limits past x).toNat ∧
      (e.request x).2.misses = e.misses + (isMiss limits past x).toNat) ∧
    (∀ x : Input α, x.rejected limits.maxLength → (e.request x).2 = e) ∧
    (∀ s f, (.text s : Input α).rejected limits.maxLength = false → evaluate s = .error f →
      (e.request (.text s : Input α)).2 = { e with misses := e.misses + 1 }) ∧
    ∀ xs : List (β × Input α),
      (e.many xs).2 = (xs.map (·.2)).foldl (fun e x => (e.request x).2) e := by
  intro e past
  have recalls : e.Recalls limits past := (Recalls.new limits).run room cs
  have sound := recalls.sound
  refine ⟨recalls.keys, recalls.hits, recalls.misses, fun x => ?_,
    fun x => request_of_rejected sound room, fun s f => request_of_error sound room,
    sound.many_eq_foldl room⟩
  obtain ⟨hits, misses⟩ := recalls.count (x := x) rfl rfl
  have next := recalls.step room x
  exact ⟨(sound.request x).1.trans (x.answer_eq_verdict room), next.hits.trans hits.symm,
    next.misses.trans misses.symm⟩

theorem verdict_of_spells {s : String} (h : Spells s.toList (.number v)) (finite : v.isFinite) :
    verdict s = .ok v := by
  have scan : Token.scan none 0 (s.toList ++ []) = _ :=
    h.scan (fun _ => breaks_nil) (fun _ => rfl) 0
  rw [List.append_nil, Token.scan_nil] at scan
  exact verdict_of_evaluate (evaluate_eq_ok.2 ⟨_, _, scan, rfl, rfl, finite⟩)

def askedAgain : List (Command Nat Unit) :=
  [.evaluate (.text "1"), .attempt (.text "1"), .many [(0, .text "2"), (1, .other ())],
    .evaluate (.text "1")]

theorem recalls_run_one :
    0 ≤ (⟨1, 3⟩ : Limits).cacheSize ∧
      (run { limits := ⟨1, 3⟩ } askedAgain).recent.keys = ["1"] ∧
      (run { limits := ⟨1, 3⟩ } askedAgain).hits = 1 ∧
      (run { limits := ⟨1, 3⟩ } askedAgain).misses = 3 := by
  have one : (.text "1" : Input Unit).success? 3 = some "1" := by
    have value := verdict_of_spells (s := "1") spells_one (by decide +kernel)
    exact Input.success?_eq_some.2 ⟨rfl, 1, by rw [Input.verdict_of_fits (by decide), value]⟩
  have two : (.text "2" : Input Unit).success? 3 = some "2" := by
    have value := verdict_of_spells (s := "2") spells_two (by decide +kernel)
    exact Input.success?_eq_some.2 ⟨rfl, 2, by rw [Input.verdict_of_fits (by decide), value]⟩
  have other : (.other () : Input Unit).success? 3 = none := rfl
  have first : [(.text "1" : Input Unit)].rtakeWhile (!·.isText "1") = [] := by decide
  have second : [.text "1", .text "1", .text "2", (.other () : Input Unit)].rtakeWhile
      (!·.isText "1") = [.text "2", .other ()] := by decide
  have fits : (.text "1" : Input Unit).rejected 3 = false ∧
      (.text "2" : Input Unit).rejected 3 = false ∧ (.other () : Input Unit).rejected 3 := by decide
  obtain ⟨keys, hits, misses, -⟩ := recalls_run ⟨1, 3⟩ (by decide) askedAgain
  refine ⟨by decide, keys.trans ?_, hits.trans ?_, misses.trans ?_⟩
  · simp [since, askedAgain, Command.requests, successes, one, two, other]
    decide
  · simp [since, askedAgain, Command.requests, tally, isHit, successes, one, two, other, first,
      second]
  · simp [since, askedAgain, Command.requests, tally, isMiss, isHit, successes, one, two, other,
      first, second, fits]

end Evaluator

end Reckon
