import Reckon.Proofs.Grouping
import Reckon.Proofs.Parentheses

namespace Reckon.Postfix

open Token

theorem filter_released (stack : List Pending) : (released stack).filter isNumber = [] := by
  induction stack with
  | nil => rfl
  | cons x stack ih => cases x <;> simpa [released, isNumber] using ih

theorem filter_popped {stack below : List Pending} {out : List Token}
    (h : released stack = out ++ released below) : out.filter isNumber = [] := by
  have none := filter_released stack
  rw [h, List.filter_append, List.append_eq_nil_iff] at none
  exact none.1

theorem step_numbers {stack below : List Pending} {out : List Token}
    (h : step stack t = .ok (out, below)) : out.filter isNumber = [t].filter isNumber := by
  cases t with
  | number v => cases h; rfl
  | operator o =>
    obtain ⟨⟨popped, rest⟩, pop, eq⟩ := map_eq_ok.1 h
    cases eq
    exact filter_popped (popBefore_released pop).1
  | function f => cases h; rfl
  | leftParen s => cases h; rfl
  | rightParen s => exact filter_popped (popGroup_released h).1
  | comma s => cases h; rfl
  | unknown s => cases h

theorem run_numbers {stack : List Pending} {ts out : List Token} (h : run stack ts = .ok out) :
    out.filter isNumber = ts.filter isNumber := by
  induction ts generalizing stack out with
  | nil =>
    rw [← (popAll_eq_ok.1 h).2]
    exact filter_released stack
  | cons t ts ih =>
    obtain ⟨⟨first, below⟩, one, h⟩ := bind_eq_ok.1 h
    obtain ⟨more, rest, h⟩ := bind_eq_ok.1 h
    cases h
    calc (first ++ more).filter isNumber
      _ = first.filter isNumber ++ more.filter isNumber := List.filter_append ..
      _ = [t].filter isNumber ++ ts.filter isNumber := by rw [step_numbers one, ih rest]
      _ = (t :: ts).filter isNumber := by rw [← List.filter_append, List.singleton_append]

theorem not_closes_iff {ts : List Token} :
    ¬closes 0 ts ↔
      (∃ front, front <+: ts ∧ front.countP isLeftParen < front.countP isRightParen) ∨
        ts.countP isLeftParen ≠ ts.countP isRightParen := by
  rw [closes_iff]
  constructor
  · intro h
    by_contra! closed
    exact h ⟨fun front le => by simpa using closed.1 front le, by simpa using closed.2.symm⟩
  · rintro (⟨front, le, more⟩ | differ) balanced
    · have := balanced.front front le
      omega
    · exact differ (by simpa using balanced.total.symm)

/-- A sequence of tokens with operators of the table is refused just if some front of it closes
more parentheses than it opens, or all of it opens more than it closes. Otherwise its numbers,
operators and functions are put out, each as often as it stands there and the numbers in their
order, and nothing else. Commas make no difference. -/
theorem ofTokens_sequence {ts : List Token} (comparable : ∀ t ∈ ts, t.IsComparable)
    (known : ∀ t ∈ ts, t.kind ≠ .unknown) :
    (ofTokens ts = .error (.evaluation (.parse .mismatchedParentheses)) ↔
      (∃ front, front <+: ts ∧ front.countP isLeftParen < front.countP isRightParen) ∨
        ts.countP isLeftParen ≠ ts.countP isRightParen) ∧
    (ofTokens ts ≠ .error (.evaluation (.parse .mismatchedParentheses)) →
      ∃ out, ofTokens ts = .ok out ∧
        out.Perm (ts.filter (·.kind ∈ TokenKind.inPostfixOrder)) ∧
        out.filter isNumber = ts.filter isNumber) ∧
    ofTokens (ts.filter (!·.isComma)) = ofTokens ts ∧
    ParseError.mismatchedParentheses.message = "mismatched parentheses" := by
  refine ⟨?_, fun accepted => ?_, run_filter_comma [] ts, rfl⟩
  · rw [← not_closes_iff, ofTokens_eq_error comparable known]
    exact ⟨And.right, fun h => ⟨rfl, h⟩⟩
  · cases order : ofTokens ts with
    | error f =>
      obtain rfl := ofTokens_error comparable known order
      exact absurd order accepted
    | ok out => exact ⟨out, rfl, run_perm order, run_numbers order⟩

theorem ofTokens_sequence_senseless :
    ofTokens [.number 1, .rightParen, .leftParen] =
      .error (.evaluation (.parse .mismatchedParentheses)) ∧
    ∃ out, ofTokens [.operator (.listed .mul), .comma, .leftParen, .function (.unlisted "f"),
        .number 1, .rightParen, .number 2] = .ok out ∧
      out.Perm [.operator (.listed .mul), .function (.unlisted "f"), .number 1, .number 2] ∧
      out.filter isNumber = [.number 1, .number 2] := by
  constructor
  · refine (ofTokens_sequence ?_ ?_).1.2 (.inl ⟨[.number 1, .rightParen], ?_, by decide⟩)
    · simp [IsComparable]
    · simp [kind]
    · exact ⟨[.leftParen], rfl⟩
  · refine (ofTokens_sequence ?_ ?_).2.1 ?_
    · simp [IsComparable]
    · simp [kind]
    · rw [ofTokens]
      simp [run, step, popBefore, popGroup, popAll]

theorem advance_released {p : Token → Prop} {stack below : List Pending} {ts out : List Token}
    (stacked : ∀ t ∈ released stack, p t) (all : ∀ t ∈ ts, p t)
    (h : advance stack ts = .ok (out, below)) : ∀ u ∈ released below, p u := by
  induction ts generalizing stack out with
  | nil => cases h; exact stacked
  | cons t ts ih =>
    rw [List.forall_mem_cons] at all
    obtain ⟨⟨first, mid⟩, one, h⟩ := bind_eq_ok.1 h
    obtain ⟨⟨more, last⟩, rest, h⟩ := bind_eq_ok.1 h
    cases h
    exact ih (step_released stacked all.1 one) all.2 rest

theorem advance_concat_function {stack below : List Pending} {ts out : List Token}
    (h : advance stack (ts ++ [.function f]) = .ok (out, below)) :
    ∃ rest, below = .function f :: rest := by
  rw [advance_append] at h
  obtain ⟨⟨first, mid⟩, -, h⟩ := bind_eq_ok.1 h
  cases h
  exact ⟨mid, rfl⟩

theorem run_error_parse {stack : List Pending} {ts : List Token}
    (stacked : ∀ t ∈ released stack, t.IsComparable) (comparable : ∀ t ∈ ts, t.IsComparable)
    (h : run stack ts = .error f) : ∃ e, f = .evaluation (.parse e) := by
  rcases run_error stacked comparable h with rfl | ⟨t, -, -, rfl⟩
  · exact ⟨_, rfl⟩
  · exact ⟨_, rfl⟩

theorem popGroup_leftParen (stack : List Pending) :
    ∃ call below, popGroup (.leftParen :: stack) = .ok (call, below) ∧
      ∀ f rest, stack = .function f :: rest → call = [.function f] := by
  cases stack with
  | nil => exact ⟨_, _, rfl, by simp⟩
  | cons x stack =>
    cases x with
    | function f => exact ⟨_, _, rfl, fun g rest same => by cases same; rfl⟩
    | operator o => exact ⟨_, _, rfl, by simp⟩
    | leftParen => exact ⟨_, _, rfl, by simp⟩

/-- What stands around a group decides alone what is put out before and behind the content of the
group, or else alone what is refused. The function in front of a group is put out right behind its
content. -/
theorem ofTokens_around (as cs : List Token) (front : ∀ t ∈ as, t.IsComparable)
    (back : ∀ t ∈ cs, t.IsComparable) :
    (∃ us vs, (∀ ts out, ofTokens ts = .ok out →
        ofTokens (as ++ (.leftParen :: ts ++ .rightParen :: cs)) = .ok (us ++ out ++ vs)) ∧
      ∀ f, as.getLast? = some (.function f) → ∃ rest, vs = .function f :: rest) ∨
    ∃ e, ∀ ts out, ofTokens ts = .ok out →
      ofTokens (as ++ (.leftParen :: ts ++ .rightParen :: cs)) = .error (.evaluation (.parse e)) := by
  have empty : ∀ t ∈ released [], t.IsComparable := by simp [released]
  cases ahead : advance [] as with
  | error f =>
    have refused : run [] as = .error f := by rw [run_eq_advance, ahead]; rfl
    obtain ⟨e, rfl⟩ := run_error_parse empty front refused
    refine .inr ⟨e, fun ts out _ => ?_⟩
    rw [ofTokens, run_append, ahead]
    rfl
  | ok r =>
    obtain ⟨us, stack⟩ := r
    obtain ⟨call, below, pop, called⟩ := popGroup_leftParen stack
    have whole (ts out : List Token) (order : ofTokens ts = .ok out) :
        ofTokens (as ++ (.leftParen :: ts ++ .rightParen :: cs)) =
          (run below cs).map fun more => us ++ out ++ (call ++ more) := by
      rw [ofTokens, run_append, ahead]
      simp only [ok_bind, run_group order, pop]
      cases run below cs <;> simp
    have stacked : ∀ t ∈ released (.leftParen :: stack), t.IsComparable := fun t mem =>
      advance_released empty front ahead t mem
    cases rest : run below cs with
    | error f =>
      have close : step (.leftParen :: stack) .rightParen = .ok (call, below) := pop
      have left : ∀ t ∈ released below, t.IsComparable :=
        step_released (t := .rightParen) stacked trivial close
      obtain ⟨e, rfl⟩ := run_error_parse left back rest
      exact .inr ⟨e, fun ts out order => by rw [whole ts out order, rest]; rfl⟩
    | ok more =>
      refine .inl ⟨us, call ++ more, fun ts out order => ?_, fun f last => ?_⟩
      · rw [whole ts out order, rest]
        rfl
      · obtain ⟨init, rfl⟩ := List.getLast?_eq_some_iff.1 last
        obtain ⟨rest, rfl⟩ := advance_concat_function ahead
        exact ⟨more, by rw [called f rest rfl]; rfl⟩

theorem ofTokens_around_call :
    ∃ us vs, (∀ ts out, ofTokens ts = .ok out →
        ofTokens ([.number 2, .operator (.listed .pow), .function (.listed .sin)] ++
          (.leftParen :: ts ++ .rightParen :: [.operator (.listed .mul), .number 3])) =
            .ok (us ++ out ++ vs)) ∧
      ∃ rest, vs = .function (.listed .sin) :: rest := by
  rcases ofTokens_around [.number 2, .operator (.listed .pow), .function (.listed .sin)]
      [.operator (.listed .mul), .number 3] (by simp [IsComparable]) (by simp [IsComparable]) with
    ⟨us, vs, order, called⟩ | ⟨e, refused⟩
  · exact ⟨us, vs, order, called _ rfl⟩
  · cases refused [] [] rfl

end Reckon.Postfix
