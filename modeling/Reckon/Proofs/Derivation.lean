import Reckon.Grammar

namespace Reckon

namespace Rank

/-- The precedence from which on a class may apply operators outside parentheses. -/
def level : Rank → Nat
  | .sum => 1
  | .term => 2
  | .power => 3
  | .atom => 4

end Rank

namespace Operator

def rank : Operator → Rank
  | .add | .sub => .sum
  | .mul | .div | .mod => .term
  | .pow => .power

def leftRank : Operator → Rank
  | .pow => .atom
  | o => o.rank

def rightRank : Operator → Rank
  | .add | .sub => .term
  | .mul | .div | .mod | .pow => .power

theorem level_rank (o : Operator) : o.rank.level = o.precedence := by
  cases o <;> rfl

theorem precedes_of_leftRank {top o : Operator} (h : o.leftRank.level ≤ top.precedence) :
    top.precedes o = true := by
  cases o <;> cases top <;> simp_all [leftRank, rank, Rank.level, precedence, precedes,
    associativity]

theorem not_precedes_of_rightRank {top o : Operator} (h : top.rightRank.level ≤ o.precedence) :
    top.precedes o = false := by
  cases top <;> cases o <;> simp_all [rightRank, Rank.level, precedence, precedes, associativity]

end Operator

namespace Derives

theorem binary (o : Operator) (hl : Derives o.leftRank ls l) (hr : Derives o.rightRank rs r) :
    Derives o.rank (ls ++ .operator (.listed o) :: rs) (.binary o l r) := by
  cases o with
  | add => exact .add hl hr
  | sub => exact .sub hl hr
  | mul => exact .mul hl hr
  | div => exact .div hl hr
  | mod => exact .mod hl hr
  | pow => exact .pow hl hr

theorem widen {loose tight : Rank} (le : loose.level ≤ tight.level) (h : Derives tight ts t) :
    Derives loose ts t :=
  match tight, loose, h with
  | .sum, .sum, h | .term, .term, h | .power, .power, h | .atom, .atom, h => h
  | .term, .sum, h => .ofTerm h
  | .power, .term, h => .ofPower h
  | .power, .sum, h => .ofTerm (.ofPower h)
  | .atom, .power, h => .ofAtom h
  | .atom, .term, h => .ofPower (.ofAtom h)
  | .atom, .sum, h => .ofTerm (.ofPower (.ofAtom h))
  | .sum, .term, _ | .sum, .power, _ | .sum, .atom, _ | .term, .power, _ | .term, .atom, _
  | .power, .atom, _ => absurd le (by decide)

/-- Induction with one case for all operators and one for all inclusions of classes. -/
@[elab_as_elim]
theorem induction {motive : ∀ rank ts t, Derives rank ts t → Prop}
    (number : ∀ v, motive .atom _ _ (.number v))
    (group : ∀ {ts t} (h : Derives .sum ts t), motive .sum ts t h → motive .atom _ _ (.group h))
    (call : ∀ f {ts t} (h : Derives .sum ts t), motive .sum ts t h →
      motive .atom _ _ (.call f h))
    (binary : ∀ (o : Operator) {ls l rs r} (hl : Derives o.leftRank ls l)
      (hr : Derives o.rightRank rs r), motive _ _ _ hl → motive _ _ _ hr →
      motive _ _ _ (hl.binary o hr))
    (widen : ∀ {loose tight : Rank} {ts t} (le : loose.level ≤ tight.level)
      (h : Derives tight ts t), motive tight ts t h → motive loose ts t (h.widen le))
    {rank ts t} (h : Derives rank ts t) : motive rank ts t h := by
  induction h with
  | add hl hr ihl ihr => exact binary .add hl hr ihl ihr
  | sub hl hr ihl ihr => exact binary .sub hl hr ihl ihr
  | mul hl hr ihl ihr => exact binary .mul hl hr ihl ihr
  | div hl hr ihl ihr => exact binary .div hl hr ihl ihr
  | mod hl hr ihl ihr => exact binary .mod hl hr ihl ihr
  | pow hl hr ihl ihr => exact binary .pow hl hr ihl ihr
  | number v => exact number v
  | group h ih => exact group h ih
  | call f h ih => exact call f h ih
  | ofTerm h ih => exact @widen .sum .term _ _ (by decide) h ih
  | ofPower h ih => exact @widen .term .power _ _ (by decide) h ih
  | ofAtom h ih => exact @widen .power .atom _ _ (by decide) h ih

theorem extend (h : Derives rank ts t) (o : Operator) (le : rank.level ≤ o.precedence)
    (hr : Derives .atom rs r) : ∃ u, Derives rank (ts ++ .operator (.listed o) :: rs) u := by
  have right : Derives o.rightRank rs r := hr.widen (by cases o <;> decide)
  induction h using Derives.induction with
  | number v => exact absurd le (by cases o <;> decide)
  | group h ih => exact absurd le (by cases o <;> decide)
  | call f h ih => exact absurd le (by cases o <;> decide)
  | binary top hl hr ihl ihr =>
    by_cases inside : top.rightRank.level ≤ o.precedence
    -- The new operator binds tighter and goes to the right operand.
    · obtain ⟨u, hu⟩ := ihr inside
      exact ⟨_, by simpa using hl.binary top hu⟩
    · have same : o.leftRank = top.rank ∧ o.rank = top.rank := by
        rw [Operator.level_rank] at le
        cases top <;> cases o <;> simp_all [Operator.rightRank, Rank.level, Operator.precedence,
          Operator.leftRank, Operator.rank]
      rw [← same.2]
      exact ⟨_, Derives.binary o (same.1 ▸ hl.binary top hr) right⟩
  | @widen loose tight _ _ le' h ih =>
    by_cases inside : tight.level ≤ o.precedence
    · obtain ⟨u, hu⟩ := ih inside
      exact ⟨u, hu.widen le'⟩
    · have left := h.widen (show o.leftRank.level ≤ tight.level by
        cases o <;> cases tight <;> simp_all [Rank.level, Operator.precedence, Operator.leftRank,
          Operator.rank])
      exact ⟨_, (left.binary o right).widen (by rw [Operator.level_rank]; exact le)⟩

end Derives

end Reckon
