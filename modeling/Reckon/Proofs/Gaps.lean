import Reckon.Proofs.Derivation
import Reckon.Proofs.Plain

/-!
Where operands stand in a sequence of tokens. Between two operators a derivation has one operand:
none is missing and no two crowd each other. For balanced parentheses, and functions with their
parentheses behind them, this is all that a derivation asks for.
-/

namespace Reckon

namespace Token

def isComma : Token → Bool
  | .comma _ => true
  | _ => false

def startsOperand : Token → Bool
  | .number _ | .function _ | .leftParen _ => true
  | _ => false

def endsOperand : Token → Bool
  | .number _ | .rightParen _ => true
  | _ => false

/-- The number of operands directly behind another one. `after` tells whether an operand has just
ended. -/
def crowded (after : Bool) : List Token → Nat
  | [] => 0
  | t :: ts => (after && t.startsOperand).toNat + crowded t.endsOperand ts

/-- The number of places where an operand has to start and none does. -/
def missing (after : Bool) : List Token → Nat
  | [] => (!after).toNat
  | t :: ts => (!after && !t.startsOperand).toNat + missing t.endsOperand ts

def callsBracketed : List Token → Bool
  | .function _ :: .leftParen _ :: ts => callsBracketed ts
  | .function _ :: _ => false
  | _ :: ts => callsBracketed ts
  | [] => true

def closes (depth : Nat) : List Token → Bool
  | [] => depth = 0
  | .leftParen _ :: ts => closes (depth + 1) ts
  | .rightParen _ :: ts => depth ≠ 0 && closes (depth - 1) ts
  | _ :: ts => closes depth ts

structure Alternates (after : Bool) (ts : List Token) : Prop where
  crowded : crowded after ts = 0
  missing : missing after ts = 0
  calls : callsBracketed ts

end Token

open Token

theorem Derives.counts (h : Derives rank ts t) (rest : List Token) :
    crowded false (ts ++ rest) = crowded true rest ∧
    missing false (ts ++ rest) = missing true rest ∧
    callsBracketed (ts ++ rest) = callsBracketed rest := by
  induction h using Derives.induction generalizing rest with
  | number v => simp [crowded, missing, callsBracketed, startsOperand, endsOperand]
  | group h ih =>
    have := ih (.rightParen :: rest)
    simp_all [crowded, missing, callsBracketed, startsOperand, endsOperand]
  | call f h ih =>
    have := ih (.rightParen :: rest)
    simp_all [crowded, missing, callsBracketed, startsOperand, endsOperand]
  | @binary o ls l rs r hl hr ihl ihr =>
    have left := ihl (.operator (.listed o) :: (rs ++ rest))
    have right := ihr rest
    simp_all [crowded, missing, callsBracketed, startsOperand, endsOperand]
  | widen le h ih => exact ih rest

theorem Derives.alternates (h : Derives rank ts t) : Alternates false ts := by
  obtain ⟨crowded, missing, calls⟩ := h.counts []
  rw [List.append_nil] at crowded missing calls
  exact ⟨crowded, missing, calls⟩

/-- Tokens before a place where an operand has ended, inside `depth` open parentheses: each of them
holds an expression so far, and stands where an operand has to start. -/
def Complete : Nat → List Token → Prop
  | 0, ts => ∃ t, Derives .sum ts t
  | depth + 1, ts => ∃ outer call body t, ts = outer ++ (call ++ .leftParen :: body) ∧
    Derives .sum body t ∧ (call = [] ∨ ∃ f, call = [.function (.listed f)]) ∧
    ∀ as a, Derives .atom as a → Complete depth (outer ++ as)

def Awaits (depth : Nat) (ts : List Token) : Prop :=
  ∀ as a, Derives .atom as a → Complete depth (ts ++ as)

theorem Complete.operator (h : Complete depth ts) (o : Operator) :
    Awaits depth (ts ++ [.operator (.listed o)]) := by
  intro as a atom
  have loosest : Rank.level .sum ≤ o.precedence := by cases o <;> decide
  cases depth with
  | zero =>
    obtain ⟨t, h⟩ := h
    obtain ⟨u, h⟩ := h.extend o loosest atom
    exact ⟨u, by simpa using h⟩
  | succ depth =>
    obtain ⟨outer, call, body, t, rfl, h, calls, awaits⟩ := h
    obtain ⟨u, h⟩ := h.extend o loosest atom
    exact ⟨outer, call, _, u, by simp, h, calls, awaits⟩

theorem Awaits.leftParen (h : Awaits depth ts)
    (calls : call = [] ∨ ∃ f, call = [.function (.listed f)]) :
    Awaits (depth + 1) (ts ++ (call ++ [.leftParen])) := by
  intro as a atom
  exact ⟨ts, call, as, a, by simp, atom.widen (by decide), calls, h⟩

theorem Complete.rightParen (h : Complete (depth + 1) ts) :
    Complete depth (ts ++ [.rightParen]) := by
  obtain ⟨outer, call, body, t, rfl, h, rfl | ⟨f, rfl⟩, awaits⟩ := h
  · simpa using awaits _ _ (.group h)
  · simpa using awaits _ _ (.call f h)

def Stands (after : Bool) (depth : Nat) (ts : List Token) : Prop :=
  if after then Complete depth ts else Awaits depth ts

theorem Stands.step {t : Token} (h : Stands after depth before) (plain : Plain t)
    (comma : t.isComma = false) (single : ∀ f, t ≠ .function f) (turn : t.startsOperand = !after)
    (closed : closes depth (t :: ts)) :
    ∃ depth, Stands t.endsOperand depth (before ++ [t]) ∧ closes depth ts := by
  cases plain with
  | number v =>
    cases after <;> cases turn
    exact ⟨depth, h _ _ (.number v), closed⟩
  | operator o =>
    cases after <;> cases turn
    exact ⟨depth, Complete.operator h o, closed⟩
  | function f => exact absurd rfl (single _)
  | leftParen =>
    cases after <;> cases turn
    exact ⟨depth + 1, @Awaits.leftParen _ _ [] h (.inl rfl), closed⟩
  | rightParen =>
    cases after <;> cases turn
    cases depth with
    | zero => simp [closes] at closed
    | succ depth => exact ⟨depth, Complete.rightParen h, closed⟩
  | comma => cases comma

theorem turn_of_cons (crowd : crowded after (t :: ts) = 0) (miss : missing after (t :: ts) = 0) :
    t.startsOperand = !after ∧ crowded t.endsOperand ts = 0 ∧ missing t.endsOperand ts = 0 := by
  cases after <;> cases h : t.startsOperand <;> simp_all [crowded, missing]

theorem Stands.derives {ts : List Token} (plain : ∀ t ∈ ts, Plain t)
    (comma : ∀ t ∈ ts, t.isComma = false) (turns : Alternates after ts) (closed : closes depth ts)
    (h : Stands after depth before) : ∃ t, Derives .sum (before ++ ts) t := by
  obtain ⟨crowd, miss, calls⟩ := turns
  fun_induction callsBracketed ts generalizing before after depth with
  -- A function is read with its parenthesis at once: `Stands` has no case between them.
  | case1 f s ts ih =>
    simp only [List.forall_mem_cons] at plain comma
    obtain ⟨first, second, plain⟩ := plain
    obtain ⟨turn, crowd₁, miss₁⟩ := turn_of_cons crowd miss
    obtain ⟨-, crowd₂, miss₂⟩ := turn_of_cons crowd₁ miss₁
    cases after <;> cases turn
    cases first with
    | function f =>
      cases second
      have opened : Stands false (depth + 1) (before ++ [.function (.listed f), .leftParen]) :=
        Awaits.leftParen h (.inr ⟨f, rfl⟩)
      simpa using ih plain comma.2.2 closed opened crowd₂ miss₂ calls
  | case2 => cases calls
  | case3 t ts notCall single ih =>
    simp only [List.forall_mem_cons] at plain comma
    obtain ⟨turn, crowd, miss⟩ := turn_of_cons crowd miss
    obtain ⟨depth, h, closed⟩ := h.step plain.1 comma.1 single turn closed
    simpa using ih plain.2 comma.2 closed h crowd miss calls
  | case4 =>
    cases after with
    | true =>
      cases depth with
      | zero =>
        rw [List.append_nil]
        exact h
      | succ depth => cases closed
    | false => cases miss

theorem derives_of_alternates {ts : List Token} (turns : Alternates false ts)
    (plain : ∀ t ∈ ts, Plain t) (comma : ∀ t ∈ ts, t.isComma = false) (closed : closes 0 ts) :
    ∃ t, Derives .sum ts t := by
  have start : Stands false 0 [] := fun as a atom => ⟨a, atom.widen (by decide)⟩
  exact start.derives plain comma turns closed

namespace Token

def isNumber : Token → Bool
  | .number _ => true
  | _ => false

def isOperator : Token → Bool
  | .operator _ => true
  | _ => false

/-- Each crowded place has an operand more than the operators ask for, and each missing one an
operand less. -/
theorem crowded_add_operators {ts : List Token} (plain : ∀ t ∈ ts, Plain t)
    (comma : ∀ t ∈ ts, t.isComma = false) (after : Bool) :
    crowded after ts + ts.countP isOperator + 1 =
      missing after ts + ts.countP isNumber + after.toNat := by
  induction ts generalizing after with
  | nil => cases after <;> rfl
  | cons t ts ih =>
    simp only [List.forall_mem_cons] at plain comma
    have := ih plain.2 comma.2 t.endsOperand
    cases plain.1 with
    | comma => cases comma.1
    | number v | operator o | function f | leftParen | rightParen =>
      cases after <;> simp_all [crowded, missing, startsOperand, endsOperand, List.countP_cons,
        isNumber, isOperator] <;> omega

end Token

end Reckon
