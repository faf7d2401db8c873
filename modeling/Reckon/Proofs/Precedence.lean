import Reckon.Proofs.Listings
import Reckon.Proofs.Ordering

namespace Reckon

structure Link where
  operator : Operator
  tokens : List Token
  tree : Expr

namespace Link

def chain (first : List Token) (links : List Link) : List Token :=
  first ++ links.flatMap fun k => .operator (.listed k.operator) :: k.tokens

def toLeft (t : Expr) (links : List Link) : Expr :=
  links.foldl (fun l k => .binary k.operator l k.tree) t

def toRight (t : Expr) : List Link → Expr
  | [] => t
  | k :: links => .binary k.operator t (toRight k.tree links)

@[simp] theorem chain_nil (first : List Token) : chain first [] = first := by
  simp [chain]

theorem chain_cons_left (first : List Token) (k : Link) (links : List Link) :
    chain first (k :: links) =
      chain (first ++ .operator (.listed k.operator) :: k.tokens) links := by
  simp [chain]

theorem chain_cons_right (first : List Token) (k : Link) (links : List Link) :
    chain first (k :: links) =
      first ++ .operator (.listed k.operator) :: chain k.tokens links := by
  simp [chain]

end Link

open Link

namespace Operator

variable {o p : Operator}

theorem rank_congr (h : p.precedence = o.precedence) : p.rank = o.rank := by
  cases o <;> cases p <;> simp_all [precedence, rank]

theorem leftRank_of_ne_pow (h : o ≠ .pow) : o.leftRank = o.rank := by
  cases o <;> simp_all [leftRank]

theorem rightRank_congr (h : p.precedence = o.precedence) : p.rightRank = o.rightRank := by
  cases o <;> cases p <;> simp_all [precedence, rightRank]

theorem leftRank_le_rank (h : p.precedence < o.precedence ∨ p.precedence = o.precedence ∧ o ≠ .pow) :
    p.leftRank.level ≤ o.rank.level := by
  cases o <;> cases p <;> simp_all [precedence, leftRank, rank, Rank.level]

theorem rightRank_le_rank
    (h : ¬(p.precedence < o.precedence ∨ p.precedence = o.precedence ∧ o ≠ .pow)) :
    o.rightRank.level ≤ p.rank.level := by
  cases o <;> cases p <;> simp_all [precedence, rightRank, rank, Rank.level]

end Operator

namespace Derives

variable {first : List Token} {t : Expr} {links : List Link}

theorem chain_left {o : Operator} (left : o ≠ .pow) (h : Derives o.leftRank first t)
    (operands : ∀ k ∈ links,
      k.operator.precedence = o.precedence ∧ Derives o.rightRank k.tokens k.tree) :
    Derives o.rank (chain first links) (toLeft t links) := by
  rw [Operator.leftRank_of_ne_pow left] at h
  induction links generalizing first t with
  | nil => simpa [toLeft] using h
  | cons k links ih =>
    rw [List.forall_mem_cons] at operands
    obtain ⟨⟨same, operand⟩, operands⟩ := operands
    have other : k.operator ≠ .pow := by
      rintro pow
      rw [pow] at same
      cases o <;> simp_all [Operator.precedence]
    rw [← Operator.rank_congr same, ← Operator.leftRank_of_ne_pow other] at h
    rw [← Operator.rightRank_congr same] at operand
    have grown := h.binary k.operator operand
    rw [Operator.rank_congr same] at grown
    rw [chain_cons_left]
    exact ih grown operands

theorem chain_right (h : Derives .atom first t)
    (operands : ∀ k ∈ links, k.operator = .pow ∧ Derives .atom k.tokens k.tree) :
    Derives .power (chain first links) (toRight t links) := by
  induction links generalizing first t with
  | nil => simpa [toRight] using h.ofAtom
  | cons k links ih =>
    rw [List.forall_mem_cons] at operands
    obtain ⟨⟨pow, operand⟩, operands⟩ := operands
    rw [chain_cons_right, toRight, pow]
    exact h.pow (ih operand operands)

theorem chain_two {ts us : List Token} {l r : Expr} (h : Derives .atom first t) (o p : Operator)
    (hl : Derives .atom ts l) (hr : Derives .atom us r) :
    Derives .sum (chain first [⟨o, ts, l⟩, ⟨p, us, r⟩])
      (if p.precedence < o.precedence ∨ p.precedence = o.precedence ∧ o ≠ .pow then
        toLeft t [⟨o, ts, l⟩, ⟨p, us, r⟩]
      else toRight t [⟨o, ts, l⟩, ⟨p, us, r⟩]) := by
  have tightest (rank : Rank) : rank.level ≤ Rank.level .atom := by cases rank <;> decide
  have loosest (rank : Rank) : Rank.level .sum ≤ rank.level := by cases rank <;> decide
  split
  · rename_i before
    have left := (h.widen (tightest _)).binary o (hl.widen (tightest _))
    have whole := (left.widen (Operator.leftRank_le_rank before)).binary p (hr.widen (tightest _))
    rw [chain_cons_left, chain_cons_left, chain_nil]
    exact whole.widen (loosest _)
  · rename_i behind
    have right := (hl.widen (tightest _)).binary p (hr.widen (tightest _))
    have whole := (h.widen (tightest _)).binary o (right.widen (Operator.rightRank_le_rank behind))
    rw [chain_cons_right, chain_cons_right, chain_nil]
    exact whole.widen (loosest _)

end Derives

namespace Postfix

/-- The tokens of a derivation are brought into the listing of its tree, and two derivations into
one listing just if they have one tree: parentheses that leave the tree leave the listing. A chain
of operators of one precedence groups to the left, one of powers to the right; of two operators of
different precedence the tighter one is applied first. -/
theorem ofTokens_of_derivations :
    (∀ rank ts t, Derives rank ts t → ofTokens ts = .ok t.ordered) ∧
    (∀ rank ts t rank' us u, Derives rank ts t → Derives rank' us u →
      (ofTokens ts = ofTokens us ↔ t = u)) ∧
    (∀ (o : Operator) first t links, o ≠ .pow → Derives o.leftRank first t →
      (∀ k ∈ links, k.operator.precedence = o.precedence ∧
        Derives o.rightRank k.tokens k.tree) →
      ofTokens (chain first links) = .ok (toLeft t links).ordered) ∧
    (∀ first t links, Derives .atom first t →
      (∀ k ∈ links, k.operator = .pow ∧ Derives .atom k.tokens k.tree) →
      ofTokens (chain first links) = .ok (toRight t links).ordered) ∧
    ∀ o p first t ts l us r, Derives .atom first t → Derives .atom ts l → Derives .atom us r →
      ofTokens (chain first [⟨o, ts, l⟩, ⟨p, us, r⟩]) = .ok
        (if p.precedence < o.precedence ∨ p.precedence = o.precedence ∧ o ≠ .pow then
          toLeft t [⟨o, ts, l⟩, ⟨p, us, r⟩]
        else toRight t [⟨o, ts, l⟩, ⟨p, us, r⟩]).ordered := by
  refine ⟨fun _ _ _ => ofTokens_derives, ?_, ?_, ?_, ?_⟩
  · intro rank ts t rank' us u ht hu
    rw [ofTokens_derives ht, ofTokens_derives hu, Except.ok.injEq]
    exact ⟨Expr.ordered_inj, congrArg Expr.ordered⟩
  · intro o first t links left h operands
    exact ofTokens_derives (h.chain_left left operands)
  · intro first t links h operands
    exact ofTokens_derives (h.chain_right operands)
  · intro o p first t ts l us r h hl hr
    exact ofTokens_derives (h.chain_two o p hl hr)

theorem ofTokens_of_derivations_numbers :
    ofTokens [.number 1, .operator (.listed .sub), .number 2, .operator (.listed .sub),
      .number 3] = .ok [.number 1, .number 2, .operator (.listed .sub), .number 3,
        .operator (.listed .sub)] ∧
    ofTokens [.number 2, .operator (.listed .pow), .number 3, .operator (.listed .pow),
      .number 2] = .ok [.number 2, .number 3, .number 2, .operator (.listed .pow),
        .operator (.listed .pow)] ∧
    ofTokens [.number 1, .operator (.listed .add), .leftParen, .number 2, .rightParen,
      .operator (.listed .mul), .number 3] = .ok [.number 1, .number 2, .number 3,
        .operator (.listed .mul), .operator (.listed .add)] ∧
    ofTokens [.leftParen, .number 1, .rightParen] = ofTokens [.number 1] ∧
    ofTokens [.number 1] = .ok [.number 1] := by
  obtain ⟨lists, same, left, right, two⟩ := ofTokens_of_derivations
  have group (v : Float) : Derives .atom [.leftParen, .number v, .rightParen] (.number v) :=
    .group (.ofTerm (.ofPower (.ofAtom (.number v))))
  refine ⟨?_, ?_, ?_, ?_, lists _ _ _ (.number 1)⟩
  · exact left .sub [.number 1] (.number 1) [⟨.sub, [.number 2], .number 2⟩,
      ⟨.sub, [.number 3], .number 3⟩] (by decide) (.ofTerm (.ofPower (.ofAtom (.number 1))))
      (List.forall_mem_cons.2 ⟨⟨rfl, .ofPower (.ofAtom (.number 2))⟩,
        List.forall_mem_singleton.2 ⟨rfl, .ofPower (.ofAtom (.number 3))⟩⟩)
  · exact right [.number 2] (.number 2) [⟨.pow, [.number 3], .number 3⟩,
      ⟨.pow, [.number 2], .number 2⟩] (.number 2)
      (List.forall_mem_cons.2 ⟨⟨rfl, .number 3⟩, List.forall_mem_singleton.2 ⟨rfl, .number 2⟩⟩)
  · have mixed := two .add .mul [.number 1] (.number 1) _ _ _ _ (.number 1) (group 2) (.number 3)
    rw [if_neg (by decide)] at mixed
    exact mixed
  · exact (same _ _ _ _ _ _ (group 1) (.number 1)).2 rfl

end Postfix

end Reckon
