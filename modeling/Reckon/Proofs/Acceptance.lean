import Reckon.Proofs.Failures
import Reckon.Proofs.Listings
import Reckon.Proofs.Ordering
import Reckon.Proofs.Spelling

namespace Reckon

namespace Expr

theorem countP_ordered (t : Expr) :
    t.ordered.countP Token.isNumber = t.ordered.countP Token.isOperator + 1 := by
  induction t with
  | number v => rfl
  | unary f x ih => simpa [ordered, Token.isNumber, Token.isOperator] using ih
  | binary o l r ihl ihr =>
    simp only [ordered, List.countP_append, ihl, ihr]
    simp [Token.isNumber, Token.isOperator]
    omega

end Expr

open Token Postfix

def uncomma (ts : List Token) : List Token := ts.filter (!·.isComma)

/-- A text is read as a tree when its tokens are brought into the order of the tree. -/
def ReadsAs (s : String) (ts : List Token) (t : Expr) : Prop :=
  tokenize s = .ok ts ∧ ofTokens ts = .ok t.ordered

theorem ReadsAs.of_evaluate (h : evaluate s = .ok v) : ∃ ts t, ReadsAs s ts t ∧ t.eval = .ok v := by
  obtain ⟨ts, out, scan, order, total, -⟩ := evaluate_eq_ok.1 h
  obtain ⟨t, rfl, value⟩ := ordered_of_eval total
  exact ⟨ts, t, ⟨scan, order⟩, value⟩

theorem ReadsAs.plain (h : ReadsAs s ts t) : ∀ u ∈ uncomma ts, Plain u :=
  fun u mem => plain_of_tokenize h.1 u (List.mem_of_mem_filter mem)

theorem ReadsAs.ofTokens_uncomma (h : ReadsAs s ts t) : ofTokens (uncomma ts) = .ok t.ordered := by
  rw [ofTokens, uncomma, run_filter_comma]
  exact h.2

theorem isComma_of_mem_uncomma {u : Token} (h : u ∈ uncomma ts) : u.isComma = false := by
  simpa using (List.mem_filter.1 h).2

theorem crowded_eq_missing_of_ofTokens {us : List Token} {t : Expr} (plain : ∀ t ∈ us, Plain t)
    (comma : ∀ t ∈ us, t.isComma = false) (order : ofTokens us = .ok t.ordered) :
    crowded false us = missing false us := by
  have numbers : t.ordered.countP isNumber = us.countP isNumber :=
    countP_of_run (fun _ => inPostfixOrder_of_isNumber) order
  have operators : t.ordered.countP isOperator = us.countP isOperator :=
    countP_of_run (fun _ => inPostfixOrder_of_isOperator) order
  have := crowded_add_operators plain comma false
  have := t.countP_ordered
  simp only [Bool.toNat_false] at *
  omega

theorem Derives.noComma (h : Derives rank ts t) : ∀ u ∈ ts, u.isComma = false := by
  induction h using Derives.induction with
  | number v => simp [isComma]
  | group h ih => simpa [isComma, or_imp, forall_and] using ih
  | call f h ih => simpa [isComma, or_imp, forall_and] using ih
  | binary o hl hr ihl ihr => simpa [isComma, or_imp, forall_and] using ⟨ihl, ihr⟩
  | widen le h ih => exact ih

theorem Derives.uncomma (h : Derives rank ts t) : uncomma ts = ts :=
  List.filter_eq_self.2 fun u mem => by simp [h.noComma u mem]

namespace ReadsAs

theorem crowded_eq_missing (h : ReadsAs s ts t) :
    crowded false (uncomma ts) = missing false (uncomma ts) :=
  crowded_eq_missing_of_ofTokens h.plain (fun _ => isComma_of_mem_uncomma) h.ofTokens_uncomma

theorem derives_iff (h : ReadsAs s ts t) :
    Derives .sum (uncomma ts) t ↔
      missing false (uncomma ts) = 0 ∧ callsBracketed (uncomma ts) := by
  constructor
  · intro derives
    exact ⟨derives.alternates.missing, derives.alternates.calls⟩
  · intro ⟨gapless, calls⟩
    have turns : Alternates false (uncomma ts) :=
      ⟨h.crowded_eq_missing.trans gapless, gapless, calls⟩
    obtain ⟨u, derives⟩ := derives_of_alternates turns h.plain
      (fun _ => isComma_of_mem_uncomma) (closes_of_run h.ofTokens_uncomma)
    have same := (ofTokens_derives derives).symm.trans h.ofTokens_uncomma
    rw [Except.ok.injEq] at same
    rwa [Expr.ordered_inj same] at derives

end ReadsAs

/-- Texts with a value are read as a tree. In what is read, each missing operand goes with one that
is crowded; without its commas it derives the tree just when no operand is missing and all functions
have their parentheses, and then only the commas can keep it from being well formed. -/
theorem derives_iff_of_reads (s : String) :
    (∀ v, evaluate s = .ok v → ∃ ts t, ReadsAs s ts t ∧ t.eval = .ok v) ∧
    ∀ ts t, ReadsAs s ts t →
      crowded false (uncomma ts) = missing false (uncomma ts) ∧
      (Derives .sum (uncomma ts) t ↔
        missing false (uncomma ts) = 0 ∧ callsBracketed (uncomma ts)) ∧
      ((∃ u, Derives .sum ts u) ↔ uncomma ts = ts ∧ Derives .sum (uncomma ts) t) := by
  refine ⟨fun v h => ReadsAs.of_evaluate h, fun ts t h => ?_⟩
  refine ⟨h.crowded_eq_missing, h.derives_iff, ?_, ?_⟩
  · rintro ⟨u, derives⟩
    have same := derives.uncomma
    refine ⟨same, h.derives_iff.2 ?_⟩
    rw [same]
    exact ⟨derives.alternates.missing, derives.alternates.calls⟩
  · rintro ⟨same, derives⟩
    exact ⟨t, same ▸ derives⟩

theorem reads_crowded :
    ReadsAs "1 2+" [.number 1, .number 2, .operator (.listed .add)]
      (.binary .add (.number 1) (.number 2)) := by
  have plus : Spells ['+'] _ := .operator .add
  have apart : Breaks (['+'] ++ []) := .cons _ (by decide)
  refine ⟨?_, rfl⟩
  rw [tokenize, show "1 2+".toList = ['1'] ++ ' ' :: (['2'] ++ (['+'] ++ [])) from rfl]
  rw [spells_one.scan (fun _ => .cons _ (by decide)) (by simp), scan_blank (by decide)]
  rw [spells_two.scan (fun _ => apart) (by simp), plus.scan (by simp [spreads]) (by simp), scan_nil]
  rfl

theorem not_derives_of_crowded :
    evaluate "1 2+" = .ok 3 ∧ ∃ ts t, ReadsAs "1 2+" ts t ∧ ¬ ∃ u, Derives .sum ts u := by
  refine ⟨?_, _, _, reads_crowded, ?_⟩
  · obtain ⟨scan, order⟩ := reads_crowded
    rw [evaluate, scan]
    have sum : (1 + 2 : Float) = 3 := by decide +kernel
    have small : (3 : Float).isFinite := by decide +kernel
    simp [lexed, Except.mapError, order, Expr.eval_ordered, Expr.eval, Operator.apply, sum, finite,
      small]
  · rintro ⟨u, derives⟩
    exact absurd derives.alternates.crowded (by decide)

theorem counts_crowded :
    ReadsAs "1 2+" [.number 1, .number 2, .operator (.listed .add)]
        (.binary .add (.number 1) (.number 2)) ∧
      crowded false (uncomma [.number 1, .number 2, .operator (.listed .add)]) =
        missing false (uncomma [.number 1, .number 2, .operator (.listed .add)]) :=
  ⟨reads_crowded, ((derives_iff_of_reads _).2 _ _ reads_crowded).1⟩

end Reckon
