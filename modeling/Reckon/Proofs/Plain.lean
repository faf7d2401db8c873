import Reckon.Lexeme
import Reckon.Proofs.Except

namespace Reckon.Token

inductive Plain : Token → Prop
  | number (v : Float) : Plain (.number v)
  | operator (o : Operator) : Plain (.operator (.listed o))
  | function (f : Func) : Plain (.function (.listed f))
  | leftParen : Plain .leftParen
  | rightParen : Plain .rightParen
  | comma : Plain .comma

/-- An operator, if the token is one, is in the table and can be compared with others. -/
def IsComparable : Token → Prop
  | .operator (.unlisted _) => False
  | _ => True

theorem Plain.isComparable (h : Plain t) : t.IsComparable := by
  cases h <;> trivial

theorem Plain.kind_ne_unknown (h : Plain t) : t.kind ≠ .unknown := by
  cases h <;> simp [kind]

theorem plain_of_nameToken {name : List Char} (h : Lexeme.nameToken name = .ok t) : Plain t := by
  rw [Lexeme.nameToken] at h
  split at h <;> cases h
  · exact .number _
  · exact .function _

theorem plain_of_token {piece : Lexeme} (h : piece.token = .ok (some t)) : Plain t := by
  cases piece with
  | blank c => cases h
  | leftParen => cases h; exact .leftParen
  | rightParen => cases h; exact .rightParen
  | comma => cases h; exact .comma
  | operator o => cases h; exact .operator o
  | literal negative run =>
    rw [Lexeme.token] at h
    split at h <;> cases h
    exact .number _
  | identifier name =>
    obtain ⟨u, name, eq⟩ := map_eq_ok.1 h
    cases eq
    exact plain_of_nameToken name
  | stray c => cases h

theorem plain_of_scan (previous : Option Token) (position : Nat) (s : List Char) :
    ∀ {ts}, scan previous position s = .ok ts → ∀ t ∈ ts, Plain t := by
  fun_induction scan previous position s with
  | case1 => intro ts h; cases h; simp
  | case2 => intro ts h; cases h
  | case3 => assumption
  | case4 =>
    rename_i token ih
    intro ts h
    obtain ⟨us, rest, eq⟩ := map_eq_ok.1 h
    cases eq
    exact List.forall_mem_cons.2 ⟨plain_of_token token, ih rest⟩

theorem plain_of_tokenize (h : tokenize s = .ok ts) : ∀ t ∈ ts, Plain t :=
  plain_of_scan _ _ _ h

end Reckon.Token
