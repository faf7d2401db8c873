import Reckon.Error
import Reckon.Number.Decimal
import Reckon.Text.Blank

/-!
Lexemes, the pieces that a text falls into from left to right, and the tokens that they denote. A
minus sign belongs to the number behind it when nothing, `(`, `,` or an operator stands before it.
-/

namespace Reckon

inductive Lexeme
  | blank : Char → Lexeme
  | leftParen : Lexeme
  | rightParen : Lexeme
  | comma : Lexeme
  | operator : Operator → Lexeme
  | literal : Bool → List Char → Lexeme
  | identifier : List Char → Lexeme
  | stray : Char → Lexeme
  deriving DecidableEq, Repr

namespace Lexeme

def text : Lexeme → List Char
  | .blank c => [c]
  | .leftParen => ['(']
  | .rightParen => [')']
  | .comma => [',']
  | .operator o => [o.symbol]
  | .literal negative run => if negative then '-' :: run else run
  | .identifier name => name
  | .stray c => [c]

def isRunChar (c : Char) : Bool := c.isDigit || c = '.'

def startsRun : List Char → Bool
  | [] => false
  | [c] => c.isDigit
  | c :: d :: _ => c.isDigit || (c = '.' && d.isDigit)

def literalOf (negative : Bool) (s : List Char) : Lexeme × List Char :=
  (.literal negative (s.takeWhile isRunChar), s.dropWhile isRunChar)

/-- The lexeme at the front of `c :: s`, and the rest. `signed` tells whether a sign may stand
here. -/
def first (signed : Bool) (c : Char) (s : List Char) : Lexeme × List Char :=
  if Text.isBlank c then (.blank c, s)
  else if c = '(' then (.leftParen, s)
  else if c = ')' then (.rightParen, s)
  else if c = ',' then (.comma, s)
  else if c = '-' && signed && startsRun s then literalOf true s
  else match Operator.ofChar? c with
    | some o => (.operator o, s)
    | none =>
      if startsRun (c :: s) then literalOf false (c :: s)
      else if c.isAlpha then
        (.identifier (c :: s.takeWhile Char.isAlphanum), s.dropWhile Char.isAlphanum)
      else (.stray c, s)

def nameToken (name : List Char) : Except LexFault Token :=
  let lower := String.ofList (name.map Char.toLower)
  match constants.lookup lower, Func.ofText? lower with
  | some v, _ => .ok (.number v)
  | none, some f => .ok (.function (.listed f))
  | none, none => .error .unknownIdentifier

def token : Lexeme → Except LexFault (Option Token)
  | .blank _ => .ok none
  | .leftParen => .ok (some .leftParen)
  | .rightParen => .ok (some .rightParen)
  | .comma => .ok (some .comma)
  | .operator o => .ok (some (.operator (.listed o)))
  | .literal negative run =>
    if run.count '.' ≤ 1 then .ok (some (.number ((Decimal.ofRun run).toFloat negative)))
    else .error .malformedNumber
  | .identifier name => (nameToken name).map some
  | .stray _ => .error .unexpectedCharacter

theorem text_first (signed : Bool) (c : Char) (s : List Char) :
    (first signed c s).1.text ++ (first signed c s).2 = c :: s := by
  have symbol {o : Operator} (h : Operator.ofChar? c = some o) : o.symbol = c := by
    simpa using List.find?_some h
  have run (p : Char → Bool) (s : List Char) := List.takeWhile_append_dropWhile (p := p) (l := s)
  grind [first, literalOf, text]

theorem length_dropWhile_le (p : Char → Bool) (s : List Char) : (s.dropWhile p).length ≤ s.length :=
  (List.dropWhile_sublist p).length_le

theorem length_first (signed : Bool) (c : Char) (s : List Char) :
    (first signed c s).2.length ≤ s.length := by
  have run (h : startsRun (c :: s) = true) : isRunChar c = true := by
    cases s <;> grind [startsRun, isRunChar]
  have drop := length_dropWhile_le
  grind [first, literalOf, List.dropWhile_cons]

end Lexeme

namespace Token

def allowsSign : Option Token → Bool
  | none | some (.leftParen _) | some (.comma _) | some (.operator _) => true
  | _ => false

def scan (previous : Option Token) (position : Nat) : List Char → Except LexError (List Token)
  | [] => .ok []
  | c :: s =>
    let piece := Lexeme.first (allowsSign previous) c s
    match piece.1.token with
    | .error fault => .error (.at fault position)
    | .ok none => scan previous (position + piece.1.text.length) piece.2
    | .ok (some t) => (scan (some t) (position + piece.1.text.length) piece.2).map (t :: ·)
termination_by s => s.length
decreasing_by all_goals grind [Lexeme.length_first]

end Token

def tokenize (s : String) : Except LexError (List Token) :=
  Token.scan none 0 s.toList

end Reckon
