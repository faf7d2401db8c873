import Reckon.Lexeme
import Reckon.Postfix

namespace Reckon

def finite (v : Float) : Except Failure Float :=
  if v.isFinite then .ok v else .error (.evaluation .nonFinite)

def lexed (r : Except LexError α) : Except Failure α :=
  r.mapError fun e => .evaluation (.lex e)

def evaluate (s : String) : Except Failure Float := do
  let infixTokens ← lexed (tokenize s)
  let ordered ← Postfix.ofTokens infixTokens
  finite (← Postfix.eval ordered)

/-- What is handed in as an expression: a text, or another value, which is only carried along. -/
inductive Input (α : Type)
  | text : String → Input α
  | other : α → Input α
  deriving DecidableEq, Repr

namespace Input

def tokenize : Input α → Except LexError (List Token)
  | .text s => Reckon.tokenize s
  | .other _ => .error .notText

def evaluate : Input α → Except Failure Float
  | .text s => Reckon.evaluate s
  | .other _ => lexed (.error .notText)

end Input

end Reckon
