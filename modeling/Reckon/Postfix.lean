import Reckon.Arithmetic

/-!
Postfix order: operands first, then their operator. `ofTokens` brings infix tokens into it with a
stack of pending operators, functions and open parentheses; `eval` computes with a stack of
operands.
-/

namespace Reckon.Postfix

inductive Pending
  | operator : Named Operator → Pending
  | function : Named Func → Pending
  | leftParen : Pending
  deriving DecidableEq

def precedes : Named Operator → Named Operator → Except Failure Bool
  | .unlisted s, _ => .error (.unlisted s)
  | .listed _, .unlisted s => .error (.unlisted s)
  | .listed top, .listed incoming => .ok (top.precedes incoming)

def popBefore (incoming : Named Operator) :
    List Pending → Except Failure (List Token × List Pending)
  | .operator top :: below =>
    match precedes top incoming with
    | .error f => .error f
    | .ok false => .ok ([], .operator top :: below)
    | .ok true => (popBefore incoming below).map fun r => (.operator top :: r.1, r.2)
  | stack => .ok ([], stack)

/-- Moves the stack down to the last open parenthesis to the output, and with it the function whose
argument the parentheses hold. -/
def popGroup : List Pending → Except Failure (List Token × List Pending)
  | [] => .error (.evaluation (.parse .mismatchedParentheses))
  | .leftParen :: .function f :: below => .ok ([.function f], below)
  | .leftParen :: below => .ok ([], below)
  | .operator o :: below => (popGroup below).map fun r => (.operator o :: r.1, r.2)
  | .function f :: below => (popGroup below).map fun r => (.function f :: r.1, r.2)

def popAll : List Pending → Except Failure (List Token)
  | [] => .ok []
  | .leftParen :: _ => .error (.evaluation (.parse .mismatchedParentheses))
  | .operator o :: below => (popAll below).map (.operator o :: ·)
  | .function f :: below => (popAll below).map (.function f :: ·)

def step (stack : List Pending) : Token → Except Failure (List Token × List Pending)
  | .number v => .ok ([.number v], stack)
  | .function f => .ok ([], .function f :: stack)
  | .operator o => (popBefore o stack).map fun r => (r.1, .operator o :: r.2)
  | .leftParen _ => .ok ([], .leftParen :: stack)
  | .rightParen _ => popGroup stack
  | .comma _ => .ok ([], stack)
  | .unknown s => .error (.evaluation (.parse (.unexpectedToken (.unknown s))))

def run (stack : List Pending) : List Token → Except Failure (List Token)
  | [] => popAll stack
  | t :: ts => do
    let (out, stack) ← step stack t
    return out ++ (← run stack ts)

def ofTokens (ts : List Token) : Except Failure (List Token) :=
  run [] ts

def domain (r : Except DomainError Float) : Except Failure Float :=
  r.mapError fun e => .evaluation (.eval (.domain e))

@[simp] theorem domain_ok (v : Float) : domain (.ok v) = .ok v := rfl

@[simp] theorem domain_error (e : DomainError) :
    domain (.error e) = .error (.evaluation (.eval (.domain e))) := rfl

def apply (stack : List Float) : Token → Except Failure (List Float)
  | .number v => .ok (v :: stack)
  | .operator o => match stack, o with
    | y :: x :: below, .listed o => (domain (o.apply x y)).map (· :: below)
    | _ :: _ :: _, .unlisted s => .error (.unlisted s)
    | _, o => .error (.evaluation (.eval (.missingOperand o)))
  | .function f => match stack, f with
    | x :: below, .listed f => (domain (f.apply x)).map (· :: below)
    | _ :: _, .unlisted s => .error (.unlisted s)
    | [], f => .error (.evaluation (.eval (.missingArgument f)))
  | t => .error (.evaluation (.eval (.unexpectedToken t)))

def eval (ts : List Token) : Except Failure Float := do
  match ← ts.foldlM apply [] with
  | [v] => return v
  | stack => throw (.evaluation (.eval (.leftover stack.length)))

end Reckon.Postfix
