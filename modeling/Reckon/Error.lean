import Reckon.Token

namespace Reckon

inductive LexFault
  | unexpectedCharacter
  | malformedNumber
  | unknownIdentifier
  deriving DecidableEq, Repr

inductive LexError
  | notText : LexError
  | tooLong : LexError
  | at : LexFault → Nat → LexError
  deriving DecidableEq, Repr

inductive ParseError
  | mismatchedParentheses : ParseError
  | unexpectedToken : Token → ParseError
  deriving DecidableEq

inductive DomainError
  | divisionByZero
  | sqrt
  | ln
  | log10
  deriving DecidableEq, Repr

inductive EvalError
  | domain : DomainError → EvalError
  | missingOperand : Named Operator → EvalError
  | missingArgument : Named Func → EvalError
  | unexpectedToken : Token → EvalError
  | leftover : Nat → EvalError
  deriving DecidableEq

inductive EvaluationError
  | lex : LexError → EvaluationError
  | parse : ParseError → EvaluationError
  | eval : EvalError → EvaluationError
  | nonFinite : EvaluationError
  deriving DecidableEq

/-- What can end a computation: an error of the expression, or a failed lookup. -/
inductive Failure
  | evaluation : EvaluationError → Failure
  | unlisted : String → Failure
  | nothingToDrop : Failure
  deriving DecidableEq

def LexFault.message : LexFault → String
  | .unexpectedCharacter => "unexpected character"
  | .malformedNumber => "malformed number"
  | .unknownIdentifier => "unknown identifier"

namespace LexError

def message : LexError → String
  | .notText => "expression must be a string"
  | .tooLong => "expression too long"
  | .at fault position => fault.message ++ " at position " ++ toString position

def position? : LexError → Option Nat
  | .at _ position => some position
  | _ => none

end LexError

def ParseError.message : ParseError → String
  | .mismatchedParentheses => "mismatched parentheses"
  | .unexpectedToken t => "unexpected token: " ++ t.describe

def DomainError.message : DomainError → String
  | .divisionByZero => "division by zero"
  | .sqrt => "invalid sqrt"
  | .ln => "invalid ln"
  | .log10 => "invalid log"

def EvalError.message : EvalError → String
  | .domain e => e.message
  | .missingArgument _ => "invalid function argument"
  | .missingOperand _ | .unexpectedToken _ | .leftover _ => "invalid expression"

def EvaluationError.message : EvaluationError → String
  | .lex e => e.message
  | .parse e => e.message
  | .eval e => e.message
  | .nonFinite => "result is not finite"

def Failure.message : Failure → String
  | .evaluation e => e.message
  | .unlisted s => Text.quote s
  | .nothingToDrop => Text.quote "dictionary is empty"

end Reckon
