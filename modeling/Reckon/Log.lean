import Reckon.Evaluate

namespace Reckon.Log

inductive Level
  | debug
  | info
  | warning
  | error
  | critical
  deriving DecidableEq, Repr

namespace Level

def rank : Level → Nat
  | .debug => 10
  | .info => 20
  | .warning => 30
  | .error => 40
  | .critical => 50

def text : Level → String
  | .debug => "DEBUG"
  | .info => "INFO"
  | .warning => "WARNING"
  | .error => "ERROR"
  | .critical => "CRITICAL"

end Level

inductive Source
  | lexer
  | order
  | computation
  | finiteness
  | evaluator
  | session
  | settings
  | program
  deriving DecidableEq, Repr

def Source.text : Source → String
  | .lexer => "core.tokenizer"
  | .order => "core.parser"
  | .computation => "core.rpn_evaluator"
  | .finiteness => "core.pipeline"
  | .evaluator => "calculator.evaluator"
  | .session => "calculator.session"
  | .settings => "config.config"
  | .program => "main"

structure Record where
  level : Level
  source : Source
  message : String
  deriving DecidableEq, Repr

def Record.line (r : Record) : String :=
  r.source.text ++ " - " ++ r.level.text ++ " - " ++ r.message

def atLeast (level : Level) (rs : List Record) : List Record :=
  rs.filter (level.rank ≤ ·.level.rank)

def after (r : Except ε α) (records : α → List Record) : List Record :=
  match r with
  | .ok a => records a
  | .error _ => []

def lexing (x : Input α) : List Record :=
  match x with
  | .text s => after (tokenize s) fun ts =>
    [⟨.debug, .lexer, "Tokenized " ++ Text.quote s ++ " into " ++ toString ts.length ++ " tokens"⟩]
  | .other _ => []

def ordering (ts : List Token) : List Record :=
  after (Postfix.ofTokens ts) fun ordered => [⟨.debug, .order, "RPN: " ++ Token.line ordered⟩]

def computing (ordered : List Token) : List Record :=
  match Postfix.eval ordered with
  | .error (.evaluation (.eval e)) =>
    match e with
    | .missingOperand o => [record ("Insufficient operands for " ++ o.text Operator.text)]
    | .missingArgument f => [record ("Missing argument for " ++ f.text Func.text)]
    | .unexpectedToken t => [record ("Unexpected token in RPN: " ++ t.describe)]
    | .leftover n =>
      [record ("Stack has " ++ toString n ++ " elements after evaluation, expected 1")]
    | .domain _ => []
  | _ => []
where
  record (message : String) : Record := ⟨.debug, .computation, message⟩

def checking (s : String) (v : Float) : List Record :=
  if v.isFinite then []
  else [⟨.debug, .finiteness,
    "Non-finite result for " ++ Text.quote s ++ ": " ++ Layout.record.write v⟩]

def evaluation (s : String) : List Record :=
  lexing (.text s : Input Unit) ++ after (tokenize s) fun ts =>
    ordering ts ++ after (Postfix.ofTokens ts) fun ordered =>
      computing ordered ++ after (Postfix.eval ordered) (checking s)

end Reckon.Log
