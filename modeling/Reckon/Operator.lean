import Reckon.Number.Binary

namespace Reckon

inductive Associativity
  | left
  | right
  deriving DecidableEq, Repr

inductive Operator
  | add
  | sub
  | mul
  | div
  | mod
  | pow
  deriving DecidableEq, Repr

namespace Operator

def all : List Operator := [.add, .sub, .mul, .div, .mod, .pow]

def symbol : Operator → Char
  | .add => '+'
  | .sub => '-'
  | .mul => '*'
  | .div => '/'
  | .mod => '%'
  | .pow => '^'

def text (o : Operator) : String := String.ofList [o.symbol]

def precedence : Operator → Nat
  | .add | .sub => 1
  | .mul | .div | .mod => 2
  | .pow => 3

def associativity : Operator → Associativity
  | .pow => .right
  | _ => .left

def ofChar? (c : Char) : Option Operator := all.find? (·.symbol = c)

def ofText? (s : String) : Option Operator := all.find? (·.text = s)

/-- A pending `top` is applied before `incoming` when it binds tighter, or as tight and to the
left. -/
def precedes (top incoming : Operator) : Bool :=
  incoming.precedence < top.precedence ||
    (top.precedence = incoming.precedence && incoming.associativity = .left)

theorem mem_all (o : Operator) : o ∈ all := by
  cases o <;> simp [all]

@[simp] theorem ofChar?_symbol (o : Operator) : ofChar? o.symbol = some o := by
  cases o <;> rfl

@[simp] theorem ofText?_text (o : Operator) : ofText? o.text = some o := by
  cases o <;> decide

end Operator

inductive Func
  | sin
  | cos
  | tan
  | sqrt
  | ln
  | log10
  deriving DecidableEq, Repr

namespace Func

def all : List Func := [.sin, .cos, .tan, .sqrt, .ln, .log10]

def text : Func → String
  | .sin => "sin"
  | .cos => "cos"
  | .tan => "tan"
  | .sqrt => "sqrt"
  | .ln => "ln"
  | .log10 => "log10"

def ofText? (s : String) : Option Func := all.find? (·.text = s)

theorem mem_all (f : Func) : f ∈ all := by
  cases f <;> simp [all]

@[simp] theorem ofText?_text (f : Func) : ofText? f.text = some f := by
  cases f <;> decide

end Func

def constants : List (String × Float) := [("pi", Float.ofBits 0x400921fb54442d18)]

end Reckon
