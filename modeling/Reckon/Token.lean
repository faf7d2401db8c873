import Reckon.Operator
import Reckon.Number.Layout
import Reckon.Text.Quoted

namespace Reckon

/-- An entry of a table, or a text that the table does not list. -/
inductive Named (α : Type)
  | listed : α → Named α
  | unlisted : String → Named α
  deriving DecidableEq, Repr

def Operator.named (s : String) : Named Operator := ((ofText? s).map .listed).getD (.unlisted s)

def Func.named (s : String) : Named Func := ((ofText? s).map .listed).getD (.unlisted s)

def Named.text (label : α → String) : Named α → String
  | .listed a => label a
  | .unlisted s => s

inductive UnknownName
  | operator : String → UnknownName
  | function : String → UnknownName
  deriving DecidableEq, Repr

def UnknownName.message : UnknownName → String
  | .operator s => "Unknown operator: " ++ s
  | .function s => "Unknown function: " ++ s

inductive TokenKind
  | number
  | operator
  | function
  | leftParen
  | rightParen
  | comma
  | unknown
  deriving DecidableEq, Repr

namespace TokenKind

def all : List TokenKind := [.number, .operator, .function, .leftParen, .rightParen, .comma]

def inPostfixOrder : List TokenKind := [.function, .number, .operator]

def text : TokenKind → String
  | .number => "number"
  | .operator => "operator"
  | .function => "function"
  | .leftParen => "left_paren"
  | .rightParen => "right_paren"
  | .comma => "comma"
  | .unknown => "unknown"

end TokenKind

/-- A token. The text of a mark counts only where the token is shown. -/
inductive Token
  | number : Float → Token
  | operator : Named Operator → Token
  | function : Named Func → Token
  | leftParen (text : String := "(") : Token
  | rightParen (text : String := ")") : Token
  | comma (text : String := ",") : Token
  | unknown : String → Token
  deriving DecidableEq

namespace Token

def kind : Token → TokenKind
  | .number _ => .number
  | .operator _ => .operator
  | .function _ => .function
  | .leftParen _ => .leftParen
  | .rightParen _ => .rightParen
  | .comma _ => .comma
  | .unknown _ => .unknown

def text : Token → String
  | .number v => Layout.record.write v
  | .operator o => o.text Operator.text
  | .function f => f.text Func.text
  | .leftParen s | .rightParen s | .comma s | .unknown s => s

def describe (t : Token) : String :=
  let value := match t with
    | .number _ => t.text
    | _ => Text.quote t.text
  "Token(" ++ t.kind.text.map Char.toUpper ++ ", " ++ value ++ ")"

def operator? (s : String) : Except UnknownName Token :=
  match Operator.ofText? s with
  | some o => .ok (.operator (.listed o))
  | none => .error (.operator s)

def function? (s : String) : Except UnknownName Token :=
  match Func.ofText? s with
  | some f => .ok (.function (.listed f))
  | none => .error (.function s)

def line (ts : List Token) : String :=
  " ".intercalate (ts.map text)

end Token

end Reckon
