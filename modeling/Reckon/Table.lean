import Reckon.Evaluator
import Reckon.Number.Places

/-!
Rows as a table of text: columns are aligned to the right and one space apart. Results have six
places, less the zeros that all of them end with but one; if one is tiny, or one is large and they
take too much room, all are written with an exponent.
-/

namespace Reckon.Table

def visible (s : String) : List Char :=
  s.toList.flatMap fun c =>
    if c = '\t' then ['\\', 't'] else if c = '\n' then ['\\', 'n'] else if c = '\r' then ['\\', 'r']
    else [c]

def padLeft (width : Nat) (s : List Char) : List Char :=
  List.replicate (width - s.length) ' ' ++ s

def maxLength (least : Nat) (cells : List (List Char)) : Nat :=
  cells.foldl (fun n cell => max n cell.length) least

def zeros (cell : List Char) : Nat := (cell.reverse.takeWhile (· = '0')).length

def spare (numbers : List (List Char)) : Nat :=
  numbers.foldl (fun n cell => min n (zeros cell)) 5

def missing : List Char := "NaN".toList

def fixedCells (values : List (Option Float)) : List (List Char) :=
  let drop := spare (values.filterMap fun v => v.map (Places.fixed 6))
  values.map fun
    | some v => (Places.fixed 6 v).take ((Places.fixed 6 v).length - drop)
    | none => missing

def isTiny (v : Float) : Bool := 0 < v.abs && v.abs < 1e-6

def isLarge (v : Float) : Bool := 1e6 < v.abs

def resultCells (values : List (Option Float)) : List (List Char) :=
  let cells := fixedCells values
  let numbers := values.filterMap id
  if numbers.any isTiny || (numbers.any isLarge && 12 < maxLength 0 cells) then
    values.map fun
      | some v => Places.scientific 6 v
      | none => missing
  else cells

def column (least : Nat) (header : String) (cells : List (List Char)) : List (List Char) :=
  let width := maxLength least cells
  padLeft width header.toList :: cells.map (padLeft width)

def expressionText : Input α → String
  | .text s => s
  | .other _ => ""

def lines (rows : List (Row β α)) : List (List Char) :=
  let expressions := column labels.expressionColumn.length labels.expressionColumn
    (rows.map fun r => visible (expressionText r.expression))
  let results := column (labels.resultColumn.length + 1) labels.resultColumn
    (resultCells (rows.map Row.result?))
  let errors := column labels.errorColumn.length labels.errorColumn
    (rows.map fun r => visible (r.error?.getD "None"))
  List.zipWith (fun a b => a ++ ' ' :: b) expressions
    (List.zipWith (fun a b => a ++ ' ' :: b) results errors)

def empty : String :=
  "Empty DataFrame\nColumns: [" ++ labels.expressionColumn ++ ", " ++ labels.resultColumn ++ ", " ++
    labels.errorColumn ++ "]\nIndex: []"

def render (rows : List (Row β α)) : String :=
  if rows.isEmpty then empty else String.ofList (['\n'].intercalate (lines rows))

end Reckon.Table
