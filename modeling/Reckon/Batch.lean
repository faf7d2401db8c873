import Reckon.Csv.Columns
import Reckon.Csv.Writer
import Reckon.Evaluator

namespace Reckon.Batch

inductive Error
  | missingFile : String → Error
  | table : Csv.Error → Error
  | missingColumn (column path : String) : Error
  | unnamedColumn : Error
  | failure : Failure → Error
  deriving DecidableEq

def Error.message : Error → String
  | .missingFile path => "[Errno 2] No such file or directory: " ++ Text.quote path
  | .table e => e.message
  | .missingColumn column path =>
    "Expression column '" ++ column ++ "' not found in " ++ path ++ "."
  | .unnamedColumn => "unhashable type: 'list'"
  | .failure f => f.message

def expressions (path : String) (column content : Option String) :
    Except Error (List (Csv.RowLabel × Input Unit)) := do
  let some text := content | throw (.missingFile path)
  let sheet ← (Csv.read text.toList).mapError .table
  let some column := column | throw .unnamedColumn
  let some cells := sheet.column? column | throw (.missingColumn column path)
  return cells.map fun (label, cell) => (label, .text (GlyphMap.standard.normalize cell))

abbrev BatchRow := Row Csv.RowLabel Unit

def run (e : Evaluator) (path : String) (column content : Option String) :
    Except Error (List BatchRow) × Evaluator :=
  match expressions path column content with
  | .error err => (.error err, e)
  | .ok xs => ((e.many xs).1.mapError .failure, (e.many xs).2)

def record (r : Row β α) : List (List Char) :=
  let expression := match r.expression with
    | .text s => s.toList
    | .other _ => []
  [expression, ((r.result?.map Layout.record.write).getD "").toList, (r.error?.getD "").toList]

def toCsv (rows : List (Row β α)) : String :=
  let header := [labels.expressionColumn, labels.resultColumn, labels.errorColumn].map String.toList
  String.ofList (Csv.write (header :: rows.map record))

def written (output : String) (rows : List (Row β α)) : List (String × String) :=
  if output.isEmpty then [] else [(output, toCsv rows)]

def log (e : Evaluator) (path : String) (column : Option String) (output : String)
    (content : Option String) : List Log.Record :=
  info ("Loading expressions from " ++ path) ++
    Log.after (expressions path column content) fun xs =>
      e.manyLog xs ++ Log.after (e.many xs).1 fun rows =>
        info ("Batch finished: " ++ toString rows.length ++ " expressions, " ++
          toString (failures rows) ++ " failed") ++
        if output.isEmpty then [] else info ("Saving results to " ++ output)
where
  info (message : String) : List Log.Record := [⟨.info, .program, message⟩]

end Reckon.Batch
