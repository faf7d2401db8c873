import Reckon.Evaluator

/-!
A session is the input line of a calculator: keys add to it, and calculating replaces it by its
result or by an error. An operator directly behind another is refused, except a minus sign behind
one of `* / % ^`.
-/

namespace Reckon

structure Session where
  evaluator : Evaluator := {}
  glyphs : GlyphMap := GlyphMap.standard
  input : String := ""
  error : Option EvaluationError := none
  deriving DecidableEq

namespace Session

def display (s : Session) : String :=
  if s.error.isSome && s.input.isEmpty then labels.errorDisplay
  else if s.input.isEmpty then labels.emptyDisplay
  else s.input

def signMayFollow : Operator → Bool
  | .mul | .div | .mod | .pow => true
  | .add | .sub => false

def lastOperator? (s : Session) : Option Operator :=
  s.input.toList.getLast?.bind fun c => s.glyphs.operator? (String.ofList [c])

def accepts (s : Session) (value : String) : Bool :=
  if value.isEmpty then false
  else match s.glyphs.operator? value, s.lastOperator? with
    | some pressed, some last => pressed = .sub && signMayFollow last
    | _, _ => true

def append (s : Session) (value : String) : Session :=
  { s with input := s.input ++ value, error := none }

def press (s : Session) (value : String) : Bool × Session :=
  if s.accepts value then (true, s.append value) else (false, s)

def pressFunction (s : Session) (name : String) : Except UnknownName Unit × Session :=
  match Func.ofText? name with
  | some f => (.ok (), s.append (f.text ++ "("))
  | none => (.error (.function name), s)

def delete (s : Session) : Session :=
  { s with input := String.ofList s.input.toList.dropLast }

def clear (s : Session) : Session :=
  { s with input := "", error := none }

def setInput (s : Session) (input : String) : Session :=
  { s with input }

def expression (s : Session) : String := s.glyphs.normalize s.input

/-- The value of the input, which becomes the input. An error of the expression empties the input; a
failed lookup leaves input and error as they are. -/
def calculate (s : Session) : Except Failure (Option Float) × Session :=
  match s.evaluator.attempt (.text s.expression : Input Unit) with
  | (.error f, evaluator) => (.error f, { s with evaluator })
  | (.ok (.error e), evaluator) => (.ok none, { s with evaluator, input := "", error := some e })
  | (.ok (.ok v), evaluator) =>
    (.ok (some v), { s with evaluator, input := Reckon.display v, error := none })

inductive Stroke
  | calculate
  | delete
  | clear
  | press
  | ignored
  deriving DecidableEq, Repr

def types (s : Session) (key : String) : Bool :=
  match key.toList with
  | [c] => c.isDigit || c = '.' || (s.glyphs.operator? key).isSome
  | _ => false

def stroke (s : Session) (key : String) : Stroke :=
  if key = "Enter" || key = "=" then .calculate
  else if key = "Backspace" then .delete
  else if key = "c" || key = "C" || key = "Escape" then .clear
  else if s.types key then .press
  else .ignored

def key (s : Session) (key : String) : Except Failure Bool × Session :=
  match s.stroke key with
  | .calculate => ((s.calculate).1.map fun _ => true, (s.calculate).2)
  | .delete => (.ok true, s.delete)
  | .clear => (.ok true, s.clear)
  | .press => (.ok true, (s.press key).2)
  | .ignored => (.ok false, s)

inductive Command
  | press : String → Command
  | pressFunction : String → Command
  | delete : Command
  | clear : Command
  | calculate : Command
  | key : String → Command
  | setInput : String → Command
  deriving DecidableEq, Repr

inductive Answer
  | accepted : Bool → Answer
  | value : Option Float → Answer
  | done : Answer
  deriving DecidableEq

inductive Refusal
  | unknown : UnknownName → Refusal
  | failure : Failure → Refusal
  deriving DecidableEq

def perform (s : Session) : Command → Except Refusal Answer × Session
  | .press value => (.ok (.accepted (s.press value).1), (s.press value).2)
  | .pressFunction name =>
    (((s.pressFunction name).1.map fun _ => .done).mapError .unknown, (s.pressFunction name).2)
  | .delete => (.ok .done, s.delete)
  | .clear => (.ok .done, s.clear)
  | .calculate => (((s.calculate).1.map .value).mapError .failure, (s.calculate).2)
  | .key k => (((s.key k).1.map .accepted).mapError .failure, (s.key k).2)
  | .setInput input => (.ok .done, s.setInput input)

def run (s : Session) (cs : List Command) : Session :=
  cs.foldl (fun s c => (s.perform c).2) s

def calculateLog (s : Session) : List Log.Record :=
  let x : Input Unit := .text s.expression
  s.evaluator.requestLog x ++
    match (s.evaluator.attempt x).1 with
    | .ok (.error e) => [⟨.debug, .session,
        "Calculation failed for " ++ Text.quote s.expression ++ ": " ++ e.message⟩]
    | _ => []

def log (s : Session) : Command → List Log.Record
  | .calculate => s.calculateLog
  | .key k => match s.stroke k with
    | .calculate => s.calculateLog
    | _ => []
  | _ => []

def runLog (s : Session) : List Command → List Log.Record
  | [] => []
  | c :: cs => s.log c ++ (s.perform c).2.runLog cs

end Session

end Reckon
