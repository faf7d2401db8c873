import Reckon.Log
import Reckon.Recent
import Reckon.Settings

/-!
An evaluator keeps the results of recent expressions and counts the requests that they answer.
Failures are not kept. A text over the length limit and a value that is no text are refused before
anything is counted.
-/

namespace Reckon

structure Evaluator where
  limits : Limits := {}
  recent : Recent := []
  hits : Nat := 0
  misses : Nat := 0
  deriving DecidableEq

structure Row (β α : Type) where
  label : β
  expression : Input α
  outcome : Except EvaluationError Float

namespace Row

def result? (r : Row β α) : Option Float := r.outcome.toOption

def error? (r : Row β α) : Option String :=
  match r.outcome with
  | .ok _ => none
  | .error e => some e.message

end Row

def failures (rows : List (Row β α)) : Nat := rows.countP (·.error?.isSome)

def outcome : Except Failure Float → Except Failure (Except EvaluationError Float)
  | .ok v => .ok (.ok v)
  | .error (.evaluation e) => .ok (.error e)
  | .error f => .error f

namespace Evaluator

def tooLong (e : Evaluator) (s : String) : Bool := e.limits.maxLength < s.length

/-- Keeps a new result. When even an empty store is too large, everything is dropped in vain. -/
def keep (e : Evaluator) (s : String) (v : Float) : Except Failure Float × Evaluator :=
  match (e.recent.push s v).trim e.limits.cacheSize with
  | some recent => (.ok v, { e with recent })
  | none => (.error .nothingToDrop, { e with recent := [] })

def request (e : Evaluator) : Input α → Except Failure Float × Evaluator
  | .other _ => (lexed (.error .notText), e)
  | .text s =>
    if e.tooLong s then (lexed (.error .tooLong), e)
    else match e.recent.get? s with
      | some v => (.ok v, { e with recent := e.recent.touch s, hits := e.hits + 1 })
      | none =>
        let missed := { e with misses := e.misses + 1 }
        match evaluate s with
        | .ok v => missed.keep s v
        | .error f => (.error f, missed)

def attempt (e : Evaluator) (x : Input α) :
    Except Failure (Except EvaluationError Float) × Evaluator :=
  (outcome (e.request x).1, (e.request x).2)

def many (e : Evaluator) : List (β × Input α) → Except Failure (List (Row β α)) × Evaluator
  | [] => (.ok [], e)
  | (label, x) :: rest =>
    match e.attempt x with
    | (.error f, e) => (.error f, e)
    | (.ok o, e) =>
      let (rows, e) := e.many rest
      (rows.map (⟨label, x, o⟩ :: ·), e)

def clear (e : Evaluator) : Evaluator := { limits := e.limits }

inductive Command (β α : Type)
  | evaluate : Input α → Command β α
  | attempt : Input α → Command β α
  | many : List (β × Input α) → Command β α
  | clear : Command β α

inductive Answer (β α : Type)
  | value : Float → Answer β α
  | outcome : Except EvaluationError Float → Answer β α
  | rows : List (Row β α) → Answer β α
  | done : Answer β α

def perform (e : Evaluator) : Command β α → Except Failure (Answer β α) × Evaluator
  | .evaluate x => ((e.request x).1.map .value, (e.request x).2)
  | .attempt x => ((e.attempt x).1.map .outcome, (e.attempt x).2)
  | .many xs => ((e.many xs).1.map .rows, (e.many xs).2)
  | .clear => (.ok .done, e.clear)

def run (e : Evaluator) (cs : List (Command β α)) : Evaluator :=
  cs.foldl (fun e c => (e.perform c).2) e

def excerpt (s : String) : String := String.ofList (s.toList.take 50)

def requestLog (e : Evaluator) : Input α → List Log.Record
  | .other _ => []
  | .text s =>
    if e.tooLong s then
      [⟨.warning, .evaluator,
        "Expression too long: " ++ toString s.length ++ " > " ++ toString e.limits.maxLength⟩]
    else match e.recent.get? s with
      | some _ => [⟨.debug, .evaluator, "Cache hit for expression: " ++ excerpt s⟩]
      | none => Log.evaluation s ++
        match evaluate s with
        | .ok _ => []
        | .error f => [⟨.warning, .evaluator,
            "Error evaluating expression '" ++ excerpt s ++ "': " ++ f.message⟩]

def requestsLog (e : Evaluator) : List (β × Input α) → List Log.Record
  | [] => []
  | (_, x) :: rest => e.requestLog x ++
    match e.attempt x with
    | (.error _, _) => []
    | (.ok _, e) => e.requestsLog rest

def manyLog (e : Evaluator) (xs : List (β × Input α)) : List Log.Record :=
  e.requestsLog xs ++ Log.after (e.many xs).1 fun rows =>
    [⟨.info, .evaluator,
      "Evaluated " ++ toString rows.length ++ " expressions, " ++
        toString (failures rows) ++ " failed"⟩]

def log (e : Evaluator) : Command β α → List Log.Record
  | .evaluate x | .attempt x => e.requestLog x
  | .many xs => e.manyLog xs
  | .clear => [⟨.info, .evaluator,
      "Cache cleared. Hits: " ++ toString e.hits ++ ", Misses: " ++ toString e.misses⟩]

def runLog (e : Evaluator) : List (Command β α) → List Log.Record
  | [] => []
  | c :: cs => e.log c ++ (e.perform c).2.runLog cs

end Evaluator

end Reckon
