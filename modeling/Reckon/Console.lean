import Reckon.Session

namespace Reckon.Console

def labelled (expressions : List String) : List (String × Input Unit) :=
  expressions.map fun x => (x, .text (GlyphMap.standard.normalize x))

def line (r : Row String α) : String :=
  match r.outcome with
  | .ok v => r.label ++ " = " ++ display v
  | .error e => r.label ++ " = " ++ labels.errorDisplay ++ " (" ++ e.message ++ ")"

def unlines (lines : List String) : String := String.join (lines.map (· ++ "\n"))

def answer (e : Evaluator) (expressions : List String) :
    Except Failure (List (Row String Unit)) × Evaluator :=
  e.many (labelled expressions)

def answerLog (e : Evaluator) (expressions : List String) : List Log.Record :=
  e.requestsLog (labelled expressions)

def splitLines (s : List Char) : List (List Char) :=
  match _h : s.dropWhile (· ≠ '\n') with
  | [] => [s]
  | _ :: rest => s.takeWhile (· ≠ '\n') :: splitLines rest
termination_by s.length
decreasing_by
  have := (List.dropWhile_sublist (· ≠ '\n') (l := s)).length_le
  rw [_h] at this
  simp at this
  omega

/-- The lines to calculate: without blanks at their ends, none empty, up to the line that ends the
work. -/
def entries (text : String) : List String :=
  ((splitLines text.toList).map fun l => String.ofList (Text.strip l))
    |>.takeWhile (fun l => l ≠ "quit" && l ≠ "exit")
    |>.filter (fun l => !l.isEmpty)

def entered (s : Session) (entry : String) : Session := s.clear.setInput entry

def interact (s : Session) : List String → Except Failure (List String) × Session
  | [] => (.ok [], s)
  | entry :: rest =>
    match (entered s entry).calculate with
    | (.error f, s) => (.error f, s)
    | (.ok _, s) =>
      let (shown, last) := interact s rest
      (shown.map (s.display :: ·), last)

def interactLog (s : Session) : List String → List Log.Record
  | [] => []
  | entry :: rest => (entered s entry).calculateLog ++
    match (entered s entry).calculate with
    | (.error _, _) => []
    | (.ok _, s) => interactLog s rest

end Reckon.Console
