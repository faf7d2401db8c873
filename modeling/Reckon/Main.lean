import Reckon.CommandLine.Run

namespace Reckon.Program

def usage : String :=
  "usage: safe-calc [-h] [--data_path DATA_PATH] [--expression_column EXPRESSION_COLUMN] " ++
    "[--output_path OUTPUT_PATH] [--interactive] [--log_level LOG_LEVEL] [expressions ...]"

def readText (path : String) : IO (Option String) := do
  try return some (← IO.FS.readFile path) catch _ => return none

def readInput (o : CommandLine.Options) : IO String := do
  if o.interactive && o.dataPath.isEmpty then (← IO.getStdin).readToEnd else return ""

def leave (outcome : CommandLine.Outcome) : IO UInt32 := do
  for r in outcome.log do IO.eprintln r.line
  for (path, text) in outcome.written do IO.FS.writeFile path text
  IO.print outcome.output
  return outcome.exit.toUInt32

end Reckon.Program

open Reckon Program

def main (args : List String) : IO UInt32 := do
  match CommandLine.Options.ofArguments args with
  | .error .help => IO.println usage; return 0
  | .error (.usage e) =>
    IO.eprintln usage
    IO.eprintln ("safe-calc: error: " ++ e.message)
    return 2
  | .ok o =>
    let data ← if o.dataPath.isEmpty then pure none else readText o.dataPath
    match CommandLine.run o (← readInput o) data with
    | .error fault => IO.eprintln fault.message; return 1
    | .ok outcome => leave outcome
