import Reckon.Batch
import Reckon.CommandLine.Options
import Reckon.Console
import Reckon.Table
import Reckon.Text.Upper

namespace Reckon

def Settings.log (s : Settings) : List Log.Record :=
  Log.after s.check fun _ => [⟨.debug, .settings, "Configuration validated successfully!"⟩]

def Log.Level.ofText? : String → Option Log.Level
  | "NOTSET" | "DEBUG" => some .debug
  | "INFO" => some .info
  | "WARN" | "WARNING" => some .warning
  | "ERROR" => some .error
  | "CRITICAL" | "FATAL" => some .critical
  | _ => none

namespace CommandLine

structure Outcome where
  exit : Nat
  output : String := ""
  written : List (String × String) := []
  log : List Log.Record := []

inductive Fault
  | unknownLevel : String → Fault
  | layoutAsLevel : Fault
  | stylesAsLevel : Fault
  | batch : Batch.Error → Fault
  | failure : Failure → Fault
  deriving DecidableEq

def Fault.message : Fault → String
  | .unknownLevel name => "module 'logging' has no attribute '" ++ name ++ "'"
  | .layoutAsLevel => "Unknown level: '%(levelname)s:%(name)s:%(message)s'"
  | .stylesAsLevel => "Level not an integer or a valid string: " ++
      "\x7b'%': (<class 'logging.PercentStyle'>, '%(levelname)s:%(name)s:%(message)s'), " ++
      "'\x7b': (<class 'logging.StrFormatStyle'>, " ++
      "'\x7blevelname\x7d:\x7bname\x7d:\x7bmessage\x7d'), " ++
      "'$': (<class 'logging.StringTemplateStyle'>, " ++
      "'$\x7blevelname\x7d:$\x7bname\x7d:$\x7bmessage\x7d')\x7d"
  | .batch e => e.message
  | .failure f => f.message

/-- The level of a name in capital letters. Logging has two other names in capital letters, which
stand for no level. -/
def level (name : String) : Except Fault Log.Level :=
  match Log.Level.ofText? name with
  | some level => .ok level
  | none =>
    if name = "BASIC_FORMAT" then .error .layoutAsLevel
    else if name = "_STYLES" then .error .stylesAsLevel
    else .error (.unknownLevel name)

def Options.level (o : Options) : Except Fault Log.Level :=
  CommandLine.level (Text.upper (if o.logLevel.isEmpty then labels.logLevel else o.logLevel))

def exitCode (failed : Nat) : Nat := if 0 < failed then 1 else 0

def runBatch (o : Options) (data : Option String) : Except Fault Outcome := do
  let rows ← (Batch.run {} o.dataPath o.expressionColumn data).1.mapError .batch
  return {
    exit := exitCode (failures rows)
    output := if o.outputPath.isEmpty then Table.render rows ++ "\n" else ""
    written := Batch.written o.outputPath rows
    log := Batch.log {} o.dataPath o.expressionColumn o.outputPath data }

def runLines (input : String) : Except Fault Outcome := do
  let entries := Console.entries input
  let shown ← (Console.interact {} entries).1.mapError .failure
  return { exit := 0, output := Console.unlines shown, log := Console.interactLog {} entries }

def runExpressions (expressions : List String) : Except Fault Outcome := do
  let rows ← (Console.answer {} expressions).1.mapError .failure
  return {
    exit := exitCode (failures rows)
    output := Console.unlines (rows.map Console.line)
    log := Console.answerLog {} expressions }

def nothingToDo : Outcome where
  exit := 2
  log := [⟨.error, .program,
    "No expressions given. Pass expressions, --data_path or --interactive."⟩]

def run (o : Options) (input : String) (data : Option String) : Except Fault Outcome := do
  let level ← o.level
  let outcome ←
    if !o.dataPath.isEmpty then runBatch o data
    else if o.interactive then runLines input
    else if o.expressions.isEmpty then pure nothingToDo
    else runExpressions o.expressions
  return { outcome with log := Log.atLeast level (Settings.log {} ++ outcome.log) }

end CommandLine

end Reckon
