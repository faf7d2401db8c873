import Reckon.Settings
import Reckon.Text.Digit
import Reckon.Text.Quoted

/-!
The options of the command line. Options may be shortened while they stay unambiguous, a value
follows its option or an equals sign, and `--` ends them. Behind an equals sign `--` is no value, so
that the option is given without one. The first words in a row are the expressions; later words are
refused.
-/

namespace Reckon.CommandLine

inductive Opt
  | help
  | dataPath
  | expressionColumn
  | outputPath
  | interactive
  | logLevel
  deriving DecidableEq, Repr

namespace Opt

def table : List (String × Opt) := [
  ("-h", .help), ("--help", .help), ("--data_path", .dataPath),
  ("--expression_column", .expressionColumn), ("--output_path", .outputPath),
  ("--interactive", .interactive), ("--log_level", .logLevel)]

def takesValue : Opt → Bool
  | .help | .interactive => false
  | _ => true

def title (o : Opt) : String :=
  "/".intercalate ((table.filter (·.2 = o)).map (·.1))

end Opt

structure Options where
  expressions : List String := []
  dataPath : String := ""
  expressionColumn : Option String := some labels.expressionColumn
  outputPath : String := ""
  interactive : Bool := false
  logLevel : String := labels.logLevel
  deriving DecidableEq, Repr

inductive UsageError
  | unrecognized : List String → UsageError
  | ambiguous (written : String) (matching : List String) : UsageError
  | missingValue : Opt → UsageError
  | unwantedValue (option : Opt) (value : String) : UsageError
  deriving DecidableEq, Repr

def UsageError.message : UsageError → String
  | .unrecognized words => "unrecognized arguments: " ++ " ".intercalate words
  | .ambiguous written matching =>
    "ambiguous option: " ++ written ++ " could match " ++ ", ".intercalate matching
  | .missingValue o => "argument " ++ o.title ++ ": expected one argument"
  | .unwantedValue o value =>
    "argument " ++ o.title ++ ": ignored explicit argument " ++ Text.quote value

inductive Item
  | word : String → Item
  | mark : Item
  | option : Opt → Option String → Item
  | unknown : String → Item
  deriving DecidableEq, Repr

namespace Item

def splitValue (s : List Char) : String × Option String :=
  match s.dropWhile (· ≠ '=') with
  | [] => (String.ofList s, none)
  | _ :: value => (String.ofList (s.takeWhile (· ≠ '=')), some (String.ofList value))

/-- A minus sign and a decimal number without exponent; one line feed may follow. -/
def isNegativeNumber (s : List Char) : Bool :=
  match s with
  | '-' :: digits =>
    let body := if digits.getLast? = some '\n' then digits.dropLast else digits
    let whole := body.takeWhile Text.isDecimalDigit
    match body.dropWhile Text.isDecimalDigit with
    | [] => !whole.isEmpty
    | '.' :: places => !places.isEmpty && places.all Text.isDecimalDigit
    | _ => false
  | _ => false

def valueBehindEquals (value : String) : Option String :=
  if value = "--" then none else some value

def afterFlags (s : List Char) : Option String :=
  match s.dropWhile (· = 'h') with
  | [] => none
  | value => some (String.ofList value)

def flagValue : List Char → Option String
  | ['='] => some ""
  | '=' :: value => afterFlags value
  | value => afterFlags value

def candidates (s : List Char) : List (String × Opt × Option String) :=
  match s with
  | '-' :: '-' :: _ =>
    let (start, value) := splitValue s
    (Opt.table.filter fun entry => entry.1.startsWith start).map fun (name, o) => (name, o, value)
  | _ => []

def ofArgument (arg : String) : Except UsageError Item :=
  match arg.toList with
  | '-' :: 'h' :: value => .ok (.option .help (flagValue value))
  | '-' :: c :: rest =>
    let s := '-' :: c :: rest
    let (name, value) := splitValue s
    match Opt.table.lookup name, candidates s with
    | some o, _ => .ok (.option o value)
    | none, [(_, o, value)] => .ok (.option o value)
    | none, [] => .ok (if isNegativeNumber s || s.contains ' ' then .word arg else .unknown arg)
    | none, several => .error (.ambiguous arg (several.map (·.1)))
  | _ => .ok (.word arg)

def ofArguments : List String → Except UsageError (List Item)
  | [] => .ok []
  | "--" :: rest => .ok (.mark :: rest.map .word)
  | arg :: rest => do return (← ofArgument arg) :: (← ofArguments rest)

def isWord : Item → Bool
  | .word _ | .mark => true
  | _ => false

def text : Item → String
  | .word s => s
  | .unknown s => s
  | .mark | .option _ _ => "--"

end Item

inductive Stop
  | usage : UsageError → Stop
  | help : Stop
  deriving DecidableEq, Repr

def Options.set (o : Options) (value : Option String) : Opt → Options
  | .dataPath => { o with dataPath := value.getD "" }
  | .expressionColumn => { o with expressionColumn := value }
  | .outputPath => { o with outputPath := value.getD "" }
  | .logLevel => { o with logLevel := value.getD "" }
  | .interactive => { o with interactive := true }
  | .help => o

def words (items : List Item) : List String :=
  (items.filter (· ≠ .mark)).map Item.text

/-- Reads the items. `taken` tells that the expressions have been read; then words are left over. -/
def read (o : Options) (taken : Bool) (left : List String) : List Item →
    Except Stop (Options × List String)
  | [] => .ok (o, left)
  | .unknown s :: items => read o taken (left ++ [s]) items
  | .option opt (some value) :: items =>
    if opt.takesValue then read (o.set (Item.valueBehindEquals value) opt) taken left items
    else .error (.usage (.unwantedValue opt value))
  | .option .help none :: _ => .error .help
  | .option .interactive none :: items => read (o.set none .interactive) taken left items
  | .option opt none :: .word value :: items => read (o.set (some value) opt) taken left items
  | .option opt none :: _ => .error (.usage (.missingValue opt))
  | item :: items =>
    let run := item :: items.takeWhile Item.isWord
    if taken then read o taken (left ++ run.map Item.text) (items.dropWhile Item.isWord)
    else read { o with expressions := words run } true left (items.dropWhile Item.isWord)
termination_by items => items.length
decreasing_by
  all_goals simp
  all_goals have := (List.dropWhile_sublist Item.isWord (l := items)).length_le
  all_goals omega

def Options.ofArguments (args : List String) : Except Stop Options := do
  let items ← (Item.ofArguments args).mapError .usage
  match ← read {} false [] items with
  | (o, []) => return o
  | (_, left) => throw (.usage (.unrecognized left))

end Reckon.CommandLine
