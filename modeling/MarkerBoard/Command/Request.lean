import MarkerBoard.Command.Arguments

/-!
# Requests

What a command line asks for. A command line that asks for nothing is a fault of usage. It is
read in two steps, because the variables of the chosen project are loaded as soon as the command
is known.
-/
namespace MarkerBoard.Command

/-- What to list. -/
structure ScanRequest where
  /-- The result is recorded. -/
  save : Bool
  status : Option Text
  keyword : Option Text
  /-- The result is shown as JSON. -/
  json : Bool

/-- A question to the history. -/
inductive HistoryRequest
  | changes
  | trends
  | compare
  | cleanup (days : Int)
  | stats
  | files

/-- What a command line asks for. -/
inductive Request
  | help
  | version
  | scan (r : ScanRequest)
  | move (id : Int) (column : Text) (save : Bool)
  | history (r : HistoryRequest)

/-- The options before a command. -/
structure Globals where
  project : Option Text
  config : Option Text

/-- The option that asks for help. -/
def helpRule : OptionRule := ⟨"help", some 'h', false⟩

/-- The options before a command. -/
def globalRules : List OptionRule :=
  [⟨"debug", none, false⟩, ⟨"project", some 'p', true⟩, ⟨"config", some 'c', true⟩, helpRule]

/-- The options of a scan. -/
def scanRules : List OptionRule :=
  [⟨"save", some 's', false⟩, ⟨"status", none, true⟩, ⟨"type", some 't', true⟩,
    ⟨"json", none, false⟩, helpRule]

/-- The options of a move. -/
def moveRules : List OptionRule := [⟨"save", none, false⟩, ⟨"no-save", none, false⟩, helpRule]

/-- The options of a cleanup. -/
def cleanupRules : List OptionRule := [⟨"max-age-days", none, true⟩, helpRule]

/-- The names of all commands. -/
def names : List String := ["scan", "move", "history", "version"]

/-- The age from which on a cleanup drops snapshots, unless another one is asked for. -/
def defaultDays : Int := 30

/-- The request of arguments without words, unless they ask for help. -/
def wordless (a : Arguments) (r : Request) : Option Request :=
  if a.has "help" then some .help else if a.words = [] then some r else none

/-- The request of a scan. -/
def readScan (a : Arguments) : Option Request :=
  wordless a (.scan ⟨a.has "save", a.value? "status", a.value? "type", a.has "json"⟩)

/-- The request of a move. -/
def readMove (a : Arguments) : Option Request :=
  if a.has "help" then some .help
  else match a.words with
    | [id, column] =>
      (integer? id).map fun id => .move id column (a.last? "save" "no-save" != some "no-save")
    | _ => none

/-- The request of a cleanup. -/
def readCleanup (a : Arguments) : Option Request :=
  if a.has "help" then some .help
  else match a.value? "max-age-days" with
    | none => wordless a (.history (.cleanup defaultDays))
    | some days => match integer? days with
      | some days => if 0 ≤ days then wordless a (.history (.cleanup days)) else none
      | none => none

/-- The request of a command of the history. -/
def readHistoryCommand (name : Text) (args : List Text) : Option Request :=
  let plain (r : HistoryRequest) : Option Request :=
    (readArguments [helpRule] true args).bind fun a => wordless a (.history r)
  match String.ofList name with
  | "changes" => plain .changes
  | "trends" => plain .trends
  | "compare" => plain .compare
  | "cleanup" => (readArguments cleanupRules true args).bind readCleanup
  | "stats" => plain .stats
  | "files" => plain .files
  | _ => none

/-- The request of arguments to the history. -/
def readHistory (a : Arguments) : Option Request :=
  if a.has "help" then some .help
  else match a.words with
    | name :: args => readHistoryCommand name args
    | [] => none

/-- The request of a command. -/
def readRequest (name : Text) (args : List Text) : Option Request :=
  match String.ofList name with
  | "scan" => (readArguments scanRules true args).bind readScan
  | "move" => (readArguments moveRules true args).bind readMove
  | "history" => (readArguments [helpRule] false args).bind readHistory
  | "version" => (readArguments [helpRule] true args).bind fun a => wordless a .version
  | _ => none

end MarkerBoard.Command
