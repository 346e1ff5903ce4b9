import Scad.Server
import Scad.Text.Similarity
import Scad.Text.Terminal

/-!
# Scad.CommandLine

The arguments of the program. They are read from left to right, and the first one that asks for help
or the version, or that cannot be accepted, decides.

* `CommandLine.parse`: what the arguments ask for.
* `CommandLine.UsageError.message`: the text shown for arguments that cannot be accepted.
-/

namespace Scad
namespace CommandLine

open Text

/-- The options, all of them long. -/
inductive Flag where
  | logLevel
  | noColor
  | noFileLogging
  | stdio
  | help
  | version
  deriving DecidableEq, Repr

namespace Flag

/-- All options. -/
def all : List Flag := [.logLevel, .noColor, .noFileLogging, .stdio, .help, .version]

/-- The name of an option. -/
def name : Flag → String
  | .logLevel => "log-level"
  | .noColor => "no-color"
  | .noFileLogging => "no-file-logging"
  | .stdio => "stdio"
  | .help => "help"
  | .version => "version"

/-- The options that say how the server runs. -/
def running : List Flag := [.logLevel, .noColor, .noFileLogging, .stdio]

/-- An option as a usage line shows it. -/
def usage : Flag → String
  | .logLevel => "--log-level <FILTER>"
  | f => "--" ++ f.name

/-- The option with a name. -/
def ofName? (s : String) : Option Flag := all.find? fun f => f.name == s

/-- Words less similar than this are not alike. -/
def leastLikeness : Double := .ofNat 7 / .ofNat 10

/-- Whether a word is so like the name of an option that the option may be meant. -/
def isLike (word : List Char) (f : Flag) : Bool :=
  leastLikeness.lt (similarity word f.name.toList)

/-- The option whose name is most like a word, of equals the last, if one is like it at all. -/
def similar? (word : String) : Option Flag :=
  let w := word.toList
  (all.filter (isLike w)).foldl (fun best f =>
    match best with
    | some g =>
      if (similarity w f.name.toList).lt (similarity w g.name.toList) then some g else some f
    | none => some f) none

end Flag

/-- Arguments that cannot be accepted. `used` are the options accepted before. -/
inductive UsageError where
  | unexpected (argument : String) (meant : Option Flag) (used : List Flag)
  | missingValue (flag : Flag)
  | repeated (flag : Flag)
  | unwantedValue (value : String) (flag : Flag) (used : List Flag)
  deriving DecidableEq, Repr

/-- The line that shows how to call the program, with the given arguments. -/
def usageWith (arguments : List String) : String :=
  "Usage: " ++ Server.name ++ String.join (arguments.map fun a => " " ++ a)

/-- The line that shows how to call the program, with the options that were used. -/
def usageLine (used : List Flag) : String :=
  usageWith (if used.isEmpty then ["[OPTIONS]"] else used.map Flag.usage)

/-- The choice between the options that say how the server runs. -/
def runningChoice : String :=
  "<" ++ String.intercalate "|" (Flag.running.map Flag.usage) ++ ">"

/-- The line that shows how to call the program with an option. Where others were used before, the
choice between all that belong with them stands for them. -/
def usageBeside (used : List Flag) (f : Flag) : String :=
  if used.isEmpty then usageLine [f]
  else usageWith (([f].filter fun f => !Flag.running.contains f).map Flag.usage ++ [runningChoice])

/-- The list with an element at its end, unless it is there already. -/
def addFlag (used : List Flag) (f : Flag) : List Flag :=
  if used.contains f then used else used ++ [f]

namespace UsageError

/-- What is wrong, in one line. What the user wrote is shown as a terminal would show it. -/
def reason : UsageError → String
  | .unexpected argument _ _ => "unexpected argument '" ++ Terminal.strip argument ++ "' found"
  | .missingValue flag => "a value is required for '" ++ flag.usage ++ "' but none was supplied"
  | .repeated flag => "the argument '" ++ flag.usage ++ "' cannot be used multiple times"
  | .unwantedValue value flag _ =>
    "unexpected value '" ++ Terminal.strip value ++ "' for '" ++ flag.usage ++
      "' found; no more were expected"

/-- Advice and usage, each in a paragraph of its own. -/
def advice : UsageError → List String
  | .unexpected _ (some flag) used =>
    ["  tip: a similar argument exists: '--" ++ flag.name ++ "'", usageLine (addFlag used flag)]
  | .unexpected _ none used => [usageLine used]
  | .missingValue _ => []
  | .repeated _ => [usageLine []]
  | .unwantedValue _ flag used => [usageBeside used flag]

/-- The text shown for arguments that cannot be accepted. -/
def message (e : UsageError) : String :=
  let paragraphs := ("error: " ++ e.reason) :: e.advice ++ ["For more information, try '--help'."]
  String.intercalate "\n\n" paragraphs ++ "\n"

end UsageError

/-- How the server is to run. -/
structure Options where
  logLevel : Option String
  noColor : Bool
  noFileLogging : Bool
  stdio : Bool
  deriving DecidableEq, Repr

/-- What the arguments ask for. -/
inductive Request where
  | run (options : Options)
  | help
  | version
  deriving DecidableEq, Repr

/-- An option that takes a value and was named last: still without its value, or with it. -/
inductive Pending where
  | nothing
  | awaited
  | value (text : String)
  deriving DecidableEq, Repr

/-- What is known between two arguments. -/
structure State where
  used : List Flag
  logLevel : Option String
  pending : Pending
  deriving DecidableEq, Repr

/-- The state after the option named last has been accepted. -/
def State.settle (s : State) : Except UsageError State :=
  match s.pending with
  | .nothing => .ok s
  | .awaited => .error (.missingValue .logLevel)
  | .value text =>
    if s.used.contains .logLevel then .error (.repeated .logLevel)
    else .ok ⟨s.used ++ [.logLevel], some text, .nothing⟩

/-- The options accepted when an argument turns out to be no option. -/
def State.accepted (s : State) : List Flag :=
  match s.settle with
  | .ok t => t.used
  | .error (.repeated f) => s.used.filter (· != f)
  | .error _ => s.used

/-- An option without a value. -/
def State.flag (s : State) (f : Flag) : Except UsageError State := do
  let s ← s.settle
  if s.used.contains f then .error (.repeated f) else .ok { s with used := s.used ++ [f] }

/-- The name of a long option and the value attached to it. -/
def splitLong (s : List Char) : String × Option String :=
  let name := s.takeWhile (· != '=')
  match s.dropWhile (· != '=') with
  | _ :: value => (String.ofList name, some (String.ofList value))
  | [] => (String.ofList name, none)

/-- What the arguments ask for when there are no more. -/
def State.finish (s : State) : Except UsageError Request := do
  let s ← s.settle
  return .run ⟨s.logLevel, s.used.contains .noColor, s.used.contains .noFileLogging,
    s.used.contains .stdio⟩

/-- What the arguments from some point on ask for. After `--` there may be none. -/
def parseFrom (s : State) : List String → Except UsageError Request
  | [] => s.finish
  | argument :: rest =>
    match argument.toList with
    | ['-', '-'] =>
      match rest with
      | [] => s.finish
      | a :: _ => .error (.unexpected a none [])
    | '-' :: '-' :: long =>
      let (name, value) := splitLong long
      match Flag.ofName? name, value with
      | none, _ => .error (.unexpected ("--" ++ name) (Flag.similar? name) s.accepted)
      | some .logLevel, none => do
        let s ← s.settle
        parseFrom { s with pending := .awaited } rest
      | some .logLevel, some v => do
        let s ← s.settle
        let s ← State.settle { s with pending := .value v }
        parseFrom s rest
      | some f, some v => .error (.unwantedValue v f s.used)
      | some .help, none => do
        let _ ← s.settle
        return .help
      | some .version, none => do
        let _ ← s.settle
        return .version
      | some f, none => do
        let s ← s.flag f
        parseFrom s rest
    | '-' :: c :: _ =>
      if c = 'h' then do
        let _ ← s.settle
        return .help
      else if c = 'V' then do
        let _ ← s.settle
        return .version
      else .error (.unexpected ("-" ++ String.singleton c) none [])
    | _ =>
      match s.pending with
      | .awaited => parseFrom { s with pending := .value argument } rest
      | _ => .error (.unexpected argument none [])

/-- What the arguments ask for. -/
def parse (arguments : List String) : Except UsageError Request :=
  parseFrom ⟨[], none, .nothing⟩ arguments

/-- The text shown for help. -/
def helpText : String :=
  "Language Server Protocol bridge between editors and an OpenSCAD analysis engine\n\n" ++
  usageLine [] ++ "\n\nOptions:\n" ++
  "      --log-level <FILTER>  Log filter for stderr (overrides RUST_LOG), e.g. \"debug\" or " ++
  "\"scad_language_server=trace\"\n" ++
  "      --no-color            Disable ANSI colors in stderr output\n" ++
  "      --no-file-logging     Do not write a session log to the cache directory\n" ++
  "      --stdio               Communicate over stdin/stdout (the only supported transport)\n" ++
  "  -h, --help                Print help\n" ++
  "  -V, --version             Print version\n"

/-- The text shown for the version. -/
def versionText : String := Server.name ++ " " ++ Server.version ++ "\n"

/-- What the program writes and the code it ends with, when it does not run the server. -/
structure Ending where
  code : Nat
  output : String
  errors : String
  deriving DecidableEq, Repr

/-- How the program ends at once, unless the arguments ask it to run the server. -/
def ending? : Except UsageError Request → Option Ending
  | .error e => some ⟨2, "", e.message⟩
  | .ok .help => some ⟨0, helpText, ""⟩
  | .ok .version => some ⟨0, versionText, ""⟩
  | .ok (.run _) => none

end CommandLine
end Scad
