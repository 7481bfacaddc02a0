import DaemonBridge.Args.Parse
import DaemonBridge.ServiceMode

/-!
# The console's command line

`bridge [OPTIONS] <COMMAND>` talks to the daemon. Its commands are `status`, `mode <TARGET>` and
`watch`; its options may be given before or after the command:

* `--config-dir <CONFIG_DIR>` and `--log-dir <LOG_DIR>` choose directories;
* `--json` prints results and errors as JSON;
* `-v`, `--verbose`, given more times for more log output.

An option given after the command overrides the same option given before it.
-/

namespace DaemonBridge

namespace Console

open Args

/-- The options every command of the console accepts. -/
def sharedOptions : List Arg :=
  [ { id := "config_dir", long := some "config-dir", action := .value, valueName := "CONFIG_DIR",
      help := "Directory holding bridge.json (defaults to the platform config dir)",
      nonEmpty := true, global := true },
    { id := "log_dir", long := some "log-dir", action := .value, valueName := "LOG_DIR",
      help := "Directory for bridge.log (defaults to the config dir)", nonEmpty := true,
      global := true },
    { id := "json", long := some "json", action := .flag,
      help := "Print results and errors as JSON", global := true },
    { id := "verbose", long := some "verbose", short := some 'v', action := .count,
      help := "More log output (-v debug, -vv trace)", global := true } ]

/-- The option showing a command's help. -/
def helpOption : Arg :=
  { id := "help", long := some "help", short := some 'h', action := .help, help := "Print help" }

/-- The console's commands, with what each does. -/
def commandList : List (String × String) :=
  [ ("status", "Ask the daemon for its status and show the active mode"),
    ("mode", "Switch the daemon between client and server"),
    ("watch", "Follow mode changes, client connections and diagnostics until Ctrl-C"),
    ("help", "Print this message or the help of the given subcommand(s)") ]

/-- The about line of a command. -/
def aboutOf (name : String) : String := ((commandList.lookup name).getD "")

/-- The top command. -/
def topCommand : Command :=
  { path := "bridge", about := "Talk to the Perpetua daemon",
    args := sharedOptions ++ [helpOption,
      { id := "version", long := some "version", short := some 'V', action := .version,
        help := "Print version" }],
    subcommands := commandList, subcommandRequired := true, helpWhenEmpty := true }

/-- The mode a `mode` command switches to. -/
def targetArg : Arg :=
  { id := "target", action := .value, valueName := "TARGET", positional := true, required := true,
    choices := ServiceMode.all.map ServiceMode.name }

/-- A command of the console with its positional arguments. -/
def leafCommand (name : String) (positionals : List Arg) : Command :=
  { path := "bridge " ++ name, about := aboutOf name,
    args := positionals ++ sharedOptions ++ [helpOption] }

/-- The names of commands whose help is asked for. -/
def commandNames : Arg :=
  { id := "subcommand", action := .value, valueName := "COMMAND", positional := true,
    many := true, help := "Print help for the subcommand(s)" }

/-- The `help` command, which takes the names of commands. -/
def helpCommand : Command :=
  { path := "bridge help", about := aboutOf "help",
    args := [commandNames] }

/-- The console's command line. -/
def program : Program :=
  { top := topCommand, version := "0.1.0",
    commands := [("status", leafCommand "status" []), ("mode", leafCommand "mode" [targetArg]),
      ("watch", leafCommand "watch" []), ("help", helpCommand)] }

/-- What the console is asked to do. -/
inductive Request where
  | status
  | mode (target : ServiceMode)
  | watch
  deriving DecidableEq, Repr

/-- The name of a request's command. -/
def Request.name : Request → String
  | .status => "status"
  | .mode _ => "mode"
  | .watch => "watch"

/-- How much the console logs. -/
inductive LogLevel where
  | error
  | warn
  | info
  | debug
  | trace
  deriving DecidableEq, Repr

/-- The level's name. -/
def LogLevel.name : LogLevel → String
  | .error => "ERROR"
  | .warn => "WARN"
  | .info => "INFO"
  | .debug => "DEBUG"
  | .trace => "TRACE"

/-- The level logged when `-v` is not given. -/
def defaultLogLevel : LogLevel := .debug

/-- The level for a number of `-v`: one is debug, two or more trace. -/
def levelForVerbosity : Nat → LogLevel
  | 0 => defaultLogLevel
  | 1 => .debug
  | _ => .trace

/-- A command line the console accepted. -/
structure Invocation where
  request : Request
  configDir : Option String := none
  logDir : Option String := none
  json : Bool := false
  verbose : Nat := 0
  deriving DecidableEq, Repr

/-- The text given to an option, if it was given. -/
def textOf : Option Given → Option String
  | some (.text s) => some s
  | _ => none

/-- The invocation a parsed command line describes. -/
def Invocation.ofParsed (r : Parsed) : Option Invocation := do
  let (cmd, given) ← r.subcommand
  let request ← match cmd.path with
    | "bridge status" => some Request.status
    | "bridge watch" => some Request.watch
    | "bridge mode" => (textOf (given.lookup "target") >>= ServiceMode.ofName?).map Request.mode
    | _ => none
  let verbose := match r.lookup "verbose" with
    | some (.count n) => n
    | _ => 0
  pure
    { request, configDir := textOf (r.lookup "config_dir"), logDir := textOf (r.lookup "log_dir"),
      json := r.lookup "json" == some .flag, verbose }

/-- Read the words after the program's name. -/
def parseArgs (words : List String) : Except ArgError Invocation :=
  match program.parse words with
  | .error e => .error e
  | .ok r =>
    match Invocation.ofParsed r with
    | some inv => .ok inv
    | none => .error (.missingSubcommand topCommand.path topCommand.subcommandNames
        (usageLine topCommand []))

end Console

end DaemonBridge
