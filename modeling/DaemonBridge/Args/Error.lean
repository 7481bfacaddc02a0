import DaemonBridge.Args.Similar

/-!
# Command-line errors

Why a command line was not accepted, and what is shown instead. Three outcomes are not faults
of the line but requests: the help (asked for, or shown because nothing was given) and the
version. Every other error is shown as

```
error: <what went wrong>[
  [possible values or subcommands]]

  tip: <a suggestion>              (zero or more)

Usage: <usage line>                (when the error has one)

For more information, try '--help'.
```
-/

namespace DaemonBridge

namespace Args

/-- Why a command line was not accepted. -/
inductive ArgError where
  /-- The help was asked for. -/
  | displayHelp (text : String)
  /-- Nothing was given, so the help is shown. -/
  | displayHelpOnMissing (text : String)
  /-- The version was asked for. -/
  | displayVersion (text : String)
  /-- An argument names nothing; `similar` is a known option like it, `asValue` whether to tip
  that it can be passed as a value after `--`. -/
  | unknownArgument (arg : String) (similar : Option String) (asValue : Bool) (usage : String)
  /-- A subcommand was written after `--`. -/
  | doubleDashBefore (subcommand : String) (usage : String)
  /-- A word names no subcommand; `similar` lists those like it. -/
  | unknownSubcommand (word : String) (similar : List String) (usage : String)
  /-- A value is empty where one is needed, or is not among `choices`. -/
  | invalidValue (arg value : String) (choices : List String)
  /-- Arguments that must be given were not. -/
  | missingRequired (args : List String) (usage : String)
  /-- The command needs a subcommand. -/
  | missingSubcommand (command : String) (subcommands : List String) (usage : String)
  /-- An argument was given twice. -/
  | givenTwice (arg : String) (usage : String)
  /-- A value was attached to an argument that takes none. -/
  | unexpectedValue (value arg : String) (usage : String)
  deriving DecidableEq, Repr

namespace ArgError

/-- The name of the error's kind. -/
def kindName : ArgError → String
  | .displayHelp _ => "DisplayHelp"
  | .displayHelpOnMissing _ => "DisplayHelpOnMissingArgumentOrSubcommand"
  | .displayVersion _ => "DisplayVersion"
  | .unknownArgument .. => "UnknownArgument"
  | .doubleDashBefore .. => "UnknownArgument"
  | .unknownSubcommand .. => "InvalidSubcommand"
  | .invalidValue .. => "InvalidValue"
  | .missingRequired .. => "MissingRequiredArgument"
  | .missingSubcommand .. => "MissingSubcommand"
  | .givenTwice .. => "ArgumentConflict"
  | .unexpectedValue .. => "TooManyValues"

/-- A list of names in brackets under an error, as `\n  [title: a, b]`. -/
def listing (title : String) (names : List String) : String :=
  if names.isEmpty then "" else "\n  [" ++ title ++ ": " ++ ", ".intercalate names ++ "]"

/-- The tip offering names like the one given. -/
def similarTip (what : String) (names : List String) : List String :=
  match names with
  | [] => []
  | [n] => ["tip: a similar " ++ what ++ " exists: '" ++ n ++ "'"]
  | ns => ["tip: some similar " ++ what ++ "s exist: " ++
      ", ".intercalate (ns.map fun n => "'" ++ n ++ "'")]

/-- An error shown from its statement, its tips and its usage line. -/
def compose (statement : String) (tips : List String) (usage : Option String) : String :=
  let tipText := if tips.isEmpty then ""
    else "\n" ++ String.join (tips.map fun t => "\n  " ++ t)
  let usageText := (usage.map fun u => "\n\n" ++ u).getD ""
  "error: " ++ statement ++ tipText ++ usageText ++ "\n\nFor more information, try '--help'.\n"

/-- What is shown for the error. -/
def message : ArgError → String
  | .displayHelp text | .displayHelpOnMissing text | .displayVersion text => text
  | .unknownArgument arg similar asValue usage =>
    let tips := similarTip "argument" similar.toList ++
      (if asValue then ["tip: to pass '" ++ arg ++ "' as a value, use '-- " ++ arg ++ "'"] else [])
    compose ("unexpected argument '" ++ arg ++ "' found") tips (some usage)
  | .doubleDashBefore sub usage =>
    compose "unexpected argument '--' found"
      ["tip: subcommand '" ++ sub ++ "' exists; to use it, remove the '--' before it"] (some usage)
  | .unknownSubcommand word similar usage =>
    compose ("unrecognized subcommand '" ++ word ++ "'") (similarTip "subcommand" similar)
      (some usage)
  | .invalidValue arg value choices =>
    let statement := if value.isEmpty
      then "a value is required for '" ++ arg ++ "' but none was supplied"
      else "invalid value '" ++ value ++ "' for '" ++ arg ++ "'"
    compose (statement ++ listing "possible values" choices)
      (similarTip "value" (mostSimilar? value choices).toList) none
  | .missingRequired args usage =>
    compose ("the following required arguments were not provided:" ++
      String.join (args.map ("\n  " ++ ·))) [] (some usage)
  | .missingSubcommand command subs usage =>
    compose ("'" ++ command ++ "' requires a subcommand but one was not provided" ++
      listing "subcommands" subs) [] (some usage)
  | .givenTwice arg usage =>
    compose ("the argument '" ++ arg ++ "' cannot be used multiple times") [] (some usage)
  | .unexpectedValue value arg usage =>
    compose ("unexpected value '" ++ value ++ "' for '" ++ arg ++ "' found; no more were expected")
      [] (some usage)

end ArgError

end Args

end DaemonBridge
