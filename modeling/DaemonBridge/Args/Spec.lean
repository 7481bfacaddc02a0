/-!
# Command-line descriptions

A command line is described as data: each `Arg` says how it is written (`--long`, `-s`, or by
position), what it does when given (`Action`), and which values it accepts; each `Command` lists
its arguments in the order its help shows them, and the subcommands it dispatches to.

The texts every parser of such a description shows are derived here too: an argument's name as
errors quote it (`--config-dir <CONFIG_DIR>`, `--verbose...`, `<TARGET>`), and as it stands in
a usage line.
-/

namespace DaemonBridge

namespace Args

/-- What an argument does when it is given. -/
inductive Action where
  /-- Sets a switch; it may be given once. -/
  | flag
  /-- Counts how often it is given, up to 255. -/
  | count
  /-- Takes one value; it may be given once. -/
  | value
  /-- Shows the command's help. -/
  | help
  /-- Shows the program's version. -/
  | version
  deriving DecidableEq, Repr

/-- One argument of a command. -/
structure Arg where
  /-- The name the parsed values are kept under. -/
  id : String
  long : Option String := none
  short : Option Char := none
  action : Action
  /-- The placeholder of the value, for arguments that take one. -/
  valueName : String := ""
  help : String := ""
  /-- Whether it is given by position rather than by name. -/
  positional : Bool := false
  required : Bool := false
  /-- Whether a positional argument takes every value left. -/
  many : Bool := false
  /-- The values accepted; empty when any is. -/
  choices : List String := []
  /-- Whether the empty text is refused, as for a path. -/
  nonEmpty : Bool := false
  /-- Whether subcommands take it over from their parent. -/
  global : Bool := false
  deriving DecidableEq, Repr

namespace Arg

/-- Whether the argument takes a value. -/
def takesValue (a : Arg) : Bool := a.positional || a.action == .value

/-- The placeholder of a value: `<NAME>` when it must be given, `[NAME]` when it may be left
out, followed by `...` when a positional argument takes many. -/
def placeholder (a : Arg) (required : Bool) : String :=
  let name := if a.positional && (a.many || !required) then "[" ++ a.valueName ++ "]"
    else "<" ++ a.valueName ++ ">"
  if a.positional && a.many then name ++ "..." else name

/-- What follows the argument's name: its value, or `...` for one that counts. -/
def suffix (a : Arg) (required : Bool) : String :=
  if a.positional then a.placeholder required
  else if a.action == .value then " " ++ a.placeholder required
  else if a.action == .count then "..."
  else ""

/-- The argument as it is written in a usage line. -/
def styled (a : Arg) (required : Bool) : String :=
  let name := match a.long, a.short with
    | some l, _ => "--" ++ l
    | none, some s => "-" ++ s.toString
    | none, none => ""
  name ++ a.suffix required

/-- The argument as errors quote it. -/
def display (a : Arg) : String := a.styled a.required

end Arg

/-- A command: its name, what it does, its arguments and its subcommands. -/
structure Command where
  /-- The name as usage lines show it: the program's, then the subcommands' leading to it. -/
  path : String
  about : String
  /-- The arguments, in the order help lists them. -/
  args : List Arg
  /-- The subcommands, each with what it does. -/
  subcommands : List (String × String) := []
  /-- Whether a subcommand must be given. -/
  subcommandRequired : Bool := false
  /-- Whether an empty command line shows the help instead. -/
  helpWhenEmpty : Bool := false
  deriving DecidableEq, Repr

namespace Command

/-- The argument written `--name`. -/
def findLong? (c : Command) (name : String) : Option Arg :=
  c.args.find? (·.long == some name)

/-- The argument written `-c`. -/
def findShort? (c : Command) (ch : Char) : Option Arg :=
  c.args.find? (·.short == some ch)

/-- The argument with an id. -/
def find? (c : Command) (id : String) : Option Arg :=
  c.args.find? (·.id == id)

/-- The positional arguments, in order. -/
def positionals (c : Command) : List Arg := c.args.filter (·.positional)

/-- The arguments written by name. -/
def options (c : Command) : List Arg := c.args.filter (!·.positional)

/-- The names of the subcommands. -/
def subcommandNames (c : Command) : List String := c.subcommands.map (·.1)

/-- Whether some argument, other than help and version, may be given by name; usage lines then
show `[OPTIONS]`. -/
def hasOptions (c : Command) : Bool :=
  c.options.any fun a => a.action != .help && a.action != .version && !a.required

end Command

end Args

end DaemonBridge
