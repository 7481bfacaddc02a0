import DaemonBridge.Args.Spec

/-!
# Usage lines and help

A usage line names the command, then `[OPTIONS]` when it has options and none is named, then the
arguments that must be given (with those already used), options before positional arguments,
then the subcommand placeholder.

A help text is the command's description, its usage line, and sections listing its subcommands,
positional arguments and options. Entries are aligned two columns past the longest; an option's
column counts four characters for the short form (`-v, `), whether it has one or not.
-/

namespace DaemonBridge

namespace Args

/-- The text with spaces added up to `width` characters. -/
def padTo (width : Nat) (s : String) : String :=
  s ++ String.ofList (List.replicate (width - s.length) ' ')

/-- The usage line of a command, without its heading; `used` names the arguments given so far,
which are shown as if they were required. -/
def usageBody (c : Command) (used : List String) : String :=
  let wanted := (c.args.filter (·.required)).map (·.id) ++ used
  let opts := ((wanted.filterMap c.find?).filter (!·.positional) |>.map (·.styled true)).eraseDups
  let positionals := c.positionals.map fun a => a.styled (wanted.contains a.id)
  let options := if used.isEmpty && c.hasOptions then ["[OPTIONS]"] else []
  let sub := if c.subcommandRequired then ["<COMMAND>"]
    else if used.isEmpty && !c.subcommands.isEmpty then ["[COMMAND]"] else []
  " ".intercalate ([c.path] ++ options ++ opts ++ positionals ++ sub)

/-- The usage line of a command, with its heading. -/
def usageLine (c : Command) (used : List String) : String := "Usage: " ++ usageBody c used

/-- The width an entry's name takes in its column. -/
def entryWidth (a : Arg) : Nat :=
  if a.positional then a.display.length else a.display.length + 4

/-- An argument's help, with the values it accepts. -/
def entryHelp (a : Arg) : String :=
  let choices := if a.choices.isEmpty then ""
    else "[possible values: " ++ ", ".intercalate a.choices ++ "]"
  if choices.isEmpty then a.help
  else if a.help.isEmpty then choices
  else a.help ++ " " ++ choices

/-- An argument's line in a section whose names are at most `longest` wide. -/
def entryLine (longest : Nat) (a : Arg) : String :=
  let name := if a.positional then a.display
    else
      let short := match a.short with
        | some s => "-" ++ s.toString ++ (if a.long.isSome then ", " else "")
        | none => if a.long.isSome then "    " else ""
      let long := match a.long with
        | some l => "--" ++ l
        | none => ""
      short ++ long ++ a.suffix a.required
  let gap := longest + 2 - entryWidth a
  "  " ++ name ++ String.ofList (List.replicate gap ' ') ++ entryHelp a

/-- A section of argument lines, aligned together. -/
def argSection (title : String) (args : List Arg) : List String :=
  if args.isEmpty then []
  else
    let longest := args.foldl (fun m a => max m (entryWidth a)) 2
    [title ++ ":\n" ++ "\n".intercalate (args.map (entryLine longest))]

/-- The section listing subcommands. -/
def commandSection (c : Command) : List String :=
  if c.subcommands.isEmpty then []
  else
    let longest := c.subcommands.foldl (fun m (n, _) => max m n.length) 0
    ["Commands:\n" ++ "\n".intercalate (c.subcommands.map fun (n, about) =>
      "  " ++ padTo (longest + 2) n ++ about)]

/-- The text with spaces and newlines at its end removed. -/
def trimEnd (s : String) : String :=
  String.ofList (s.toList.reverse.dropWhile (fun ch => ch == ' ' || ch == '\n')).reverse

/-- The help text of a command, ending with a newline. -/
def helpText (c : Command) : String :=
  let sections := commandSection c ++ argSection "Arguments" c.positionals ++
    argSection "Options" c.options
  let head := (if c.about.isEmpty then "" else c.about ++ "\n\n") ++ usageLine c []
  trimEnd (head ++ "\n\n" ++ "\n\n".intercalate sections) ++ "\n"

end Args

end DaemonBridge
