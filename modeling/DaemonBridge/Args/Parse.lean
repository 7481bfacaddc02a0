import DaemonBridge.Args.Help
import DaemonBridge.Args.Error

/-!
# Parsing a command line

A command line is read word by word, against the program's top command until a word names a
subcommand, then against that subcommand with the words left.

* `--` ends the options: every later word is positional.
* `--name` and `--name=value` give a long option; an option that takes a value and has none
  attached takes the next word, whatever it looks like, unless that word is itself an option.
* `-abc` gives the short options `a`, `b` and `c`; one that takes a value takes the rest of the
  word (after an optional `=`) or, if nothing is left, the next word.
* Any other word names a subcommand, if the command has one by that name and no option is
  waiting for its value; otherwise it is the next positional argument.

A value is checked only when the next argument is met, or at the end: so an option or positional
argument left without its value, or given a value it refuses, is reported then. Giving an option
that shows the help or the version stops the parse at once.

`help` as a subcommand shows the help of the subcommand its further words lead to.
-/

namespace DaemonBridge

namespace Args

/-- What was given for an argument. -/
inductive Given where
  | flag
  | count (n : Nat)
  | text (s : String)
  deriving DecidableEq, Repr

/-- An argument waiting for its value, and the values it has. -/
structure Pending where
  arg : Arg
  values : List String
  deriving DecidableEq, Repr

/-- The state of the parse of one command's words. -/
structure State where
  /-- The arguments given, in the order they were last given. -/
  given : List (String × Given) := []
  pending : Option Pending := none
  /-- Whether the pending argument is an option still waiting for its value. -/
  awaiting : Bool := false
  /-- How many positional arguments were given. -/
  position : Nat := 0
  /-- Whether `--` was met. -/
  afterDashes : Bool := false
  deriving DecidableEq, Repr

namespace State

/-- Whether an argument was given. -/
def has (s : State) (id : String) : Bool := s.given.any (·.1 == id)

/-- The ids of the arguments given. -/
def ids (s : State) : List String := s.given.map (·.1)

/-- The state with an argument given, moved after the others. -/
def give (s : State) (id : String) (g : Given) : State :=
  { s with given := s.given.filter (·.1 != id) ++ [(id, g)] }

/-- How often a counting argument was given. -/
def countOf (s : State) (id : String) : Nat :=
  match s.given.lookup id with
  | some (.count n) => n
  | _ => 0

end State

/-- A program: its top command, its version, and its subcommands by name. -/
structure Program where
  top : Command
  version : String
  commands : List (String × Command)
  deriving Repr

namespace Program

/-- The line showing the version. -/
def versionText (p : Program) : String := p.top.path ++ " " ++ p.version ++ "\n"

/-- The subcommand of `c` named `name`. -/
def subcommand? (p : Program) (c : Command) (name : String) : Option Command :=
  if c.subcommandNames.contains name then p.commands.lookup name else none

/-- What `help` followed by `words` shows: the help of the command they lead to. -/
def helpFor (p : Program) (c : Command) : List String → ArgError
  | [] => .displayHelp (helpText c)
  | w :: rest =>
    match p.subcommand? c w with
    | some sub => p.helpFor sub rest
    | none => .unknownSubcommand w [] (usageLine c [])

end Program

/-- Take a value for an argument: it must be given once, and be one it accepts. -/
def accept (c : Command) (s : State) (a : Arg) (values : List String) : Except ArgError State :=
  match values with
  | [] => .error (.invalidValue a.display "" a.choices)
  | v :: _ =>
    if s.has a.id then .error (.givenTwice a.display (usageLine c []))
    else if a.nonEmpty && v.isEmpty then .error (.invalidValue a.display "" [])
    else if !a.choices.isEmpty && !a.choices.contains v then .error (.invalidValue a.display v a.choices)
    else .ok (s.give a.id (.text v))

/-- Take the pending argument's values, if one is pending. -/
def settle (c : Command) (s : State) : Except ArgError State :=
  match s.pending with
  | none => .ok s
  | some p => accept c { s with pending := none, awaiting := false } p.arg p.values

/-- The state after settling, when a later error is what is reported. -/
def settleQuietly (c : Command) (s : State) : State :=
  match settle c s with
  | .ok s' => s'
  | .error _ => { s with pending := none, awaiting := false }

/-- Give an argument that takes no value. -/
def giveSwitch (p : Program) (c : Command) (s : State) (a : Arg) : Except ArgError State := do
  let s ← settle c s
  match a.action with
  | .help => .error (.displayHelp (helpText c))
  | .version => .error (.displayVersion p.versionText)
  | .count => pure (s.give a.id (.count (min 255 (s.countOf a.id + 1))))
  | _ =>
    if s.has a.id then .error (.givenTwice a.display (usageLine c []))
    else pure (s.give a.id .flag)

/-- Give an option that takes a value, with the value attached or still to come. -/
def giveOption (c : Command) (s : State) (a : Arg) : Option String → Except ArgError State
  | some v => do accept c (← settle c s) a [v]
  | none => do
    let s ← settle c s
    pure { s with pending := some ⟨a, []⟩, awaiting := true }

/-- Read `--name` or `--name=value`. -/
def readLong (p : Program) (c : Command) (s : State) (word : String) : Except ArgError State :=
  let body := word.drop 2 |>.toString
  let (name, attached) := match body.splitOn "=" with
    | [n] => (n, none)
    | n :: rest => (n, some ("=".intercalate rest))
    | [] => (body, none)
  match c.findLong? name with
  | some a =>
    if a.takesValue then giveOption c s a attached
    else match attached with
      | some v =>
        let used := (s.ids.filter fun id => !((c.find? id).map Arg.required).getD false) ++ [a.id]
        .error (.unexpectedValue v a.display (usageLine c used))
      | none => giveSwitch p c s a
  | none =>
    let s := settleQuietly c s
    let longs := c.args.filterMap (·.long)
    let similar := mostSimilar? name longs
    let s := match similar.bind c.findLong? with
      | some a => if s.has a.id then s else { s with given := s.given ++ [(a.id, Given.flag)] }
      | none => s
    let used := s.ids.filter fun id => !((c.find? id).map Arg.required).getD false
    let asValue := similar.isNone && !s.afterDashes && !c.positionals.isEmpty
    .error (.unknownArgument ("--" ++ name) (similar.map ("--" ++ ·)) asValue (usageLine c used))

/-- Read the short options of a word, after its dash. -/
def readShorts (p : Program) (c : Command) : State → List Char → Except ArgError State
  | s, [] => .ok s
  | s, ch :: rest =>
    match c.findShort? ch with
    | some a =>
      if a.takesValue then
        let v := match rest with
          | '=' :: v => String.ofList v
          | v => String.ofList v
        giveOption c s a (if rest.isEmpty then none else some v)
      else do readShorts p c (← giveSwitch p c s a) rest
    | none =>
      .error (.unknownArgument ("-" ++ ch.toString) none
        (!s.afterDashes && !c.positionals.isEmpty) (usageLine c []))

/-- The error for a word that is neither an argument nor a subcommand of `c`. -/
def strayWord (c : Command) (s : State) (word : String) : ArgError :=
  if s.afterDashes && c.subcommandNames.contains word then .doubleDashBefore word (usageLine c [])
  else
    let similar := similarNames word c.subcommandNames
    if !c.subcommands.isEmpty && !similar.isEmpty then .unknownSubcommand word similar (usageLine c [])
    else if !c.subcommands.isEmpty && c.positionals.isEmpty then
      .unknownSubcommand word [] (usageLine c [])
    else
      let flagLike := word.startsWith "-" && 1 < word.length
      .unknownArgument word none (!s.afterDashes && !c.positionals.isEmpty && flagLike)
        (usageLine c [])

/-- Take a positional word. -/
def readPositional (c : Command) (s : State) (word : String) : Except ArgError State :=
  match c.positionals[s.position]? with
  | some a => do
    let s ← settle c s
    pure { s with pending := some ⟨a, [word]⟩, position := s.position + 1 }
  | none => .error (strayWord c s word)

/-- Read the words of one command: the state at the end, or the subcommand met with the words
after it. -/
def scan (p : Program) (c : Command) :
    State → List String → Except ArgError (State × Option (Command × List String))
  | s, [] => .ok (s, none)
  | s, word :: rest =>
    if s.afterDashes then do scan p c (← readPositional c s word) rest
    else if !s.awaiting && c.subcommandNames.contains word then
      if word == "help" then .error (p.helpFor c rest)
      else match p.subcommand? c word with
        | some sub => .ok (s, some (sub, rest))
        | none => .error (strayWord c s word)
    else if word == "--" then scan p c { s with afterDashes := true } rest
    else if word.startsWith "--" then do scan p c (← readLong p c s word) rest
    else if word.startsWith "-" && 1 < word.length then
      do scan p c (← readShorts p c s (word.toList.drop 1)) rest
    else if s.awaiting then
      let s := match s.pending with
        | some q => { s with pending := some { q with values := q.values ++ [word] }, awaiting := false }
        | none => { s with awaiting := false }
      scan p c s rest
    else do scan p c (← readPositional c s word) rest

/-- Finish one command's words: settle what is pending, then check that what must be given
was. -/
def finish (c : Command) (s : State) (hasSubcommand : Bool) : Except ArgError State := do
  let s ← settle c s
  if !hasSubcommand && c.helpWhenEmpty && s.given.isEmpty then
    throw (.displayHelpOnMissing (helpText c))
  if !hasSubcommand && c.subcommandRequired then
    throw (.missingSubcommand c.path c.subcommandNames (usageLine c []))
  let missing := c.args.filter fun a => a.required && !s.has a.id
  if !missing.isEmpty then
    throw (.missingRequired (missing.map (·.styled true)) (usageLine c (s.ids ++ missing.map (·.id))))
  pure s

/-- What a command line gives: the top command's arguments, and the subcommand chosen with its
own. -/
structure Parsed where
  top : List (String × Given)
  subcommand : Option (Command × List (String × Given))
  deriving Repr

/-- Parse the words after the program's name. The top command's pending value is taken before
the subcommand's words are read. -/
def Program.parse (p : Program) (words : List String) : Except ArgError Parsed := do
  let (s, sub) ← scan p p.top {} words
  match sub with
  | none => pure ⟨(← finish p.top s false).given, none⟩
  | some (c, rest) =>
    let s ← settle p.top s
    let (cs, _) ← scan p c {} rest
    let cs ← finish c cs false
    let s ← finish p.top s true
    pure ⟨s.given, some (c, cs.given)⟩

/-- The value of an argument the program's commands share: the subcommand's, if given there,
else the top command's. -/
def Parsed.lookup (r : Parsed) (id : String) : Option Given :=
  match r.subcommand with
  | some (_, given) =>
    match given.lookup id with
    | some g => some g
    | none => r.top.lookup id
  | none => r.top.lookup id

end Args

end DaemonBridge
