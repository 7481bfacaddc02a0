import DaemonBridge.Console.Cli
import DaemonBridge.Console.Error
import DaemonBridge.Config
import DaemonBridge.Json.Write

/-!
# The console program

`bridge` reads its command line: help and the version are printed on standard output, a command
line that is not accepted is explained on standard error with exit code 2. An accepted command
needs the daemon, over a socket this library does not provide; the console reports it as
unreachable, as text or, with `--json`, as a JSON object, and exits with code 1.
-/

open DaemonBridge

/-- The failure reported for an accepted command line. -/
def DaemonBridge.Console.daemonUnreachable : Console.ConsoleError :=
  .link ("Daemon at " ++ ({} : LinkConfig).address ++ " unreachable: no socket transport")

/-- Run the console on its command line: the exit code. -/
def main (args : List String) : IO UInt32 := do
  match Console.parseArgs args with
  | .error e =>
    match e with
    | .displayHelp text | .displayVersion text => do
      IO.print text
      pure 0
    | other => do
      IO.eprint other.message
      pure 2
  | .ok inv =>
    if inv.json then IO.println Console.daemonUnreachable.toValue.compact
    else IO.eprintln Console.daemonUnreachable.message
    pure 1
