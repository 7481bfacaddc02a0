import DaemonBridge.Json.Value

/-!
# Console errors

What the console reports when it cannot do what it was asked: a fault of its own, a configuration
that could not be loaded, a daemon that could not be reached, or a request the daemon refused or
did not answer. Each wraps the text of the error beneath it.
-/

namespace DaemonBridge

namespace Console

open Json

/-- Why the console failed. -/
inductive ConsoleError where
  | console (message : String)
  | config (message : String)
  | link (message : String)
  | request (message : String)
  deriving DecidableEq, Repr

namespace ConsoleError

/-- The name of the error's kind. -/
def kindName : ConsoleError → String
  | .console _ => "Console"
  | .config _ => "Config"
  | .link _ => "Link"
  | .request _ => "Request"

/-- The text beneath the error. -/
def detail : ConsoleError → String
  | .console m | .config m | .link m | .request m => m

/-- The wording of the error. -/
def message (e : ConsoleError) : String := e.kindName ++ " Error: " ++ e.detail

/-- The error as JSON: its kind under `type`, its text under `data`. -/
def toValue (e : ConsoleError) : Value :=
  .object [("type", .string e.kindName), ("data", .object [("message", .string e.detail)])]

end ConsoleError

end Console

end DaemonBridge
