import DaemonBridge.Command.Error
import DaemonBridge.ServiceMode

/-!
# Mode errors

Why a mode switch or a status request failed.
-/

namespace DaemonBridge

/-- Why a mode switch or a status request failed. -/
inductive ModeError where
  /-- The switch command failed. -/
  | switch (target : ServiceMode) (cause : CommandError)
  /-- A newer request replaced this one. -/
  | superseded (target : ServiceMode)
  | timeout (target : ServiceMode) (limit : Duration)
  /-- The status could not be had or read. -/
  | status (message : String)
  deriving DecidableEq, Repr

namespace ModeError

/-- The wording of a mode error. -/
def message : ModeError → String
  | .switch t cause => "Mode Switch Error: switch to " ++ t.name ++ " failed: " ++ cause.message
  | .superseded t => "Superseded Error: switch to " ++ t.name ++ " was replaced by a newer request"
  | .timeout t limit => "Timeout Error: switch to " ++ t.name ++ " not confirmed within " ++ limit.render
  | .status m => "Status Error: " ++ m

/-- The name of the error's kind. -/
def kindName : ModeError → String
  | .switch _ _ => "Switch"
  | .superseded _ => "Superseded"
  | .timeout _ _ => "Timeout"
  | .status _ => "Status"

/-- Whether the switch never reached the service. -/
def isDispatchFailure : ModeError → Bool
  | .switch _ cause => cause.isDispatch
  | _ => false

/-- A mode error as a JSON object. -/
def toValue (e : ModeError) : Json.Value :=
  .object [("error", .string e.kindName), ("message", .string e.message),
    ("is_dispatch_failure", .bool e.isDispatchFailure)]

end ModeError

end DaemonBridge
