import DaemonBridge.Kind
import DaemonBridge.Time.Duration
import DaemonBridge.Json.Value

/-!
# Command errors

Why a command got no result. A command that never reached the service (`dispatch`) is told
apart from one the service received and failed (`service`); a wait can also be released before
a result came (`cancelled`) or run out of time (`timeout`).
-/

namespace DaemonBridge

/-- Why a command got no result. -/
inductive CommandError where
  /-- The transport refused to send the command. -/
  | dispatch (command : CommandKind) (message : String)
  /-- The service answered with an error. -/
  | service (command : CommandKind) (message : String)
  /-- The wait was released before a result came. -/
  | cancelled (command : CommandKind)
  | timeout (command : CommandKind) (limit : Duration)
  deriving DecidableEq, Repr

namespace CommandError

/-- The command that failed. -/
def command : CommandError → CommandKind
  | .dispatch c _ | .service c _ | .cancelled c | .timeout c _ => c

/-- The wording of a command error. -/
def message : CommandError → String
  | .dispatch c m => "Dispatch Error: " ++ c.wireName ++ ": " ++ m
  | .service c m => "Service Error: " ++ c.wireName ++ ": " ++ m
  | .cancelled c => "Cancelled Error: " ++ c.wireName ++ " wait was released before a result arrived"
  | .timeout c limit => "Timeout Error: " ++ c.wireName ++ " got no result within " ++ limit.render

/-- The name of the error's kind. -/
def kindName : CommandError → String
  | .dispatch _ _ => "Dispatch"
  | .service _ _ => "Service"
  | .cancelled _ => "Cancelled"
  | .timeout _ _ => "Timeout"

/-- The error told to a user. -/
def userMessage : CommandError → String
  | .dispatch _ m => "Could not reach the service: " ++ m
  | .service _ m => m
  | .cancelled _ => "Request was cancelled"
  | .timeout _ limit => "The service did not answer within " ++ limit.render

/-- Whether the command never reached the service. -/
def isDispatch : CommandError → Bool
  | .dispatch _ _ => true
  | _ => false

/-- Whether the service received the command and reported a failure. -/
def isServiceReported : CommandError → Bool
  | .service _ _ => true
  | _ => false

/-- A command error as a JSON object, with its user message and how it came about. -/
def toValue (e : CommandError) : Json.Value :=
  .object [("error", .string e.kindName), ("message", .string e.message),
    ("command", .string e.command.wireName), ("user_message", .string e.userMessage),
    ("is_dispatch", .bool e.isDispatch), ("is_service_reported", .bool e.isServiceReported)]

end CommandError

end DaemonBridge
