import DaemonBridge.ServiceMode

/-!
# Mode state

Which service the bridge shows as running: a stable mode, or pending, possibly on the way to a
target mode. The state also keeps the last stable mode before a switch began, to fall back to
if the switch fails.
-/

namespace DaemonBridge

open Json

/-- The service shown as running. -/
inductive ActiveService where
  | client
  | server
  /-- Not known yet, or switching to `target`. -/
  | pending (target : Option ServiceMode)
  deriving DecidableEq, Repr

namespace ActiveService

/-- The shown service of a stable mode. -/
def ofMode : ServiceMode → ActiveService
  | .client => .client
  | .server => .server

/-- The mode, if it is stable. -/
def stable : ActiveService → Option ServiceMode
  | .client => some .client
  | .server => some .server
  | .pending _ => none

/-- Whether the mode is pending. -/
def isPending : ActiveService → Bool
  | .pending _ => true
  | _ => false

end ActiveService

/-- The shown service and the last stable mode before a switch. -/
structure ModeState where
  active : ActiveService := .pending none
  previous : Option ServiceMode := none
  deriving DecidableEq, Repr

namespace ModeState

/-- The mode, if it is stable. -/
def stable (s : ModeState) : Option ServiceMode := s.active.stable

/-- The state in words: the mode, `switching to` a target, or `unknown`. -/
def describe (s : ModeState) : String :=
  match s.active with
  | .client => "client"
  | .server => "server"
  | .pending (some target) => "switching to " ++ target.name
  | .pending none => "unknown"

/-- An optional mode as JSON. -/
def modeValue : Option ServiceMode → Value
  | some m => .string m.name
  | none => .null

/-- The state as a JSON object: the shown service, the target, the previous mode and the
state in words. -/
def toValue (s : ModeState) : Value :=
  let (active, target) := match s.active with
    | .client => ("client", none)
    | .server => ("server", none)
    | .pending t => ("pending", t)
  .object [("active", .string active), ("target", modeValue target),
    ("previous", modeValue s.previous), ("describe", .string s.describe)]

/-- A state written as a JSON object: `active` is `client`, `server` or `pending`, with an
optional `target` when pending and an optional `previous`. -/
def ofValue (v : Value) : Except String ModeState := do
  let mode := fun (k : String) => match v.get? k with
    | none | some .null => Except.ok none
    | some (.string s) => match ServiceMode.ofName? s with
      | some m => .ok (some m)
      | none => .error ("unknown mode '" ++ s ++ "'")
    | some _ => .error ("field '" ++ k ++ "' must be a mode")
  let previous ← mode "previous"
  let target ← mode "target"
  match v.get? "active" with
  | none | some .null | some (.string "pending") => pure ⟨.pending target, previous⟩
  | some (.string "client") => pure ⟨.client, previous⟩
  | some (.string "server") => pure ⟨.server, previous⟩
  | some (.string s) => .error ("unknown active service '" ++ s ++ "'")
  | some _ => .error "field 'active' must be a string"

end ModeState

end DaemonBridge
