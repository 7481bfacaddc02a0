import DaemonBridge.ServiceMode

/-!
# Diagnostics

Problems that are reported and then passed over: a release of a key the registry does not hold,
traffic that could not be read, a client observation with nothing to identify it by, and a mode
switch that failed and was reverted. Nothing that reports one of these stops because of it.
-/

namespace DaemonBridge

open Json

/-- A problem reported on the side channel. -/
inductive Diagnostic where
  /-- A release of a key the registry does not hold. -/
  | unknownSubscriptionKey (key : String)
  /-- A frame or notification that could not be read, and was skipped. -/
  | undecodableEvent (reason : String)
  /-- A client observation with no uid, address or hostname. -/
  | unidentifiableClient
  /-- A switch to `target` failed and the shown mode was put back. -/
  | modeSwitchFailed (target : ServiceMode) (reason : String)
  deriving DecidableEq, Repr

/-- A diagnostic as a JSON object, named by its kind under `type`. -/
def Diagnostic.toValue : Diagnostic → Value
  | .unknownSubscriptionKey key =>
    .object [("type", .string "UnknownSubscriptionKey"), ("key", .string key)]
  | .undecodableEvent reason =>
    .object [("type", .string "UndecodableEvent"), ("reason", .string reason)]
  | .unidentifiableClient => .object [("type", .string "UnidentifiableClient")]
  | .modeSwitchFailed target reason =>
    .object [("type", .string "ModeSwitchFailed"), ("target", .string target.name),
      ("reason", .string reason)]

end DaemonBridge
