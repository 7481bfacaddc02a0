import DaemonBridge.Session.Mode

/-!
# Delivering notifications

`publish` hands a notification to every handler subscribed to its kind, as they are when it is
published, and answers how many there were. Handlers only change the session: fill a wait's slot
and release its key, log a call, adopt a reported mode, or update the roster.

A wait's slot is filled at most once: the first matching notification wins, and a later one, or
one arriving after the wait was released, finds the slot taken and does nothing.
-/

namespace DaemonBridge

namespace Session

open Json

/-- The mode a `service_choice` success reports: its result, or the result's `service`, when
either is a text, else its message; the name may be in any letter case. -/
def reportedMode (e : Envelope) : Option ServiceMode :=
  let fromResult := e.result?.bind fun r => match r with
    | .string s => some s
    | _ => match r.get? "service" with
      | some (.string s) => some s
      | _ => none
  (fromResult.orElse fun _ => e.message).bind ServiceMode.parse?

/-- Fill a wait's slot, if nothing came yet, and release the wait's key. -/
def deliver (w : Nat) (reply : Reply) : SessionM Unit := do
  match ← wait? w with
  | some x =>
    if x.slot == .empty then do
      setSlot w (.filled reply)
      wake x.owner
      discard (releaseKey x.key)
  | none => pure ()

/-- The text a service failure is reported with when it carries none. -/
def silentFailure : String := "service reported an error without a message"

/-- The session clock in whole seconds: the time a client is seen at. -/
def seenNow (s : Session) : Nat := s.clock / 1000

/-- Take a client notification into the roster, the client seen now. -/
def feedRoster (e : Envelope) (online : Bool) : SessionM Unit := do
  let o := (e.payload.map Observation.ofPayload).getD {}
  let s ← get
  match s.roster.reconcileAt o online s.seenNow with
  | .ok roster => modify fun s => { s with roster }
  | .error .unidentifiable => report .unidentifiableClient
  | .error other => report (.undecodableEvent other.message)

/-- Run one handler on a notification. -/
def handle (e : Envelope) : Handler → SessionM Unit
  | .waitSuccess w command target =>
    if e.command == some command && (target.all fun t => reportedMode e == some t) then
      deliver w (.answer e)
    else pure ()
  | .waitError w command =>
    if e.command == some command then
      deliver w (.failure (.service command (e.errorMessage?.getD silentFailure)))
    else pure ()
  | .errorWatch command label =>
    if e.command == some command then logCall (label ++ ":" ++ e.errorMessage?.getD "")
    else pure ()
  | .listener label => logCall (label ++ ":" ++ e.kind.wireName)
  | .serviceStarted =>
    match (e.payload.bind (·.get? "service_name")) with
    | some (.string name) =>
      match ServiceMode.parse? name with
      | some m => observe m
      | none => pure ()
    | _ => pure ()
  | .rosterFeed online => feedRoster e online

/-- Publish a notification: how many handlers it was handed to. -/
def publish (e : Envelope) : SessionM Nat := do
  let handlers := (← get).bus.handlersOf e.kind.wireName
  handlers.forM fun (_, h) => handle e h
  pure handlers.length

end Session

end DaemonBridge
