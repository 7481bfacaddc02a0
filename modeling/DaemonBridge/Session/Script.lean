import DaemonBridge.Session.Tasks
import DaemonBridge.Envelope.View
import DaemonBridge.Roster.Script
import DaemonBridge.Text.Scrub

/-!
# Session scripts

A script drives one session through a list of steps, each written as a JSON object with its kind
under `do`. After each step the tasks that can run are run, and the step reports its answer
together with the shown mode, whether a switch is being waited for, the commands sent, the tasks
finished (by index), the handler calls, the diagnostics, the number of registry keys and of bus
subscriptions, and which dispatched commands' waits are still held.

Error texts are reported without the source positions they may name (`scrubPositions`); a
command's user message is reported as it is.
-/

namespace DaemonBridge

namespace Session

open Json

/-- A step of a session script. -/
inductive Step where
  | request (target : ServiceMode) (timeout : Option Nat)
  | refresh (timeout : Option Nat)
  | dispatch (success failure : EventKind) (command : CommandKind) (params : Option Value)
      (timeout : Option Nat)
  | watchErrors (kind : EventKind) (command : CommandKind) (label : String)
  | listen (event : EventKind) (key label : String)
  | releaseKey (key : String)
  | forceReleaseKey (key : String)
  | releaseAll
  | refCount (key : String)
  | abort (task : Nat)
  | publish (e : Envelope)
  | respondNext (batch : List Envelope)
  | reject (on : Bool)
  | stall (on : Bool)
  | advance (ms : Nat)
  | cancel
  | assume (m : ServiceMode)
  | snapshot (value : Value)
  | attach
  | detach
  | state
  | rosterAttach
  | rosterDetach
  | rosterAttached
  | roster
  | rosterGet (key : String)
  | rosterRemove (key : String)
  | rosterReset
  | rosterReconcile (o : Observation) (online : Bool)
  deriving Repr

/-- Why a step could not be read: a fault of the script, or a notification line that is not
an envelope. -/
inductive StepFault where
  | input (message : String)
  | line (e : ProtocolError)

/-- A fault as the step's answer. -/
def StepFault.toValue : StepFault → Value
  | .input m => .object [("error", .string "BadInput"), ("message", .string m)]
  | .line e => .object [("error", .string ("BadInput/" ++ e.kindName)),
      ("message", .string (scrubPositions e.message))]

/-! Readers of the members of a step. -/

section Fields

variable (v : Value)

/-- A text member. -/
def textField (k : String) : Except StepFault String :=
  match v.get? k with
  | some (.string s) => pure s
  | _ => .error (.input ("missing string field '" ++ k ++ "'"))

/-- A whole-number member. -/
def natField (k : String) : Except StepFault Nat :=
  match v.get? k with
  | some (.number (.nat n)) => pure n
  | _ => .error (.input ("missing integer field '" ++ k ++ "'"))

/-- An optional whole-number member. -/
def optNatField (k : String) : Option Nat :=
  match v.get? k with
  | some (.number (.nat n)) => some n
  | _ => none

/-- A boolean member. -/
def boolField (k : String) : Except StepFault Bool :=
  match v.get? k with
  | some (.bool b) => pure b
  | _ => .error (.input ("missing boolean field '" ++ k ++ "'"))

/-- A mode member. -/
def modeField (k : String) : Except StepFault ServiceMode := do
  let s ← textField v k
  match ServiceMode.ofName? s with
  | some m => pure m
  | none => .error (.input ("unknown mode '" ++ s ++ "'"))

/-- An event kind member. -/
def eventField (k : String) : Except StepFault EventKind := do
  let s ← textField v k
  match EventKind.ofWireName? s with
  | some e => pure e
  | none => .error (.input ("unknown event kind '" ++ s ++ "'"))

/-- A command kind member. -/
def commandField (k : String) : Except StepFault CommandKind := do
  let s ← textField v k
  match CommandKind.ofWireName? s with
  | some c => pure c
  | none => .error (.input ("unknown command kind '" ++ s ++ "'"))

/-- A notification line member, read as an envelope. -/
def lineOf (line : String) : Except StepFault Envelope :=
  match Envelope.parse line with
  | .ok e => pure e
  | .error e => .error (.line e)

end Fields

/-- A step written as a JSON object. -/
def Step.ofValue (v : Value) : Except StepFault Step := do
  match v.get? "do" with
  | some (.string kind) =>
    match kind with
    | "request" => pure (.request (← modeField v "target") (optNatField v "timeout_ms"))
    | "refresh" => pure (.refresh (optNatField v "timeout_ms"))
    | "dispatch" =>
      pure (.dispatch (← eventField v "success") (← eventField v "error")
        (← commandField v "command") (v.get? "params") (optNatField v "timeout_ms"))
    | "watch_errors" =>
      pure (.watchErrors (← eventField v "error_kind") (← commandField v "command")
        (← textField v "label"))
    | "listen" => pure (.listen (← eventField v "event") (← textField v "key") (← textField v "label"))
    | "release_key" => pure (.releaseKey (← textField v "key"))
    | "force_release_key" => pure (.forceReleaseKey (← textField v "key"))
    | "release_all" => pure .releaseAll
    | "ref_count" => pure (.refCount (← textField v "key"))
    | "abort" => pure (.abort (← natField v "task"))
    | "publish" => pure (.publish (← lineOf (← textField v "line")))
    | "respond_next" =>
      match v.get? "lines" with
      | some (.array items) =>
        let lines ← items.mapM fun
          | .string s => pure s
          | _ => .error (.input "field 'lines' must hold strings")
        pure (.respondNext (← lines.mapM lineOf))
      | _ => .error (.input "missing array field 'lines'")
    | "reject" => pure (.reject (← boolField v "on"))
    | "stall" => pure (.stall (← boolField v "on"))
    | "advance" => pure (.advance (← natField v "ms"))
    | "cancel" => pure .cancel
    | "assume" => pure (.assume (← modeField v "mode"))
    | "snapshot" => pure (.snapshot ((v.get? "value").getD .null))
    | "attach" => pure .attach
    | "detach" => pure .detach
    | "state" => pure .state
    | "roster_attach" => pure .rosterAttach
    | "roster_detach" => pure .rosterDetach
    | "roster_attached" => pure .rosterAttached
    | "roster" => pure .roster
    | "roster_get" => pure (.rosterGet (← textField v "key"))
    | "roster_remove" => pure (.rosterRemove (← textField v "key"))
    | "roster_reset" => pure .rosterReset
    | "roster_reconcile" =>
      pure (.rosterReconcile (Observation.ofValue ((v.get? "obs").getD .null))
        (← boolField v "online"))
    | other => .error (.input ("unknown session step '" ++ other ++ "'"))
  | _ => .error (.input "missing string field 'do'")

/-- A mode error as JSON, its text without source positions. -/
def modeErrorValue (e : ModeError) : Value :=
  .object [("error", .string e.kindName), ("message", .string (scrubPositions e.message)),
    ("is_dispatch_failure", .bool e.isDispatchFailure)]

/-- A command error as JSON, its text without source positions. -/
def commandErrorValue (e : CommandError) : Value :=
  .object [("error", .string e.kindName), ("message", .string (scrubPositions e.message)),
    ("command", .string e.command.wireName), ("user_message", .string e.userMessage),
    ("is_dispatch", .bool e.isDispatch), ("is_service_reported", .bool e.isServiceReported)]

/-- A diagnostic as JSON, its reason without source positions. -/
def diagnosticValue : Diagnostic → Value
  | .modeSwitchFailed target reason => (Diagnostic.modeSwitchFailed target (scrubPositions reason)).toValue
  | .undecodableEvent reason => (Diagnostic.undecodableEvent (scrubPositions reason)).toValue
  | d => d.toValue

/-- A finished task's outcome as JSON members. -/
def Outcome.fields : Outcome → List (String × Value)
  | .switched m => [("ok", .string m.name)]
  | .status snap => [("ok", .object snap.fields)]
  | .answered e => [("ok", e.view)]
  | .switchFailed e | .statusFailed e =>
    match modeErrorValue e with
    | .object fs => fs
    | _ => []
  | .commandFailed e =>
    match commandErrorValue e with
    | .object fs => fs
    | _ => []

/-- A command sent, as JSON. -/
def SentCommand.toValue (c : SentCommand) : Value :=
  .object ([("command", .string c.command.wireName)] ++ (c.params.map fun p => ("params", p)).toList)

/-- The roster's notification kinds, each with whether its clients are online. -/
def feeds : List (EventKind × Bool) := [(.clientConnected, true), (.clientDisconnected, false)]

/-- The registry key of a roster notification kind. -/
def feedKey (kind : EventKind) : String := "roster:" ++ kind.wireName

/-- Join the roster feed: how many views share it. -/
def attachRoster : SessionM Nat :=
  feeds.foldlM (fun _ (kind, online) => do
    let id ← subscribe kind.wireName (.rosterFeed online)
    addShared (feedKey kind) (.unsubscribe kind.wireName id)) 0

/-- Leave the roster feed: whether this was the last view. -/
def detachRoster : SessionM Bool :=
  feeds.foldlM (fun torn (kind, _) => do
    let released ← releaseKey (feedKey kind)
    pure (torn || released)) false

/-- The roster's records as JSON. -/
def recordsValue (s : Session) : Value := .array (s.roster.records.map ClientRecord.toSeenValue)

/-- Run a step: its answer. -/
def Step.run : Step → SessionM Value
  | .request target timeout => do pure (.nat (← spawn (.switchMode target timeout)))
  | .refresh timeout => do pure (.nat (← spawn (.refreshStatus timeout)))
  | .dispatch success failure command params timeout => do
    pure (.nat (← spawn (.dispatch success failure command params timeout)))
  | .watchErrors kind command label => do
    let key := "errors:" ++ kind.wireName ++ ":" ++ command.wireName
    let id ← subscribe kind.wireName (.errorWatch command label)
    discard (addOnce key (.unsubscribe kind.wireName id))
    pure (.string key)
  | .listen event key label => do
    let id ← subscribe event.wireName (.listener label)
    pure (.nat (← addShared key (.unsubscribe event.wireName id)))
  | .releaseKey key => do pure (.bool (← Session.releaseKey key))
  | .forceReleaseKey key => do pure (.bool (← forceRelease key))
  | .releaseAll => do pure (.nat (← Session.releaseAll))
  | .refCount key => do pure (((← get).registry.holders? key).elim .null Value.nat)
  | .abort task => do pure (.bool (← Session.abort task))
  | .publish e => do pure (.nat (← Session.publish e))
  | .respondNext batch => do
    modify fun s => { s with responses := s.responses ++ [batch] }
    pure .null
  | .reject on => do modify (fun s => { s with refusing := on }); pure .null
  | .stall on => do modify (fun s => { s with stalling := on }); pure .null
  | .advance ms => do Session.advance ms; pure .null
  | .cancel => do pure (.bool (← cancelSwitch))
  | .assume m => do pure (.bool (← Session.assume m))
  | .snapshot value =>
    match StatusSnapshot.ofValue value with
    | .ok snap => do pure ((← applySnapshot snap).elim .null fun m => .string m.name)
    | .error e => pure (modeErrorValue e)
  | .attach => do pure (.bool (← attachServiceStarted))
  | .detach => do pure (.bool (← detachServiceStarted))
  | .state => pure .null
  | .rosterAttach => do pure (.nat (← attachRoster))
  | .rosterDetach => do pure (.bool (← detachRoster))
  | .rosterAttached => do
    let s ← get
    pure (.bool (feeds.all fun (kind, _) => s.registry.contains (feedKey kind)))
  | .roster => do pure (recordsValue (← get))
  | .rosterGet key => do pure (((← get).roster.get? key).elim .null ClientRecord.toSeenValue)
  | .rosterRemove key => do
    match (← get).roster.remove key with
    | .ok (rec, rest) => do
      modify fun s => { s with roster := rest }
      pure rec.toSeenValue
    | .error e => pure e.toValue
  | .rosterReset => do
    modify fun s => { s with roster := s.roster.reset }
    pure .null
  | .rosterReconcile o online => do
    let s ← get
    match s.roster.reconcileAt o online s.seenNow with
    | .ok updated => do
      modify fun s => { s with roster := updated }
      pure (recordsValue (← get))
    | .error e => pure e.toValue

/-- Run a step written as JSON, then every task that can run, and report. -/
def runReported (v : Value) : SessionM Value := do
  modify fun s => { s with sent := [], done := [], calls := [], diagnostics := [] }
  let answer ← match Step.ofValue v with
    | .ok step => step.run
    | .error fault => pure fault.toValue
  settle
  let s ← get
  let done := (s.done.mergeSort fun a b => a.1 ≤ b.1).map fun (i, o) =>
    Value.object (o.fields ++ [("task", .nat i)])
  let live := (s.keys.filter fun (_, key) => s.registry.contains key).map (·.1)
  pure (.object [("r", answer), ("state", s.mode.toValue), ("waiting", .bool s.waitKey.isSome),
    ("sent", .array (s.sent.map (·.toValue))), ("done", .array done),
    ("calls", .array (s.calls.map Value.string)),
    ("diag", .array (s.diagnostics.map diagnosticValue)), ("reg", .nat s.registry.size),
    ("subs", .nat s.bus.total), ("live", .array (live.map Value.nat))])

/-- Run a script on a fresh session whose transport refuses with `refusal`, after showing
`preferred` as the mode, if given: each step's report. -/
def runScript (refusal : String) (preferred : Option ServiceMode) (steps : List Value) :
    List Value :=
  let setup : SessionM Unit := match preferred with
    | some m => discard (assume m)
    | none => pure ()
  ((do setup; steps.mapM runReported) |>.run (new refusal)).run.1

end Session

end DaemonBridge
