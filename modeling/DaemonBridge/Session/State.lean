import DaemonBridge.Registry
import DaemonBridge.Transport.Bus
import DaemonBridge.Envelope
import DaemonBridge.Diagnostic
import DaemonBridge.Command.Error
import DaemonBridge.Mode.State
import DaemonBridge.Mode.Error
import DaemonBridge.Mode.Snapshot
import DaemonBridge.Roster

/-!
# Sessions

A session is the console's view of the daemon, run against an in-memory transport: one event bus
delivering the daemon's notifications, one subscription registry, the mode coordinator's state,
the roster of clients, and the tasks waiting on commands.

Everything that happens is data here:

* a bus subscription holds a `Handler`, saying what it does with a notification;
* a registry entry holds a `Release`, saying which subscriptions and which result slot go away
  with it;
* a command's wait (`Wait`) holds a one-shot result slot, which is filled by the first matching
  notification, or dropped when the wait is released first;
* a task (`Task`) is a request of the console's, run in stages; it is woken, by being queued,
  when its slot changes or its deadline passes, and the queue is run until it is empty.

Time is a clock in milliseconds that moves only when told to.
-/

namespace DaemonBridge

namespace Session

open Json

/-- What a bus subscription does with a notification. -/
inductive Handler where
  /-- The success of wait `wait`'s command; a switch wait also needs the mode it asked for
  reported. -/
  | waitSuccess (wait : Nat) (command : CommandKind) (target : Option ServiceMode)
  /-- The failure of wait `wait`'s command. -/
  | waitError (wait : Nat) (command : CommandKind)
  /-- Log the error text of notifications about `command`. -/
  | errorWatch (command : CommandKind) (label : String)
  /-- Log every notification's kind. -/
  | listener (label : String)
  /-- Take a `service_started` notification as the mode the daemon runs. -/
  | serviceStarted
  /-- Take a client notification into the roster, the client being online or not. -/
  | rosterFeed (online : Bool)
  deriving DecidableEq, Repr

/-- What releasing a registry entry does. -/
inductive Release where
  /-- End a wait: remove its subscriptions and drop its slot, if still empty. -/
  | wait (wait : Nat) (handles : List (String × Nat))
  /-- Remove one subscription. -/
  | unsubscribe (name : String) (id : Nat)
  deriving DecidableEq, Repr

/-- A command's result: the notification that answered it, or why none did. -/
inductive Reply where
  | answer (e : Envelope)
  | failure (e : CommandError)
  deriving DecidableEq, Repr

/-- The result slot of a wait. -/
inductive Slot where
  /-- Nothing has come yet. -/
  | empty
  /-- The result came. -/
  | filled (reply : Reply)
  /-- The wait was released before a result came. -/
  | dropped
  deriving DecidableEq, Repr

/-- A command's wait: its registry key, the command, the task waiting, and its slot. -/
structure Wait where
  key : String
  command : CommandKind
  owner : Nat
  slot : Slot := .empty
  deriving DecidableEq, Repr

/-- What a task was asked to do; timeouts are in milliseconds. -/
inductive Job where
  /-- Switch the daemon to a mode and wait for it to confirm. -/
  | switchMode (target : ServiceMode) (timeout : Option Nat)
  /-- Ask the daemon for its status and take the mode it shows. -/
  | refreshStatus (timeout : Option Nat)
  /-- Send a command and wait for its result. -/
  | dispatch (success failure : EventKind) (command : CommandKind) (params : Option Value)
      (timeout : Option Nat)
  deriving DecidableEq, Repr

/-- How far a task has come. -/
inductive Stage where
  /-- Spawned, not yet run. -/
  | ready
  /-- Sending its command: the send is still under way, and ends, if ever, in a later move. -/
  | sending (wait : Nat)
  /-- Waiting on its slot, until `deadline` if it has one, for at most `limit` milliseconds. -/
  | awaiting (wait : Nat) (deadline : Option (Nat × Nat))
  | finished
  deriving DecidableEq, Repr

/-- What a finished task produced. -/
inductive Outcome where
  | switched (mode : ServiceMode)
  | switchFailed (e : ModeError)
  | status (snapshot : StatusSnapshot)
  | statusFailed (e : ModeError)
  | answered (e : Envelope)
  | commandFailed (e : CommandError)
  deriving DecidableEq, Repr

/-- A task: its job, the mode generation it switches under, and its stage. -/
structure Task where
  job : Job
  generation : Nat := 0
  stage : Stage := .ready
  deriving DecidableEq, Repr

/-- A command the transport was given. -/
structure SentCommand where
  command : CommandKind
  params : Option Value
  deriving DecidableEq, Repr

end Session

/-- A session with its transport, registry, coordinator, roster and tasks, and what the current
step has produced so far. -/
structure Session where
  bus : EventBus Session.Handler := {}
  registry : Registry Session.Release := {}
  waits : List Session.Wait := []
  mode : ModeState := {}
  /-- Bumped by every transition; a switch commits only under its own generation. -/
  generation : Nat := 0
  /-- The key of the switch being waited for. -/
  waitKey : Option String := none
  /-- Every mode state shown to the coordinator's watchers, oldest first. -/
  shown : List ModeState := []
  roster : Roster := {}
  tasks : List Session.Task := []
  /-- Tasks woken and not yet run, in the order they were woken. -/
  queue : List Nat := []
  clock : Nat := 0
  /-- Whether the transport refuses commands. -/
  refusing : Bool := false
  /-- Whether a send stays under way instead of ending at once. -/
  stalling : Bool := false
  /-- The text the transport's refusal is reported with. -/
  refusal : String
  /-- Batches of notifications the daemon publishes in answer to the next commands. -/
  responses : List (List Envelope) := []
  /-- The wait keys of dispatched commands, by task, once known to their callers. -/
  keys : List (Nat × String) := []
  sent : List Session.SentCommand := []
  done : List (Nat × Session.Outcome) := []
  calls : List String := []
  diagnostics : List Diagnostic := []

namespace Session

/-- Session actions. -/
abbrev SessionM := StateM Session

/-- A fresh session whose transport refuses with `refusal` when told to. -/
def new (refusal : String) : Session := { refusal }

/-- The hexadecimal digits of a number, `width` of them. -/
def hexWidth (width n : Nat) : String :=
  let digits := Nat.toDigits 16 n
  String.ofList (List.replicate (width - digits.length) '0' ++ digits)

/-- The registry key of a wait: the command, and an identifier shaped like a UUID. -/
def waitKeyOf (command : CommandKind) (w : Nat) : String :=
  "command:" ++ command.wireName ++ ":00000000-0000-4000-8000-" ++ hexWidth 12 w

/-- Queue a task, unless it is queued already. -/
def wake (i : Nat) : SessionM Unit :=
  modify fun s => if s.queue.contains i then s else { s with queue := s.queue ++ [i] }

/-- Raise a diagnostic. -/
def report (d : Diagnostic) : SessionM Unit :=
  modify fun s => { s with diagnostics := s.diagnostics ++ [d] }

/-- Log a handler call. -/
def logCall (c : String) : SessionM Unit :=
  modify fun s => { s with calls := s.calls ++ [c] }

/-- Subscribe a handler to a wire name: its id. -/
def subscribe (name : String) (h : Handler) : SessionM Nat := do
  let (id, bus) := (← get).bus.subscribe name h
  modify fun s => { s with bus }
  pure id

/-- Remove a subscription. -/
def unsubscribe (name : String) (id : Nat) : SessionM Unit :=
  modify fun s => { s with bus := s.bus.unsubscribe name id }

/-- The wait with an id. -/
def wait? (w : Nat) : SessionM (Option Wait) := do pure (← get).waits[w]?

/-- Change the wait with an id. -/
def setSlot (w : Nat) (slot : Slot) : SessionM Unit :=
  modify fun s => { s with waits := s.waits.modify w fun x => { x with slot } }

/-- Drop a wait's slot if nothing came yet, waking its task. -/
def dropSlot (w : Nat) : SessionM Unit := do
  match ← wait? w with
  | some x =>
    if x.slot == .empty then do
      setSlot w .dropped
      wake x.owner
  | none => pure ()

/-- Run a release. -/
def runRelease : Release → SessionM Unit
  | .wait w handles => do
    handles.forM fun (name, id) => unsubscribe name id
    dropSlot w
  | .unsubscribe name id => unsubscribe name id

/-- Drop one holder of a key: whether its subscription was torn down. An unknown key is
reported. -/
def releaseKey (key : String) : SessionM Bool := do
  let (outcome, registry) := (← get).registry.release key
  modify fun s => { s with registry }
  match outcome with
  | .missing => do report (.unknownSubscriptionKey key); pure false
  | .held _ => pure false
  | .removed r => do runRelease r; pure true

/-- Tear a key down whatever its count: whether it was held. -/
def forceRelease (key : String) : SessionM Bool := do
  let (token, registry) := (← get).registry.forceRelease key
  modify fun s => { s with registry }
  match token with
  | some r => do runRelease r; pure true
  | none => pure false

/-- Tear every key down: how many there were. -/
def releaseAll : SessionM Nat := do
  let (tokens, registry) := (← get).registry.releaseAll
  modify fun s => { s with registry }
  tokens.forM runRelease
  pure tokens.length

/-- Register a key if it is absent; a redundant release runs at once. -/
def addOnce (key : String) (r : Release) : SessionM Bool := do
  let (stored, extra, registry) := (← get).registry.addOnce key r
  modify fun s => { s with registry }
  extra.toList.forM runRelease
  pure stored

/-- Join a key, or register it; a redundant release runs at once. The count after. -/
def addShared (key : String) (r : Release) : SessionM Nat := do
  let (n, extra, registry) := (← get).registry.addShared key r
  modify fun s => { s with registry }
  extra.toList.forM runRelease
  pure n

end Session

end DaemonBridge
