import DaemonBridge.Transport.Bus
import DaemonBridge.Kind
import DaemonBridge.Json.Value

/-!
# Bus scripts

A script drives one event bus through a list of steps. Every handler it subscribes logs its
label when called, and may then act on the bus from inside the call: remove itself, remove
another subscription, or subscribe a new handler.

Each subscription gets a handle, numbered from 0 in the order of subscription, handlers'
subscriptions included. A handle removes its subscription once; using it again does nothing.

Each step reports its answer, the labels logged during it, and the number of handlers after it.
A step that cannot be read answers why, and changes nothing.
-/

namespace DaemonBridge

open Json

namespace EventBus

/-- What a handler does on the bus after logging its label. -/
inductive Action where
  /-- Remove its own subscription. -/
  | unsubSelf
  /-- Remove the subscription of a handle. -/
  | unsub (handle : Nat)
  /-- Subscribe a handler with no action of its own. -/
  | subscribe (event label : String)
  deriving DecidableEq, Repr

/-- A handler of a script: its label, its handle and what it does when called. -/
structure Listener where
  label : String
  handle : Nat
  action : Option Action
  deriving DecidableEq, Repr

/-- A step of a bus script. -/
inductive Step where
  | subscribe (event label : String) (action : Option Action)
  | unsubscribe (handle : Nat)
  | publish (kind : EventKind)
  | count (event : String)
  | total
  deriving Repr

/-- The state of a script: the bus, the wire name of every handle with whether it was used,
and the labels logged. -/
structure Bench where
  bus : EventBus Listener := empty
  handles : List (String × Bool) := []
  calls : List String := []

namespace Bench

/-- Subscribe a handler: its handle. -/
def subscribe (b : Bench) (event label : String) (action : Option Action) : Nat × Bench :=
  let handle := b.handles.length
  let (_, bus) := b.bus.subscribe event ⟨label, handle, action⟩
  (handle, { b with bus, handles := b.handles ++ [(event, false)] })

/-- Use a handle: whether it removed its subscription, which it does the first time only. -/
def unsubscribe (b : Bench) (handle : Nat) : Bool × Bench :=
  match b.handles[handle]? with
  | some (event, false) =>
    (true, { b with bus := b.bus.unsubscribe event handle, handles := b.handles.set handle (event, true) })
  | _ => (false, b)

/-- Call one handler. -/
def call (b : Bench) (l : Listener) : Bench :=
  let b := { b with calls := b.calls ++ [l.label] }
  match l.action with
  | none => b
  | some .unsubSelf => (b.unsubscribe l.handle).2
  | some (.unsub h) => (b.unsubscribe h).2
  | some (.subscribe event label) => (b.subscribe event label none).2

/-- Run a step: its answer. -/
def run (b : Bench) : Step → Value × Bench
  | .subscribe event label action => let (h, b) := b.subscribe event label action; (.nat h, b)
  | .unsubscribe handle => let (used, b) := b.unsubscribe handle; (.bool used, b)
  | .publish kind =>
    let called := b.bus.handlersOf kind.wireName
    (.nat called.length, called.foldl (fun b (_, l) => b.call l) b)
  | .count event => (.nat (b.bus.count event), b)
  | .total => (.nat b.bus.total, b)

end Bench

/-- An action written as a JSON object with its kind under `do`. -/
def Action.ofValue (v : Value) : Except String Action :=
  match v.get? "do", v.get? "handle", v.get? "event", v.get? "label" with
  | some (.string "unsub_self"), _, _, _ => .ok .unsubSelf
  | some (.string "unsub"), some (.number (.nat h)), _, _ => .ok (.unsub h)
  | some (.string "unsub"), _, _, _ => .error "missing integer field 'handle'"
  | some (.string "subscribe"), _, some (.string e), some (.string l) => .ok (.subscribe e l)
  | some (.string "subscribe"), _, some (.string _), _ => .error "missing string field 'label'"
  | some (.string "subscribe"), _, _, _ => .error "missing string field 'event'"
  | some (.string other), _, _, _ => .error ("unknown action '" ++ other ++ "'")
  | _, _, _, _ => .error "missing string field 'do'"

/-- A step written as a JSON object with its kind under `do`. -/
def Step.ofValue (v : Value) : Except String Step := do
  let text := fun (k : String) => match v.get? k with
    | some (.string s) => Except.ok s
    | _ => .error ("missing string field '" ++ k ++ "'")
  match v.get? "do" with
  | some (.string "subscribe") =>
    let event ← text "event"
    let label ← text "label"
    let action ← match v.get? "action" with
      | none | some .null => pure none
      | some a => some <$> Action.ofValue a
    pure (.subscribe event label action)
  | some (.string "unsubscribe") =>
    match v.get? "handle" with
    | some (.number (.nat h)) => pure (.unsubscribe h)
    | _ => .error "missing integer field 'handle'"
  | some (.string "publish") =>
    let name ← text "kind"
    match EventKind.ofWireName? name with
    | some k => pure (.publish k)
    | none => .error ("unknown event kind '" ++ name ++ "'")
  | some (.string "count") => return .count (← text "event")
  | some (.string "total") => pure .total
  | some (.string other) => .error ("unknown bus step '" ++ other ++ "'")
  | _ => .error "missing string field 'do'"

/-- What one step of a script reports: its answer (or why it could not be read), the labels
logged and the number of handlers after it. -/
def runScript (steps : List Value) : List Value :=
  let go := fun ((b, out) : Bench × List Value) (v : Value) =>
    let b0 := { b with calls := [] }
    let (answer, b1) := match Step.ofValue v with
      | .ok step => b0.run step
      | .error msg => (.object [("error", .string "BadInput"), ("message", .string msg)], b0)
    (b1, out ++ [.object [("r", answer), ("calls", .array (b1.calls.map .string)),
      ("total", .nat b1.bus.total)]])
  (steps.foldl go ({}, [])).2

end EventBus

end DaemonBridge
