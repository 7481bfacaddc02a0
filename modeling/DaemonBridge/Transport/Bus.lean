/-!
# Event bus

An `EventBus α` routes notifications to handlers by the wire name of their kind. A handler is
kept as a value of type `α`, with the id it was given when it subscribed; ids count every
subscription ever made, so none is given twice.

`publish` answers the handlers subscribed to a name, in the order they subscribed, as they are
at that moment: the caller runs them, and a handler that subscribes or unsubscribes while they
run changes the bus, but not who is called for that notification.
-/

namespace DaemonBridge

/-- One subscription: its id, the wire name it listens to, and its handler. -/
structure EventBus.Subscription (α : Type) where
  id : Nat
  name : String
  handler : α
  deriving DecidableEq, Repr

/-- Handlers by wire name, in the order they subscribed. -/
structure EventBus (α : Type) where
  /-- The id the next subscription gets. -/
  nextId : Nat := 0
  subscriptions : List (EventBus.Subscription α) := []
  deriving DecidableEq, Repr

namespace EventBus

variable {α : Type}

/-- A bus with no handlers. -/
def empty : EventBus α := {}

/-- Subscribe a handler to a wire name: its id, and the bus after. -/
def subscribe (bus : EventBus α) (name : String) (handler : α) : Nat × EventBus α :=
  (bus.nextId,
    ⟨bus.nextId + 1, bus.subscriptions ++ [⟨bus.nextId, name, handler⟩]⟩)

/-- Remove the subscription with the given id from a wire name. -/
def unsubscribe (bus : EventBus α) (name : String) (id : Nat) : EventBus α :=
  { bus with subscriptions := bus.subscriptions.filter fun s => !(s.id == id && s.name == name) }

/-- The handlers of a wire name with their ids, in the order they subscribed. -/
def handlersOf (bus : EventBus α) (name : String) : List (Nat × α) :=
  (bus.subscriptions.filter (·.name == name)).map fun s => (s.id, s.handler)

/-- How many handlers a wire name has. -/
def count (bus : EventBus α) (name : String) : Nat :=
  (bus.subscriptions.filter (·.name == name)).length

/-- How many handlers there are in all. -/
def total (bus : EventBus α) : Nat := bus.subscriptions.length

end EventBus

end DaemonBridge
