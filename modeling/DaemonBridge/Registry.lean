/-!
# Subscription registry

A `Registry α` maps logical subscription keys to the one underlying subscription that serves
them. The subscription is represented by its release token, of type `α`: whoever removes an
entry gets its token back and is then bound to run it, once. Each entry also counts its holders.

* `addShared` joins a key, or creates it with count 1. A redundant token is handed straight back
  to the caller, since the first holder's subscription already serves everyone.
* `addOnce` creates a key only if it is absent; a redundant token is handed back likewise.
* `release` drops one holder; the last one takes the entry out and gets its token.
* `forceRelease` takes an entry out whatever its count; `releaseAll` takes every entry out.

Tokens are handed back as data rather than run here, so a token may call back into the registry
after the registry has already changed.

Entries are kept in the order they were created. No entry ever has a count of zero.
-/

namespace DaemonBridge

/-- One subscription: its release token and how many hold it. -/
structure Registry.Entry (α : Type) where
  token : α
  holders : Nat
  deriving DecidableEq, Repr

/-- Keys and their subscriptions, in the order the keys were created. -/
structure Registry (α : Type) where
  entries : List (String × Registry.Entry α) := []
  deriving DecidableEq, Repr

/-- What a release did. -/
inductive Registry.Release (α : Type) where
  /-- The key is not held. -/
  | missing
  /-- One holder fewer; `remaining` still hold it. -/
  | held (remaining : Nat)
  /-- The last holder left; the entry is out and its token must run. -/
  | removed (token : α)
  deriving DecidableEq, Repr

namespace Registry

variable {α : Type}

/-- The empty registry. -/
def empty : Registry α := {}

/-- The entry of a key. -/
def find? (r : Registry α) (key : String) : Option (Entry α) := r.entries.lookup key

/-- Whether a key is held. -/
def contains (r : Registry α) (key : String) : Bool := (r.find? key).isSome

/-- How many hold a key. -/
def holders? (r : Registry α) (key : String) : Option Nat := (r.find? key).map (·.holders)

/-- How many keys are held. -/
def size (r : Registry α) : Nat := r.entries.length

/-- The registry without the entry of a key. -/
def erase (r : Registry α) (key : String) : Registry α :=
  ⟨r.entries.filter fun (k, _) => k != key⟩

/-- The registry with one more holder of a key it holds. -/
def join (r : Registry α) (key : String) : Registry α :=
  ⟨r.entries.map fun (k, e) => if k == key then (k, { e with holders := e.holders + 1 }) else (k, e)⟩

/-- Join `key`, or create it holding `token`: the count of holders after, and the token to run
at once when the key was already held. -/
def addShared (r : Registry α) (key : String) (token : α) : Nat × Option α × Registry α :=
  match r.find? key with
  | some e => (e.holders + 1, some token, r.join key)
  | none => (1, none, ⟨r.entries ++ [(key, ⟨token, 1⟩)]⟩)

/-- Create `key` holding `token` if it is absent: whether it was created, and the token to run
at once when it was not. -/
def addOnce (r : Registry α) (key : String) (token : α) : Bool × Option α × Registry α :=
  match r.find? key with
  | some _ => (false, some token, r)
  | none => (true, none, ⟨r.entries ++ [(key, ⟨token, 1⟩)]⟩)

/-- The registry with one holder fewer of a key held by more than one. -/
def leave (r : Registry α) (key : String) : Registry α :=
  ⟨r.entries.map fun (k, e) => if k == key then (k, { e with holders := e.holders - 1 }) else (k, e)⟩

/-- Drop one holder of `key`. -/
def release (r : Registry α) (key : String) : Release α × Registry α :=
  match r.find? key with
  | none => (.missing, r)
  | some e =>
    if 1 < e.holders then (.held (e.holders - 1), r.leave key)
    else (.removed e.token, r.erase key)

/-- Take `key` out whatever its count, with the token to run. -/
def forceRelease (r : Registry α) (key : String) : Option α × Registry α :=
  match r.find? key with
  | none => (none, r)
  | some e => (some e.token, r.erase key)

/-- Take every entry out: the tokens to run, in the order their keys were created. -/
def releaseAll (r : Registry α) : List α × Registry α :=
  (r.entries.map (·.2.token), empty)

end Registry

end DaemonBridge
