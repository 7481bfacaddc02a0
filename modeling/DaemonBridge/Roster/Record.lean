import DaemonBridge.Text.Blank
import DaemonBridge.Json.Value

/-!
# Client records and observations

A `ClientRecord` is what the bridge knows of one client of the server: the key it is known by,
its uid once one was seen, its last hostname and address, whether it is online, when it was last
seen, and where it sits on the screen.

An `Observation` is one sighting of a client, as the daemon reports it. Each of its fields is
trimmed of blank characters, and a field that is then empty counts as absent. An observation
with no uid, address or hostname identifies nobody.
-/

namespace DaemonBridge

open Json

/-- What the bridge knows of one client. -/
structure ClientRecord where
  /-- The key the record is known by; it never changes. -/
  identityKey : String
  uid : Option String
  hostname : String
  address : String
  online : Bool
  /-- When the client was last seen, in seconds since the epoch. -/
  lastSeenAt : Option Nat
  screenPosition : Option String
  deriving DecidableEq, Repr

/-- One sighting of a client. -/
structure Observation where
  uid : Option String := none
  hostname : Option String := none
  address : Option String := none
  screenPosition : Option String := none
  deriving DecidableEq, Repr

/-- A text trimmed of blanks, absent when nothing is left. -/
def nonBlank (s : String) : Option String :=
  let t := trimBlank s
  if t.isEmpty then none else some t

namespace Observation

/-- An observation with the given uid. -/
def withUid (o : Observation) (s : String) : Observation := { o with uid := nonBlank s }

/-- An observation with the given hostname. -/
def withHostname (o : Observation) (s : String) : Observation := { o with hostname := nonBlank s }

/-- An observation with the given address. -/
def withAddress (o : Observation) (s : String) : Observation := { o with address := nonBlank s }

/-- An observation with the given screen position. -/
def withScreenPosition (o : Observation) (s : String) : Observation :=
  { o with screenPosition := nonBlank s }

/-- The first of the named members of a payload that holds a string, trimmed: the later names
are only looked at when the earlier ones hold no string. -/
def member (payload : Value) (names : List String) : Option String :=
  (names.findSome? fun n => (payload.get? n).bind Value.asString?).bind nonBlank

/-- An observation read from a notification's payload: `uid`, `host_name` or else `hostname`,
`ip_address` or else `address`, and `screen_position`. -/
def ofPayload (payload : Value) : Observation :=
  { uid := member payload ["uid"]
    hostname := member payload ["host_name", "hostname"]
    address := member payload ["ip_address", "address"]
    screenPosition := member payload ["screen_position"] }

/-- Whether an observation names a client: by uid, address or hostname. -/
def identifiable (o : Observation) : Bool :=
  o.uid.isSome || o.address.isSome || o.hostname.isSome

end Observation

/-- Why a roster refused a change. -/
inductive RosterError where
  | unidentifiable
  | unknownClient (identityKey : String)
  deriving DecidableEq, Repr

namespace RosterError

/-- The wording of a roster error. -/
def message : RosterError → String
  | .unidentifiable => "Unidentifiable Client Error: observation has no uid, address or hostname"
  | .unknownClient key => "Unknown Client Error: '" ++ key ++ "'"

/-- The name of the error's kind. -/
def kindName : RosterError → String
  | .unidentifiable => "Unidentifiable"
  | .unknownClient _ => "UnknownClient"

end RosterError

end DaemonBridge
