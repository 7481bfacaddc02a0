import DaemonBridge.Roster.Match

/-!
# The roster

The roster is the list of clients the bridge has seen, in the order they were first seen.
`Roster.reconcileAt` takes an observation into it: the record it matches (`findRecord`) is brought
up to date, or a new record is added under the observation's key. A record's key never changes,
and its uid, once known, is kept.
-/

namespace DaemonBridge

/-- The clients seen, in the order they were first seen. -/
structure Roster where
  records : List ClientRecord := []
  deriving DecidableEq, Repr

namespace Roster

/-- How many records there are. -/
def size (r : Roster) : Nat := r.records.length

/-- The record with a key. -/
def get? (r : Roster) (key : String) : Option ClientRecord :=
  r.records.find? (·.identityKey == key)

/-- A record brought up to date by an observation made at `seenAt`: the uid is filled in only
if it was unknown, the other fields only by what the observation holds. -/
def ClientRecord.update (rec : ClientRecord) (o : Observation) (online : Bool) (seenAt : Nat) :
    ClientRecord :=
  { rec with
    uid := if rec.uid.isNone then o.uid else rec.uid
    hostname := o.hostname.getD rec.hostname
    address := o.address.getD rec.address
    screenPosition := if o.screenPosition.isSome then o.screenPosition else rec.screenPosition
    online
    lastSeenAt := some seenAt }

/-- Take an observation made at `seenAt` into the roster. -/
def reconcileAt (r : Roster) (o : Observation) (online : Bool) (seenAt : Nat) :
    Except RosterError Roster :=
  match findRecord r.records o with
  | some i => .ok ⟨r.records.modify i fun rec => ClientRecord.update rec o online seenAt⟩
  | none =>
    match o.identityKey? with
    | none => .error .unidentifiable
    | some key =>
      .ok ⟨r.records ++ [⟨key, o.uid, o.hostname.getD "", o.address.getD "", online, some seenAt,
        o.screenPosition⟩]⟩

/-- Take out the record with a key. -/
def remove (r : Roster) (key : String) : Except RosterError (ClientRecord × Roster) :=
  match r.records.findIdx? (·.identityKey == key) with
  | some i =>
    match r.records[i]? with
    | some rec => .ok (rec, ⟨r.records.eraseIdx i⟩)
    | none => .error (.unknownClient key)
  | none => .error (.unknownClient key)

/-- The empty roster. -/
def reset (_ : Roster) : Roster := {}

end Roster

end DaemonBridge
