import DaemonBridge.Roster.Record

/-!
# Matching observations to records

An observation is matched to a record by three rules, tried in order: by uid, by address, by
hostname. The first rule that some record passes picks the first record that passes it.

* By uid: both have a uid, and it is the same.
* By address: the observation's address is the record's, and their uids do not differ.
* By hostname: the observation's hostname is the record's, and their uids do not differ.

Uids do not differ unless both are known and unequal, so a record is never matched to an
observation of another uid. When nothing matches, a new record is keyed by the uid, else
`address:` and the address, else `hostname:` and the hostname.
-/

namespace DaemonBridge

/-- A rule for matching an observation to a record. -/
inductive Matcher where
  | uid
  | address
  | hostname
  deriving DecidableEq, Repr

namespace Matcher

/-- The rules in the order they are tried. -/
def all : List Matcher := [.uid, .address, .hostname]

/-- The rule's name. -/
def name : Matcher → String
  | .uid => "uid"
  | .address => "address"
  | .hostname => "hostname"

/-- Whether a record and an observation have no two different uids. -/
def uidCompatible (r : ClientRecord) (o : Observation) : Bool :=
  match r.uid, o.uid with
  | some known, some seen => known == seen
  | _, _ => true

/-- Whether a record passes the rule for an observation. -/
def accepts : Matcher → ClientRecord → Observation → Bool
  | .uid, r, o =>
    match r.uid, o.uid with
    | some known, some seen => known == seen
    | _, _ => false
  | .address, r, o => uidCompatible r o && o.address == some r.address
  | .hostname, r, o => uidCompatible r o && o.hostname == some r.hostname

end Matcher

/-- The index of the record an observation belongs to, if any. -/
def findRecord (records : List ClientRecord) (o : Observation) : Option Nat :=
  Matcher.all.findSome? fun m => records.findIdx? fun r => m.accepts r o

/-- The key of a new record for an observation, if the observation names a client. -/
def Observation.identityKey? (o : Observation) : Option String :=
  match o.uid, o.address, o.hostname with
  | some uid, _, _ => some uid
  | none, some address, _ => some ("address:" ++ address)
  | none, none, some hostname => some ("hostname:" ++ hostname)
  | none, none, none => none

end DaemonBridge
