import DaemonBridge.Roster

/-!
# Roster scripts

Records and observations as JSON objects, and scripts that drive one roster through a list of
steps, each reporting its answer and the records after it. A step that cannot be read answers
why, and changes nothing.
-/

namespace DaemonBridge

open Json

/-- An optional text as JSON: the text, or null. -/
def optionText : Option String → Value
  | some s => .string s
  | none => .null

namespace ClientRecord

/-- The fields of a record shown whatever the clock, in the order they are declared. -/
def fields (r : ClientRecord) : List (String × Value) :=
  [("identity_key", .string r.identityKey), ("uid", optionText r.uid),
    ("hostname", .string r.hostname), ("address", .string r.address), ("online", .bool r.online),
    ("screen_position", optionText r.screenPosition)]

/-- A record as a JSON object, with the time it was last seen in seconds. -/
def toValue (r : ClientRecord) : Value :=
  .object (r.fields ++ [("last_seen_at", (r.lastSeenAt.elim .null Value.nat))])

/-- A record as a JSON object, saying only whether it was seen. -/
def toSeenValue (r : ClientRecord) : Value :=
  .object (r.fields ++ [("seen", .bool r.lastSeenAt.isSome)])

/-- A record read from a JSON object: only the key is required; texts default to empty, the
online flag to false, and the record has not been seen. -/
def ofValue (v : Value) : Except String ClientRecord :=
  let text := fun (k : String) => (v.get? k).bind Value.asString?
  match text "identity_key" with
  | none => .error "missing string field 'identity_key'"
  | some key =>
    .ok ⟨key, text "uid", (text "hostname").getD "", (text "address").getD "",
      (match v.get? "online" with | some (.bool b) => b | _ => false), none,
      text "screen_position"⟩

end ClientRecord

namespace Observation

/-- An observation written as JSON: a notification's payload under `payload`, or else its
fields by name, each set as its builder sets it. -/
def ofValue (v : Value) : Observation :=
  match v.get? "payload" with
  | some payload => ofPayload payload
  | none =>
    let set := fun (o : Observation) (k : String) (f : Observation → String → Observation) =>
      match v.get? k with
      | some (.string s) => f o s
      | _ => o
    let o := set {} "uid" withUid
    let o := set o "hostname" withHostname
    let o := set o "address" withAddress
    set o "screen_position" withScreenPosition

/-- An observation as a JSON object. -/
def toValue (o : Observation) : Value :=
  .object [("uid", optionText o.uid), ("hostname", optionText o.hostname),
    ("address", optionText o.address), ("screen_position", optionText o.screenPosition),
    ("identifiable", .bool o.identifiable)]

end Observation

/-- A roster error as a JSON object. -/
def RosterError.toValue (e : RosterError) : Value :=
  .object [("error", .string e.kindName), ("message", .string e.message)]

namespace Roster

/-- A step of a roster script. -/
inductive Step where
  | reconcile (o : Observation) (online : Bool) (at_ : Nat)
  | remove (key : String)
  | get (key : String)
  | reset
  | size
  deriving Repr

/-- A step written as a JSON object with its kind under `do`. -/
def Step.ofValue (v : Value) : Except String Step := do
  let text := fun (k : String) => match v.get? k with
    | some (.string s) => Except.ok s
    | _ => .error ("missing string field '" ++ k ++ "'")
  match v.get? "do" with
  | some (.string "reconcile") =>
    let o := Observation.ofValue ((v.get? "obs").getD .null)
    let online ← match v.get? "online" with
      | some (.bool b) => pure b
      | _ => .error "missing boolean field 'online'"
    let at_ ← match v.get? "at" with
      | some (.number (.nat n)) => pure n
      | _ => .error "missing integer field 'at'"
    pure (.reconcile o online at_)
  | some (.string "remove") => return .remove (← text "key")
  | some (.string "get") => return .get (← text "key")
  | some (.string "reset") => pure .reset
  | some (.string "len") => pure .size
  | some (.string other) => .error ("unknown roster step '" ++ other ++ "'")
  | _ => .error "missing string field 'do'"

/-- Run a step: its answer. -/
def run (r : Roster) : Step → Value × Roster
  | .reconcile o online at_ =>
    match r.reconcileAt o online at_ with
    | .ok r' => (.nat r'.size, r')
    | .error e => (e.toValue, r)
  | .remove key =>
    match r.remove key with
    | .ok (rec, r') => (rec.toValue, r')
    | .error e => (e.toValue, r)
  | .get key => ((r.get? key).elim .null ClientRecord.toValue, r)
  | .reset => (.null, r.reset)
  | .size => (.object [("len", .nat r.size), ("is_empty", .bool (r.size == 0))], r)

/-- Run a script on an empty roster: each step's answer and the records after it. -/
def runScript (steps : List Value) : List Value :=
  let go := fun ((r, out) : Roster × List Value) (v : Value) =>
    let (answer, r') := match Step.ofValue v with
      | .ok step => r.run step
      | .error msg => (.object [("error", .string "BadInput"), ("message", .string msg)], r)
    (r', out ++ [.object [("r", answer), ("records", .array (r'.records.map ClientRecord.toValue))]])
  (steps.foldl go ({}, [])).2

/-- How an observation matches a list of records: the observation, the record it belongs to,
the key a new record would get, and which records each rule accepts. -/
def matchReport (records : List ClientRecord) (o : Observation) : Value :=
  let verdicts := fun (m : Matcher) => Value.array (records.map fun r => .bool (m.accepts r o))
  .object [("observation", o.toValue), ("find", (findRecord records o).elim .null Value.nat),
    ("key", optionText o.identityKey?), ("by_uid", verdicts .uid),
    ("by_address", verdicts .address), ("by_hostname", verdicts .hostname),
    ("matchers", .array (Matcher.all.map fun m => .string m.name))]

end Roster

end DaemonBridge
