import DaemonBridge.Kind
import DaemonBridge.Wire

/-!
# Envelopes

An `Envelope` is a notification once it has been checked: its kind is known, and the command it
answers has been lifted out of the wire `data` object, the rest of which is its payload (none when
nothing else was sent). A command result always names a known command and carries a payload or a
message.

`Envelope.parse` reads a line into an envelope and `Envelope.toWire` writes one back: the command
goes back into the payload object, a payload that is not an object is put under `result`, and a
command with no payload becomes `{"command": …}`.
-/

namespace DaemonBridge

open Json

/-- A checked notification. -/
structure Envelope where
  kind : EventKind
  command : Option CommandKind
  payload : Option Value
  message : Option String
  source : String
  timestamp : String
  deriving DecidableEq, Repr, Inhabited

/-- Why a command result is malformed. -/
inductive ResultFault where
  | missingCommand
  /-- The command is named, but by a name no command has. -/
  | unknownCommand (name : String)
  | noPayloadOrMessage
  deriving DecidableEq, Repr

/-- The wording of a malformed result. -/
def ResultFault.message : ResultFault → String
  | .missingCommand => "missing command"
  | .unknownCommand name => "unknown command '" ++ name ++ "'"
  | .noPayloadOrMessage => "neither payload nor message present"

/-- Why a line is not a notification. -/
inductive ProtocolError where
  /-- The line is not a notification record. -/
  | json (error : ReadError)
  | unknownEvent (name : String)
  | malformedResult (kind : EventKind) (fault : ResultFault)
  deriving DecidableEq, Repr

/-- The wording of a protocol error. -/
def ProtocolError.message : ProtocolError → String
  | .json e => "Json Error: " ++ e.message
  | .unknownEvent name => "Unknown Event Error: '" ++ name ++ "'"
  | .malformedResult kind f => "Malformed Result Error: " ++ kind.wireName ++ ": " ++ f.message

/-- The name of the error's kind. -/
def ProtocolError.kindName : ProtocolError → String
  | .json _ => "Json"
  | .unknownEvent _ => "UnknownEvent"
  | .malformedResult _ _ => "MalformedResult"

/-- Split the command out of wire data: from an object, its `command` member (a string as it
is, anything else as its JSON text) and the other members, none if there are none; any other data
is all payload. -/
def splitCommand : Option Value → Option String × Option Value
  | some (.object fields) =>
    let name := (Fields.get? fields "command").map fun
      | .string s => s
      | other => other.compact
    let rest := Fields.erase fields "command"
    (name, if rest.isEmpty then none else some (.object rest))
  | other => (none, other)

namespace Envelope

/-- A notification of a kind, with nothing else set. -/
def new (kind : EventKind) : Envelope :=
  ⟨kind, none, none, none, defaultSource, ""⟩

/-- Set the command. -/
def withCommand (e : Envelope) (c : CommandKind) : Envelope := { e with command := some c }

/-- Set the payload. -/
def withPayload (e : Envelope) (p : Value) : Envelope := { e with payload := some p }

/-- Set the message. -/
def withMessage (e : Envelope) (m : String) : Envelope := { e with message := some m }

/-- A success answer as the daemon sends it: the payload holds the result, if there is one. -/
def commandSuccess (c : CommandKind) (message : String) (result : Option Value) : Envelope :=
  let e := (new .commandSuccess).withCommand c |>.withMessage message
  match result with
  | some r => e.withPayload (.object [("result", r)])
  | none => e

/-- An error answer as the daemon sends it. -/
def commandError (c : CommandKind) (error : String) : Envelope :=
  (new .commandError).withCommand c
    |>.withMessage ("Command " ++ c.wireName ++ " failed: " ++ error)
    |>.withPayload (.object [("error", .string error)])

/-- Check a wire notification. -/
def ofWire (w : WireEvent) : Except ProtocolError Envelope := do
  let some kind := EventKind.ofWireName? w.eventType
    | throw (.unknownEvent w.eventType)
  let (name, payload) := splitCommand w.data
  let command := name.bind CommandKind.ofWireName?
  if kind.isCommandResult then
    match name, command with
    | none, _ => throw (.malformedResult kind .missingCommand)
    | some n, none => throw (.malformedResult kind (.unknownCommand n))
    | some _, some _ => pure ()
    if payload.isNone ∧ w.message.isNone then throw (.malformedResult kind .noPayloadOrMessage)
  return ⟨kind, command, payload, w.message, w.source, w.timestamp⟩

/-- Read one notification line in a text format. -/
def parseIn (text : Text) (line : String) : Except ProtocolError Envelope :=
  match WireEvent.parseIn text line with
  | .ok w => ofWire w
  | .error e => .error (.json e)

/-- Read one notification line. -/
def parse (line : String) : Except ProtocolError Envelope := parseIn .standard line

/-- The wire notification for an envelope. -/
def toWire (e : Envelope) : WireEvent :=
  let data := match e.payload, e.command with
    | none, none => none
    | some p, none => some p
    | p, some c =>
      let base := match p with
        | some (.object fields) => fields
        | some other => [("result", other)]
        | none => []
      some (.object (Fields.insert base "command" (.string c.wireName)))
  ⟨e.kind.wireName, data, e.timestamp, e.source, e.message, none⟩

/-- The line an envelope is written as in a text format. -/
def renderIn (text : Text) (e : Envelope) : String := e.toWire.renderIn text

/-- The line an envelope is written as. -/
def render (e : Envelope) : String := e.renderIn .standard

/-- The `result` member of the payload. -/
def result? (e : Envelope) : Option Value := e.payload.bind (·.get? "result")

/-- The service's error text: the payload's `error` string, else the message. -/
def errorMessage? (e : Envelope) : Option String :=
  match e.payload.bind (·.get? "error") with
  | some (.string s) => some s
  | _ => e.message

/-- Envelopes compared field by field, payloads as documents. -/
def same (a b : Envelope) : Bool :=
  a.kind == b.kind && a.command == b.command && a.message == b.message &&
    a.source == b.source && a.timestamp == b.timestamp &&
    match a.payload, b.payload with
    | some x, some y => x.same y
    | none, none => true
    | _, _ => false

end Envelope

end DaemonBridge
