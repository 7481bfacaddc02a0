import DaemonBridge.Json.Shape.Read
import DaemonBridge.Json.Write

/-!
# Wire records

A `WireEvent` is a notification exactly as the daemon writes it on one line, and a `WireCommand`
a command exactly as the daemon reads it. Reading a notification takes the record shape
`WireEvent.shape`: `event_type` is required, `timestamp` defaults to the empty string and
`source` to `daemon`, and the optional members may be `null`. Writing keeps the declared field
order and leaves out absent optional members.

Notifications are written and read through a JSON text format (`Json.Text`): the text a
document is written as, and the reading of a text as a document of a shape. The bridge runs with
`Json.Text.standard`, compact text read with the reader's nesting limit; what holds of every
text format that reads its own text back is proved over the format as a parameter.
-/

namespace DaemonBridge

namespace Json

/-- A JSON text format: the text a document is written as, and the reading of a text as a
document of a shape, which gives the document's canonical form. -/
structure Text where
  write : Value → String
  read : Shape → String → Except ReadError Value

/-- Compact text, read with the reader's nesting limit. -/
def Text.standard : Text := ⟨Value.compact, Shape.readText⟩

end Json

open Json

/-- A notification as written on the wire. -/
structure WireEvent where
  eventType : String
  data : Option Value
  timestamp : String
  source : String
  message : Option String
  metadata : Option Value
  deriving DecidableEq, Repr, Inhabited

/-- A command as written on the wire. -/
structure WireCommand where
  command : String
  params : Option Value
  deriving DecidableEq, Repr, Inhabited

/-- The source of a notification that does not name one. -/
def defaultSource : String := "daemon"

/-- Members for the optional fields that are present. -/
def presentMembers (fields : List (String × Option Value)) : List (String × Value) :=
  fields.filterMap fun (k, v?) => v?.map fun v => (k, v)

namespace WireEvent

/-- The shape a notification line must have. -/
def shape : Shape :=
  .record "WireEvent"
    [ .required "event_type" .string,
      .withDefault "data" (.option .any) .null,
      .withDefault "timestamp" .string (.string ""),
      .withDefault "source" .string (.string defaultSource),
      .withDefault "message" (.option .string) .null,
      .withDefault "metadata" (.option .any) .null ]

/-- The notification a canonical record holds. -/
def ofCanonical (v : Value) : WireEvent :=
  let field (k : String) : Value := (v.get? k).getD .null
  { eventType := (field "event_type").stringOr ""
    data := (field "data").toOption
    timestamp := (field "timestamp").stringOr ""
    source := (field "source").stringOr defaultSource
    message := (field "message").toOptionString
    metadata := (field "metadata").toOption }

/-- The record as written: fields in declared order, absent options left out. -/
def toValue (w : WireEvent) : Value :=
  .object <|
    [("event_type", .string w.eventType)] ++ presentMembers [("data", w.data)] ++
    [("timestamp", .string w.timestamp), ("source", .string w.source)] ++
    presentMembers [("message", w.message.map Value.string), ("metadata", w.metadata)]

/-- The line a notification is written as in a text format. -/
def renderIn (text : Text) (w : WireEvent) : String := text.write w.toValue

/-- The line a notification is written as. -/
def render (w : WireEvent) : String := w.renderIn .standard

/-- Read a notification line in a text format. -/
def parseIn (text : Text) (line : String) : Except ReadError WireEvent :=
  ofCanonical <$> text.read shape line

/-- Read a notification line. -/
def parse (line : String) : Except ReadError WireEvent := parseIn .standard line

end WireEvent

namespace WireCommand

/-- The shape a command line must have. -/
def shape : Shape :=
  .record "WireCommand" [ .required "command" .string, .withDefault "params" (.option .any) .null ]

/-- The command a canonical record holds. -/
def ofCanonical (v : Value) : WireCommand :=
  { command := ((v.get? "command").getD .null).stringOr ""
    params := ((v.get? "params").getD .null).toOption }

/-- The record as written: the command, then its parameters when present. -/
def toValue (c : WireCommand) : Value :=
  .object ([("command", .string c.command)] ++ presentMembers [("params", c.params)])

/-- The line a command is written as. -/
def render (c : WireCommand) : String := c.toValue.compact

/-- Read a command line. -/
def parse (line : String) : Except ReadError WireCommand :=
  ofCanonical <$> shape.readText line

/-- Two commands are the same, parameters compared as documents. -/
def same (a b : WireCommand) : Bool :=
  a.command == b.command &&
    match a.params, b.params with
    | some x, some y => x.same y
    | none, none => true
    | _, _ => false

end WireCommand

end DaemonBridge
