import DaemonBridge.Envelope

/-!
# Envelopes as records

An envelope described as a JSON object: its fields, what is derived from them (the result, the
error text, whether it answers a command) and the line it is written as.
-/

namespace DaemonBridge

open Json

namespace Envelope

/-- An optional text as JSON. -/
def textOrNull : Option String → Value
  | some s => .string s
  | none => .null

/-- The envelope's fields and derived facts, in a fixed order; the payload and result appear
only when present. -/
def viewFields (e : Envelope) : List (String × Value) :=
  [("kind", .string e.kind.wireName),
   ("command", textOrNull (e.command.map (·.wireName)))] ++
  (match e.payload with | some p => [("payload", p)] | none => []) ++
  [("message", textOrNull e.message), ("source", .string e.source),
   ("timestamp", .string e.timestamp)] ++
  (match e.result? with | some r => [("result", r)] | none => []) ++
  [("error_message", textOrNull e.errorMessage?),
   ("is_command_result", .bool e.kind.isCommandResult),
   ("wire", .string e.render)]

/-- The envelope as a JSON object. -/
def view (e : Envelope) : Value := .object e.viewFields

end Envelope

end DaemonBridge
