import DaemonBridge.Json.Shape

/-!
# Service modes

The daemon runs one of two mutually exclusive services. A mode's name is `client` or `server`;
`ServiceMode.parse?` accepts either name in any mix of ASCII letter cases, while documents must
spell it exactly (`ServiceMode.shape`).
-/

namespace DaemonBridge

open Json

/-- One of the two services the daemon can run. -/
inductive ServiceMode where
  | client
  | server
  deriving DecidableEq, Repr, Inhabited

namespace ServiceMode

/-- The mode's name. -/
def name : ServiceMode → String
  | .client => "client"
  | .server => "server"

/-- The other mode. -/
def other : ServiceMode → ServiceMode
  | .client => .server
  | .server => .client

/-- Both modes, in order. -/
def all : List ServiceMode := [.client, .server]

/-- Two texts equal up to the case of ASCII letters. -/
def sameIgnoringAsciiCase (a b : String) : Bool :=
  a.length == b.length && (a.toList.zip b.toList).all fun (x, y) => x.toLower == y.toLower

/-- The mode a text names, ignoring the case of ASCII letters. -/
def parse? (s : String) : Option ServiceMode :=
  all.find? fun m => sameIgnoringAsciiCase s m.name

/-- The mode a name spells exactly. -/
def ofName? (s : String) : Option ServiceMode :=
  all.find? fun m => m.name == s

/-- Modes in documents: exactly one of the two names. -/
def shape : Shape := .choice "ServiceMode" (all.map name)

example : parse? "sErVeR" = some .server ∧ parse? " client" = none ∧ ofName? "Client" = none := by
  decide

end ServiceMode

end DaemonBridge
