import DaemonBridge.Mode.Error
import DaemonBridge.Json.Shape

/-!
# Status snapshots

The daemon's answer to a status request: the platform, and what it knows of its server and
client services, either of which may be missing. Every field has a default, and the client's
`otp_needed` is also accepted under the misspelling `otp_nededed`.

The mode a snapshot shows (`StatusSnapshot.activeMode`) is the running service, the server
first; when neither runs, the only service described, if just one is.
-/

namespace DaemonBridge

open Json

/-- What the daemon reports of its server service. -/
structure ServerInfo where
  running : Bool := false
  startTime : Option Value := none
  deriving DecidableEq, Repr

/-- What the daemon reports of its client service. -/
structure ClientInfo where
  running : Bool := false
  connected : Bool := false
  otpNeeded : Bool := false
  serviceChoiceNeeded : Bool := false
  availableServers : List Value := []
  startTime : Option Value := none
  deriving DecidableEq, Repr

/-- The daemon's answer to a status request. -/
structure StatusSnapshot where
  platform : Option String := none
  serverInfo : Option ServerInfo := none
  clientInfo : Option ClientInfo := none
  deriving DecidableEq, Repr

/-- A flag in canonical form. -/
def Json.Value.flag : Value → Bool
  | .bool b => b
  | _ => false

namespace ServerInfo

/-- The shape of the server's report. -/
def shape : Shape :=
  .record "ServerInfo"
    [ .withDefault "running" .bool (.bool false), .withDefault "start_time" (.option .any) .null ]

/-- The server's report a canonical record holds. -/
def ofCanonical (v : Value) : ServerInfo :=
  let field (k : String) : Value := (v.get? k).getD .null
  { running := (field "running").flag, startTime := (field "start_time").toOption }

/-- The server's report as a JSON object. -/
def toValue (s : ServerInfo) : Value :=
  .object [("running", .bool s.running), ("start_time", s.startTime.getD .null)]

end ServerInfo

namespace ClientInfo

/-- The shape of the client's report. -/
def shape : Shape :=
  .record "ClientInfo"
    [ .withDefault "running" .bool (.bool false), .withDefault "connected" .bool (.bool false),
      .mk "otp_needed" ["otp_nededed"] .bool (some (.bool false)),
      .withDefault "service_choice_needed" .bool (.bool false),
      .withDefault "available_servers" (.list .any) (.array []),
      .withDefault "start_time" (.option .any) .null ]

/-- The client's report a canonical record holds. -/
def ofCanonical (v : Value) : ClientInfo :=
  let field (k : String) : Value := (v.get? k).getD .null
  { running := (field "running").flag, connected := (field "connected").flag
    otpNeeded := (field "otp_needed").flag
    serviceChoiceNeeded := (field "service_choice_needed").flag
    availableServers := match field "available_servers" with
      | .array items => items
      | _ => []
    startTime := (field "start_time").toOption }

/-- The client's report as a JSON object. -/
def toValue (c : ClientInfo) : Value :=
  .object [("running", .bool c.running), ("connected", .bool c.connected),
    ("otp_needed", .bool c.otpNeeded), ("service_choice_needed", .bool c.serviceChoiceNeeded),
    ("available_servers", .array c.availableServers), ("start_time", c.startTime.getD .null)]

end ClientInfo

namespace StatusSnapshot

/-- The shape of a status answer. -/
def shape : Shape :=
  .record "StatusSnapshot"
    [ .withDefault "platform" (.option .string) .null,
      .withDefault "server_info" (.option ServerInfo.shape) .null,
      .withDefault "client_info" (.option ClientInfo.shape) .null ]

/-- The snapshot a canonical record holds. -/
def ofCanonical (v : Value) : StatusSnapshot :=
  let field (k : String) : Value := (v.get? k).getD .null
  { platform := (field "platform").toOptionString
    serverInfo := (field "server_info").toOption.map ServerInfo.ofCanonical
    clientInfo := (field "client_info").toOption.map ClientInfo.ofCanonical }

/-- The snapshot a status answer holds. -/
def ofValue (v : Value) : Except ModeError StatusSnapshot :=
  match shape.decode v with
  | .ok c => .ok (ofCanonical c)
  | .error f => .error (.status ("Malformed status result: " ++ f.message))

/-- The mode the snapshot shows: the running service, the server first; when neither runs, the
only service described, if just one is. -/
def activeMode (s : StatusSnapshot) : Option ServiceMode :=
  let serverRunning := (s.serverInfo.map (·.running)).getD false
  let clientRunning := (s.clientInfo.map (·.running)).getD false
  if serverRunning then some .server
  else if clientRunning then some .client
  else match s.serverInfo, s.clientInfo with
    | some _, none => some .server
    | none, some _ => some .client
    | _, _ => none

/-- The snapshot as JSON members, with the mode it shows. -/
def fields (s : StatusSnapshot) : List (String × Value) :=
  [("platform", (s.platform.elim .null Value.string)),
    ("server_info", (s.serverInfo.elim .null ServerInfo.toValue)),
    ("client_info", (s.clientInfo.elim .null ClientInfo.toValue)),
    ("active_mode", (s.activeMode.elim .null fun m => .string m.name))]

end StatusSnapshot

end DaemonBridge
