import DaemonBridge.Mode.Snapshot
import DaemonBridge.Mode.State

/-!
# Status reports

What the console shows after a status snapshot was taken in: the mode as the bridge holds it,
and the services as the daemon reported them. A missing client report counts as a client that is
stopped and needs nothing.
-/

namespace DaemonBridge

open Json

/-- What the console shows of a status. -/
structure StatusReport where
  mode : Option ServiceMode
  pending : Bool
  serverRunning : Bool
  clientRunning : Bool
  clientConnected : Bool
  otpNeeded : Bool
  serviceChoiceNeeded : Bool
  availableServers : Nat
  deriving DecidableEq, Repr

namespace StatusReport

/-- The report of a snapshot under a mode state. -/
def new (snapshot : StatusSnapshot) (state : ModeState) : StatusReport :=
  let client := snapshot.clientInfo.getD {}
  { mode := state.stable
    pending := state.active.isPending
    serverRunning := (snapshot.serverInfo.map (·.running)).getD false
    clientRunning := client.running
    clientConnected := client.connected
    otpNeeded := client.otpNeeded
    serviceChoiceNeeded := client.serviceChoiceNeeded
    availableServers := client.availableServers.length }

/-- The report as a JSON object. -/
def toValue (r : StatusReport) : Value :=
  .object [("mode", (r.mode.elim .null fun m => .string m.name)), ("pending", .bool r.pending),
    ("server_running", .bool r.serverRunning), ("client_running", .bool r.clientRunning),
    ("client_connected", .bool r.clientConnected), ("otp_needed", .bool r.otpNeeded),
    ("service_choice_needed", .bool r.serviceChoiceNeeded),
    ("available_servers", .nat r.availableServers)]

/-- `running` or `stopped`. -/
def runningText (flag : Bool) : String := if flag then "running" else "stopped"

/-- The report as lines of text: the mode, the server, the client, and what the client waits
for. -/
def text (r : StatusReport) : String :=
  "mode:    " ++ (r.mode.elim "unknown" ServiceMode.name) ++ "\n" ++
  "server:  " ++ runningText r.serverRunning ++ "\n" ++
  "client:  " ++ runningText r.clientRunning ++ (if r.clientConnected then ", connected" else "") ++
  (if r.otpNeeded then "\nwaiting for OTP" else "") ++
  (if r.serviceChoiceNeeded then
    "\nserver choice needed (" ++ Nat.repr r.availableServers ++ " found)" else "")

end StatusReport

end DaemonBridge
