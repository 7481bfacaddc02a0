import DaemonBridge.ServiceMode
import DaemonBridge.Json.Shape.Read
import DaemonBridge.Json.Write
import DaemonBridge.Text.Utf8
import DaemonBridge.Net.IpAddress
import DaemonBridge.Time.Duration
import DaemonBridge.Transport.Frame

/-!
# Bridge configuration

The configuration is a JSON file, `bridge.json`, in the configuration directory: how to reach
the daemon (`LinkConfig`), how long to wait for a command's result (`CommandConfig`), and the
mode to show before the daemon has reported one. Every field may be left out and then takes its
default; a missing file gives the defaults altogether.

A configuration is valid when, checked in this order:

1. its version is 1;
2. the daemon's host is loopback: `localhost`, or an IP address of this machine;
3. the port is not 0;
4. neither the connection deadline nor the command timeout is 0;
5. the frame limit is not 0.

A file that exists but cannot be read, parsed or validated is an error, never replaced by the
defaults.
-/

namespace DaemonBridge

open Json

/-- How to reach the daemon. -/
structure LinkConfig where
  host : String := "127.0.0.1"
  /-- A port, below `2 ^ 16`. -/
  port : Nat := 55652
  connectInitialDelayMs : Nat := 100
  connectMaxElapsedSecs : Nat := 10
  /-- The largest frame text, in bytes. -/
  maxFrameLength : Nat := defaultFrameLimit
  deriving DecidableEq, Repr

/-- How commands are waited for. -/
structure CommandConfig where
  timeoutSecs : Nat := 5
  deriving DecidableEq, Repr

/-- The bridge's configuration. -/
structure BridgeConfig where
  version : Nat := 1
  link : LinkConfig := {}
  commands : CommandConfig := {}
  /-- The mode shown before the daemon has reported its status. -/
  preferredMode : Option ServiceMode := none
  deriving DecidableEq, Repr

namespace LinkConfig

/-- The host and port, as `host:port`. -/
def address (c : LinkConfig) : String := c.host ++ ":" ++ Nat.repr c.port

/-- The delay before the first retry of a connection. -/
def connectInitialDelay (c : LinkConfig) : Duration := .ofMillis c.connectInitialDelayMs

/-- How long connecting may take in all. -/
def connectMaxElapsed (c : LinkConfig) : Duration := .ofSecs c.connectMaxElapsedSecs

/-- The link settings as a record, fields in declared order. -/
def toValue (c : LinkConfig) : Value :=
  .object [("host", .string c.host), ("port", .nat c.port),
    ("connect_initial_delay_ms", .nat c.connectInitialDelayMs),
    ("connect_max_elapsed_secs", .nat c.connectMaxElapsedSecs),
    ("max_frame_length", .nat c.maxFrameLength)]

/-- The shape of the link settings; a missing field takes its default. -/
def shape : Shape :=
  let d : LinkConfig := {}
  .record "LinkConfig"
    [ .withDefault "host" .string (.string d.host),
      .withDefault "port" (.unsigned "u16" (Nat.pow 2 16 - 1)) (.nat d.port),
      .withDefault "connect_initial_delay_ms" (.unsigned "u64" maxWord) (.nat d.connectInitialDelayMs),
      .withDefault "connect_max_elapsed_secs" (.unsigned "u64" maxWord) (.nat d.connectMaxElapsedSecs),
      .withDefault "max_frame_length" (.unsigned "usize" maxWord) (.nat d.maxFrameLength) ]

/-- The link settings a canonical record holds. -/
def ofCanonical (v : Value) : LinkConfig :=
  let d : LinkConfig := {}
  let field (k : String) : Value := (v.get? k).getD .null
  { host := (field "host").stringOr d.host
    port := Value.natOr d.port (field "port")
    connectInitialDelayMs := Value.natOr d.connectInitialDelayMs (field "connect_initial_delay_ms")
    connectMaxElapsedSecs := Value.natOr d.connectMaxElapsedSecs (field "connect_max_elapsed_secs")
    maxFrameLength := Value.natOr d.maxFrameLength (field "max_frame_length") }

end LinkConfig

namespace CommandConfig

/-- How long a command's result is waited for. -/
def timeout (c : CommandConfig) : Duration := .ofSecs c.timeoutSecs

/-- The command settings as a record. -/
def toValue (c : CommandConfig) : Value := .object [("timeout_secs", .nat c.timeoutSecs)]

/-- The shape of the command settings. -/
def shape : Shape :=
  .record "CommandConfig"
    [ .withDefault "timeout_secs" (.unsigned "u64" maxWord) (.nat ({} : CommandConfig).timeoutSecs) ]

/-- The command settings a canonical record holds. -/
def ofCanonical (v : Value) : CommandConfig :=
  { timeoutSecs := Value.natOr ({} : CommandConfig).timeoutSecs ((v.get? "timeout_secs").getD .null) }

end CommandConfig

/-- Why a configuration is not valid. -/
inductive ConfigFault where
  | badVersion (version : Nat)
  | notLoopback (host : String)
  | zeroPort
  | zeroTimeout
  | zeroFrameLength
  deriving DecidableEq, Repr

/-- The wording of an invalid configuration. -/
def ConfigFault.message : ConfigFault → String
  | .badVersion v => "Invalid version: " ++ Nat.repr v ++ " (expected 1-1)"
  | .notLoopback host => "Daemon host must be loopback, got '" ++ host ++ "'"
  | .zeroPort => "Daemon port cannot be 0"
  | .zeroTimeout => "Timeouts must be at least 1 second"
  | .zeroFrameLength => "max_frame_length cannot be 0"

/-- Why the configuration could not be loaded or saved. -/
inductive ConfigError where
  /-- The file at `path` exists but is not text. -/
  | readError (path reason : String)
  /-- The file at `path` is not a configuration document. -/
  | parseError (path reason : String)
  | validationError (fault : ConfigFault)
  deriving DecidableEq, Repr

namespace ConfigError

/-- The wording of a configuration error. -/
def message : ConfigError → String
  | .readError path reason => "Config Read Error: " ++ path ++ ": " ++ reason
  | .parseError path reason => "Config Parse Error: " ++ path ++ ": " ++ reason
  | .validationError f => "Config Validation Error: " ++ f.message

/-- The name of the error's kind. -/
def kindName : ConfigError → String
  | .readError _ _ => "ReadError"
  | .parseError _ _ => "ParseError"
  | .validationError _ => "ValidationError"

end ConfigError

namespace BridgeConfig

/-- The only version there is. -/
def currentVersion : Nat := 1

/-- The name of the configuration file. -/
def fileName : String := "bridge.json"

/-- The configuration as a record, fields in declared order. -/
def toValue (c : BridgeConfig) : Value :=
  .object [("version", .nat c.version), ("link", c.link.toValue),
    ("commands", c.commands.toValue),
    ("preferred_mode", (c.preferredMode.elim .null fun m => .string m.name))]

/-- The shape of a configuration document. -/
def shape : Shape :=
  let d : BridgeConfig := {}
  .record "BridgeConfig"
    [ .withDefault "version" (.unsigned "u32" (Nat.pow 2 32 - 1)) (.nat d.version),
      .withDefault "link" LinkConfig.shape d.link.toValue,
      .withDefault "commands" CommandConfig.shape d.commands.toValue,
      .withDefault "preferred_mode" (.option ServiceMode.shape) .null ]

/-- The configuration a canonical record holds. -/
def ofCanonical (v : Value) : BridgeConfig :=
  let field (k : String) : Value := (v.get? k).getD .null
  { version := Value.natOr currentVersion (field "version")
    link := LinkConfig.ofCanonical (field "link")
    commands := CommandConfig.ofCanonical (field "commands")
    preferredMode := match field "preferred_mode" with
      | .string s => ServiceMode.ofName? s
      | _ => none }

/-- A configuration from a document that is already read. -/
def decode (v : Value) : Except Fault BridgeConfig := ofCanonical <$> shape.decode v

/-- A configuration from the text of a document. -/
def parse (text : String) : Except ReadError BridgeConfig := ofCanonical <$> shape.readText text

/-- Whether a host names this machine. -/
def isLoopbackHost (host : String) : Bool :=
  host == "localhost" || ((IpAddress.parse? host).map IpAddress.isLoopback).getD false

/-- The first rule a configuration breaks, if any. -/
def validate (c : BridgeConfig) : Except ConfigFault Unit :=
  if c.version == 0 || currentVersion < c.version then .error (.badVersion c.version)
  else if !isLoopbackHost c.link.host then .error (.notLoopback c.link.host)
  else if c.link.port == 0 then .error .zeroPort
  else if c.link.connectMaxElapsedSecs == 0 || c.commands.timeoutSecs == 0 then .error .zeroTimeout
  else if c.link.maxFrameLength == 0 then .error .zeroFrameLength
  else .ok ()

/-- The configuration in the directory `dir`, whose file holds `contents` if there is one. -/
def load (dir : String) (contents : Option Bytes) : Except ConfigError BridgeConfig :=
  match contents with
  | none => .ok {}
  | some bytes =>
    let path := dir ++ "/" ++ fileName
    match Utf8.decode bytes with
    | .error _ => .error (.readError path "stream did not contain valid UTF-8")
    | .ok text =>
      match parse text with
      | .error e => .error (.parseError path e.message)
      | .ok c =>
        match c.validate with
        | .error f => .error (.validationError f)
        | .ok () => .ok c

/-- The text a valid configuration is saved as: its record, indented by two spaces. -/
def save (c : BridgeConfig) : Except ConfigError String :=
  match c.validate with
  | .error f => .error (.validationError f)
  | .ok () => .ok c.toValue.pretty

end BridgeConfig

end DaemonBridge
