import DaemonBridge.Config

/-!
# Configuration reports

A configuration shown as JSON with what follows from it: the daemon's address, the connection
delays and the command timeout as durations, and whether it is the default configuration.
Loading answers that report or the error; saving answers it with the text written and whether
the text loads back to the same configuration.
-/

namespace DaemonBridge

open Json

namespace BridgeConfig

/-- A configuration and what follows from it. -/
def report (c : BridgeConfig) : List (String × Value) :=
  [("config", c.toValue), ("address", .string c.link.address),
    ("connect_initial_delay", .string c.link.connectInitialDelay.render),
    ("connect_max_elapsed", .string c.link.connectMaxElapsed.render),
    ("timeout", .string c.commands.timeout.render), ("is_default", .bool (c == {}))]

/-- A configuration error as a JSON object. -/
def errorValue (e : ConfigError) : Value :=
  .object [("error", .string e.kindName), ("message", .string e.message)]

/-- The answer to loading a configuration from the directory `dir`, whose file holds
`contents` if there is one. -/
def loadReport (dir : String) (contents : Option Bytes) : Value :=
  match load dir contents with
  | .ok c => .object (c.report ++ [("validate", .bool (c.validate matches .ok _))])
  | .error e => errorValue e

/-- The answer to saving the configuration a document holds. -/
def saveReport (v : Value) : Value :=
  match decode v with
  | .error f => .object [("error", .string "Deserialize"), ("message", .string f.message)]
  | .ok c =>
    match c.save with
    | .error e => errorValue e
    | .ok text =>
      let reloaded := match load "" (some (Utf8.encode text)) with
        | .ok c' => c' == c
        | .error _ => false
      .object (c.report ++ [("file", .string text), ("tmp_left", .bool false),
        ("reloaded_equal", .bool reloaded)])

end BridgeConfig

end DaemonBridge
