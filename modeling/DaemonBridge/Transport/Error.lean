import DaemonBridge.Transport.Frame

/-!
# Transport errors

What can go wrong between the bridge and the daemon: no connection, a send that failed, a read
that failed, a frame that could not be written, a value that could not be serialized, or a link
that is already closed. Each is worded with its kind in front, as `Frame Error: …`.
-/

namespace DaemonBridge

/-- Why the link to the daemon failed. -/
inductive TransportError where
  | connect (message : String)
  | send (message : String)
  | read (message : String)
  | frame (error : FrameError)
  | serialization (message : String)
  | closed
  deriving DecidableEq, Repr

namespace TransportError

/-- The wording of a transport error. -/
def message : TransportError → String
  | .connect m => "Connect Error: " ++ m
  | .send m => "Send Error: " ++ m
  | .read m => "Read Error: " ++ m
  | .frame e => "Frame Error: " ++ e.message
  | .serialization m => "Serialization Error: " ++ m
  | .closed => "Link Closed Error:"

/-- The name of the error's kind. -/
def kindName : TransportError → String
  | .connect _ => "Connect"
  | .send _ => "Send"
  | .read _ => "Read"
  | .frame _ => "Frame"
  | .serialization _ => "Serialization"
  | .closed => "Closed"

/-- A send of `command` that failed for `cause`. -/
def failedSend (command : String) (cause : TransportError) : TransportError :=
  .send ("Failed to send '" ++ command ++ "': " ++ cause.message)

/-- The stream ended with bytes that make no frame. -/
def bytesRemaining : TransportError := .read "bytes remaining on stream"

end TransportError

end DaemonBridge
