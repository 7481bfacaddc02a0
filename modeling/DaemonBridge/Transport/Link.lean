import DaemonBridge.Transport.Error
import DaemonBridge.Transport.Frame.Decoder
import DaemonBridge.Envelope
import DaemonBridge.Diagnostic

/-!
# The link to the daemon

The link writes each command as one frame, `{"command":…,"params":…}`, and reads the daemon's
notifications as frames until the daemon closes its end. It is modelled here over a socket whose
daemon side writes its bytes and then closes:

* a send on a closed link fails as `Link Closed Error:`; a command whose line does not fit in a
  frame fails as a send error naming the command, and writes nothing;
* every frame the link reads is published when it parses as a notification, and otherwise
  reported as undecodable, as is every frame the reader passed over;
* at the end of the stream the frames still buffered are read, and bytes that make no frame
  end the reading quietly; the link is closed after it.

Shutting the link down first closes it and stops its reader, so nothing the daemon writes is
read. A reader whose limit leaves no room for its oversize bound traps on its first read
(`Trap`), and the link then never closes.
-/

namespace DaemonBridge

open Json

/-- A link: the frame limit it writes and reads with, whether it is closed, and the bytes it has
written to the socket. -/
structure Link where
  limit : Nat
  closed : Bool := false
  written : Bytes := []
  deriving DecidableEq, Repr

namespace Link

/-- A fresh, open link. -/
def new (limit : Nat) : Link := { limit }

/-- Close the link. -/
def shutdown (l : Link) : Link := { l with closed := true }

/-- Send a command: the link with its frame written, or why it was refused. -/
def send (l : Link) (command : String) (params : Option Value) : Except TransportError Link :=
  if l.closed then .error .closed
  else
    match Frame.encode l.limit (WireCommand.mk command params).render with
    | .ok bytes => .ok { l with written := l.written ++ bytes }
    | .error e => .error (TransportError.failedSend command (.frame e))

/-- Send commands one after another: each outcome, and the link after them. -/
def sendAll (l : Link) : List (String × Option Value) → List (Except TransportError Unit) × Link
  | [] => ([], l)
  | (command, params) :: rest =>
    match l.send command params with
    | .ok l' => let (outcomes, l'') := l'.sendAll rest; (.ok () :: outcomes, l'')
    | .error e => let (outcomes, l'') := l.sendAll rest; (.error e :: outcomes, l'')

end Link

/-- What a frame read from the daemon becomes: a notification, or a diagnostic. -/
def Frame.arrival : Frame → Except Diagnostic Envelope
  | .text line =>
    match Envelope.parse line with
    | .ok e => .ok e
    | .error err => .error (.undecodableEvent err.message)
  | .dropped reason => .error (.undecodableEvent reason.message)

/-- The frames a reader with limit `limit` takes from `chunks` and the end of the stream after
them; bytes left that make no frame end the reading. -/
def readToEnd (limit : Nat) (chunks : List Bytes) : Except Trap (List Frame) :=
  match (FrameDecoder.new limit).feed chunks with
  | .error t => .error t
  | .ok (steps, d) =>
    match d.finish with
    | .error t => .error t
    | .ok (last, _, _) => .ok ((steps.map Prod.fst).flatten ++ last)

/-- What a link did over one connection. -/
structure LinkRun where
  /-- The outcome of each send before the daemon wrote. -/
  sends : List (Except TransportError Unit)
  /-- The frames the daemon read. -/
  received : List Frame
  /-- The notifications published, in the order they were read. -/
  events : List Envelope
  diagnostics : List Diagnostic
  closed : Bool
  /-- The outcome of each send after the daemon closed. -/
  after : List (Except TransportError Unit)
  deriving Repr

/-- Run a link with limit `limit`: shut it down first if asked, send `sends`, let the daemon write
`incoming` and close, then send `after`. The daemon reads the link's frames with the default
limit. A reader that traps stops without closing the link, so such a run has no outcome. -/
def runLink (limit : Nat) (shutdownFirst : Bool) (sends : List (String × Option Value))
    (incoming : List Bytes) (after : List (String × Option Value)) : Except Trap LinkRun := do
  let link := if shutdownFirst then (Link.new limit).shutdown else Link.new limit
  let (sent, link) := link.sendAll sends
  let received ← readToEnd defaultFrameLimit [link.written]
  let arrivals ← if shutdownFirst then pure [] else (·.map Frame.arrival) <$> readToEnd limit incoming
  let events := arrivals.filterMap fun | .ok e => some e | .error _ => none
  let diagnostics := arrivals.filterMap fun | .error d => some d | .ok _ => none
  let (late, _) := link.shutdown.sendAll after
  pure { sends := sent, received, events, diagnostics, closed := true, after := late }

end DaemonBridge
