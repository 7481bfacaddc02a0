import DaemonBridge.Transport.Error

/-!
# Reading frames

A `FrameDecoder` holds the bytes read from the socket that are not yet a frame. `next` takes
the first frame off the front of the buffer, if one is there:

* a newline that `closesAt` accepts ends a frame. Its text is handed out, or dropped when it is
  longer than the limit or not UTF-8;
* a newline that a frame's end within the next four bytes may yet explain (it stands inside a
  length) is passed over;
* another newline with four bytes after it ends a corrupt line, which is dropped up to and
  including that newline;
* a newline too close to the end of the buffer to tell waits for more bytes.

When no frame ends and the buffer already holds more than a whole frame of the largest size,
the buffer is emptied and the reader passes over everything up to the next newline, which it
then reports as an oversized drop. That size, `limit + suffixLength + 1`, is worked out in a
machine word each time no frame ends: for the five largest limits it does not fit, and the
reader stops dead (`Trap`) rather than hand anything out. Every step of the reader, and every
loop over its steps, returns either what it read or that trap.

The search for a frame's end resumes where the last one stopped, so bytes are looked at once.
`resume` is where that is: before it there is no newline that ends a frame or a corrupt line.
-/

namespace DaemonBridge

/-- Where the search of a buffer for a frame's end stopped. -/
inductive Boundary where
  /-- A frame ends at the newline at this index. -/
  | complete (index : Nat)
  /-- A corrupt line ends at the newline at this index. -/
  | corrupt (index : Nat)
  /-- No frame ends yet; the next search may start at this index. -/
  | incomplete (resume : Nat)
  deriving DecidableEq, Repr

namespace Boundary

/-- Whether a frame ends within the four bytes after the newline at `i`, so that the newline at
`i` may stand inside that frame's length. -/
def endsSoonAfter (buf : Bytes) (i : Nat) : Bool :=
  (List.range (min (i + suffixLength) (buf.length - 1) - i)).any fun k => closesAt buf (i + 1 + k)

/-- The search from index `i`, where `rest` is the buffer from `i` on. -/
def searchFrom (buf : Bytes) (i : Nat) : Bytes → Boundary
  | [] => .incomplete i
  | b :: rest =>
    if b != newline then searchFrom buf (i + 1) rest
    else if closesAt buf i then .complete i
    else if endsSoonAfter buf i then searchFrom buf (i + 1) rest
    else if buf.length ≤ i + suffixLength then .incomplete i
    else .corrupt i

/-- The search of a buffer for a frame's end, from index `start`. -/
def search (buf : Bytes) (start : Nat) : Boundary := searchFrom buf start (buf.drop start)

end Boundary

/-- Why a reader stops dead. -/
inductive Trap where
  /-- The size past which the buffer is given up, `limit + suffixLength + 1`, is above
  `maxWord`. -/
  | boundOverflow
  deriving DecidableEq, Repr

/-- The size past which a reader with `limit` gives up a buffer in which no frame ends, worked
out in a machine word. -/
def oversizeBound (limit : Nat) : Except Trap Nat :=
  if limit + suffixLength + 1 ≤ maxWord then .ok (limit + suffixLength + 1) else .error .boundOverflow

theorem oversizeBound_of_le {limit : Nat} (h : limit + suffixLength + 1 ≤ maxWord) :
    oversizeBound limit = .ok (limit + suffixLength + 1) := by
  rw [oversizeBound, if_pos h]

theorem oversizeBound_of_lt {limit : Nat} (h : maxWord < limit + suffixLength + 1) :
    oversizeBound limit = .error .boundOverflow := by
  rw [oversizeBound, if_neg (Nat.not_le.mpr h)]

/-- A frame reader's buffer and state between reads. -/
structure FrameDecoder where
  /-- The largest text a frame may hold. -/
  limit : Nat
  /-- Bytes read and not yet handed out. -/
  buffer : Bytes := []
  /-- Where the search for a frame's end resumes. -/
  resume : Nat := 0
  /-- Passing over bytes up to the next newline. -/
  discarding : Bool := false
  deriving DecidableEq, Repr

namespace FrameDecoder

/-- A fresh reader with the given limit. -/
def new (limit : Nat) : FrameDecoder := { limit }

/-- Bytes read from the socket, added to the buffer. -/
def push (d : FrameDecoder) (chunk : Bytes) : FrameDecoder := { d with buffer := d.buffer ++ chunk }

/-- The frame whose bytes before the length are `text`. -/
def frameOf (limit : Nat) (text : Bytes) : Frame :=
  if limit < text.length then .dropped (.oversized limit)
  else match Utf8.decode text with
    | .ok s => .text s
    | .error e => .dropped (.notUtf8 e)

/-- Take the first frame off the buffer, if there is one. -/
def next (d : FrameDecoder) : Except Trap (Option Frame × FrameDecoder) :=
  if d.discarding then
    match d.buffer.findIdx? (· == newline) with
    | some i =>
      .ok (some (.dropped (.oversized d.limit)),
        { d with buffer := d.buffer.drop (i + 1), discarding := false })
    | none => .ok (none, { d with buffer := [] })
  else
    match Boundary.search d.buffer (min d.resume d.buffer.length) with
    | .complete i =>
      .ok (some (frameOf d.limit (d.buffer.take (i - suffixLength))),
        { d with buffer := d.buffer.drop (i + 1), resume := 0 })
    | .corrupt i =>
      .ok (some (.dropped .badSuffix), { d with buffer := d.buffer.drop (i + 1), resume := 0 })
    | .incomplete r =>
      match oversizeBound d.limit with
      | .error t => .error t
      | .ok bound =>
        if bound < d.buffer.length then
          .ok (none, { d with buffer := [], resume := 0, discarding := true })
        else .ok (none, { d with resume := r })

/-- Take frames off the buffer until none is left; `fuel` bounds their number. -/
def drainFor : Nat → FrameDecoder → Except Trap (List Frame × FrameDecoder)
  | 0, d => .ok ([], d)
  | fuel + 1, d =>
    match d.next with
    | .error t => .error t
    | .ok (none, d') => .ok ([], d')
    | .ok (some f, d') =>
      match drainFor fuel d' with
      | .error t => .error t
      | .ok (fs, d'') => .ok (f :: fs, d'')

/-- Take frames off the buffer until none is left. Each frame takes at least one byte off, so
one more step than there are bytes is enough. -/
def drain (d : FrameDecoder) : Except Trap (List Frame × FrameDecoder) :=
  drainFor (d.buffer.length + 1) d

/-- The last frame at the end of the stream: like `next`, but bytes that make no frame are an
error. -/
def nextAtEnd (d : FrameDecoder) :
    Except Trap (Except TransportError (Option Frame) × FrameDecoder) :=
  match d.next with
  | .error t => .error t
  | .ok (some f, d') => .ok (.ok (some f), d')
  | .ok (none, d') => .ok (if d'.buffer.isEmpty then .ok none else .error .bytesRemaining, d')

/-- Take the frames left at the end of the stream, until none is left or bytes remain that make
no frame; `fuel` bounds their number. -/
def finishFor : Nat → FrameDecoder →
    Except Trap (List Frame × Option TransportError × FrameDecoder)
  | 0, d => .ok ([], none, d)
  | fuel + 1, d =>
    match d.nextAtEnd with
    | .error t => .error t
    | .ok (.ok none, d') => .ok ([], none, d')
    | .ok (.error e, d') => .ok ([], some e, d')
    | .ok (.ok (some f), d') =>
      match finishFor fuel d' with
      | .error t => .error t
      | .ok (fs, e, d'') => .ok (f :: fs, e, d'')

/-- The frames left at the end of the stream, and the error if bytes remain. -/
def finish (d : FrameDecoder) : Except Trap (List Frame × Option TransportError × FrameDecoder) :=
  finishFor (d.buffer.length + 1) d

/-- Chunks read one after another, the buffer drained after each: the frames of each chunk with
the number of bytes still buffered after them. -/
def feed (d : FrameDecoder) : List Bytes → Except Trap (List (List Frame × Nat) × FrameDecoder)
  | [] => .ok ([], d)
  | chunk :: rest =>
    match (d.push chunk).drain with
    | .error t => .error t
    | .ok (frames, d') =>
      match d'.feed rest with
      | .error t => .error t
      | .ok (steps, d'') => .ok ((frames, d'.buffer.length) :: steps, d'')

end FrameDecoder

end DaemonBridge
