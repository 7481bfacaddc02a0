import DaemonBridge.Text.Utf8

/-!
# Frames

On the daemon's socket a frame is the UTF-8 bytes of one line of text, then the number of those
bytes as four bytes, most significant first, then a newline. The length lets a reader tell a
whole frame from a torn or interleaved one. Since the length is binary it may itself hold a
newline byte, so a newline ends a frame only when the four bytes before it spell the number of
bytes before them (`closesAt`).

This module holds what a reader hands out (`Frame`), why bytes were passed over (`DropReason`),
and the writer (`Frame.encode`), which refuses a text longer than the limit or one holding a
newline.
-/

namespace DaemonBridge

/-- The byte that ends every frame. -/
def newline : UInt8 := 0x0A

/-- How many bytes the length of a frame takes. -/
def suffixLength : Nat := 4

/-- The largest text a frame holds unless told otherwise: one mebibyte. -/
def defaultFrameLimit : Nat := 1024 * 1024

/-- Why a reader passed bytes over. -/
inductive DropReason where
  /-- The bytes before the length are longer than the limit, or no frame ended within it. -/
  | oversized (limit : Nat)
  /-- The text of a well-formed frame is not UTF-8. -/
  | notUtf8 (error : Utf8Error)
  /-- A newline that no length before it accounts for. -/
  | badSuffix
  deriving DecidableEq, Repr

/-- The wording of a drop. -/
def DropReason.message : DropReason → String
  | .oversized limit => "frame exceeded " ++ Nat.repr limit ++ " bytes"
  | .notUtf8 e => "frame is not UTF-8: " ++ e.message
  | .badSuffix => "length suffix does not match frame"

/-- What a reader hands out: a line of text, or word of bytes it passed over. -/
inductive Frame where
  | text (line : String)
  | dropped (reason : DropReason)
  deriving DecidableEq, Repr

/-- Why a text cannot be written as a frame. -/
inductive FrameError where
  /-- The text has `size` bytes, more than the limit. -/
  | tooLong (size limit : Nat)
  | containsNewline
  /-- The text has `2 ^ 32` bytes or more, which four bytes cannot count. -/
  | lengthTooWide
  deriving DecidableEq, Repr

/-- The wording of a refused frame. -/
def FrameError.message : FrameError → String
  | .tooLong size limit =>
    "frame of " ++ Nat.repr size ++ " bytes exceeds " ++ Nat.repr limit ++ " bytes"
  | .containsNewline => "frame text contains a newline"
  | .lengthTooWide => "frame length does not fit in 32 bits"

/-- Whether the newline at index `i` ends a frame that starts at index 0: the four bytes before
it spell the number of bytes before them. -/
def closesAt (buf : Bytes) (i : Nat) : Bool :=
  buf[i]? == some newline && suffixLength ≤ i &&
    Bytes.ofBigEndian ((buf.drop (i - suffixLength)).take suffixLength) == i - suffixLength

namespace Frame

/-- The bytes of a text with its length and newline after them. -/
def wrap (bytes : Bytes) : Bytes := bytes ++ Bytes.toBigEndian bytes.length ++ [newline]

/-- A text as one frame, if it has at most `limit` bytes and no newline. The length is checked
first. -/
def encode (limit : Nat) (text : String) : Except FrameError Bytes :=
  let bytes := Utf8.encode text
  if limit < bytes.length then .error (.tooLong bytes.length limit)
  else if bytes.contains newline then .error .containsNewline
  else if Nat.pow 2 32 ≤ bytes.length then .error .lengthTooWide
  else .ok (wrap bytes)

/-- Texts written one after another into one buffer: for each, the buffer's length after it or
why it was refused (a refused text adds nothing), and the buffer. -/
def encodeAll (limit : Nat) (texts : List String) : List (Except FrameError Nat) × Bytes :=
  texts.foldl (fun (outcomes, buf) text =>
    match encode limit text with
    | .ok bytes => (outcomes ++ [.ok (buf.length + bytes.length)], buf ++ bytes)
    | .error e => (outcomes ++ [.error e], buf)) ([], [])

end Frame

end DaemonBridge
