import DaemonBridge.Bytes

/-!
# UTF-8

`Utf8.encode` writes a text as its UTF-8 bytes and `Utf8.decode` reads bytes back as a text,
refusing bytes that are not well formed. Well formed is the table of the Unicode standard: a
sequence has one to four bytes, the first of them says how many, and the second is held to a
narrower range after `E0` (no overlong form), `ED` (no surrogate), `F0` (no overlong form) and
`F4` (nothing above `U+10FFFF`).

A refusal (`Utf8Error`) says how many bytes were well formed before the bad sequence and how
long the bad sequence is: the bytes up to and including the first byte that does not fit. When
the bytes end inside a sequence, the sequence has no length yet, and the refusal says so.
-/

namespace DaemonBridge

namespace Utf8

/-- The UTF-8 bytes of one character. -/
def encodeChar (c : Char) : Bytes :=
  let n := c.toNat
  if n < 0x80 then [n.toUInt8]
  else if n < 0x800 then [(0xC0 + n / 64).toUInt8, (0x80 + n % 64).toUInt8]
  else if n < 0x10000 then
    [(0xE0 + n / 4096).toUInt8, (0x80 + n / 64 % 64).toUInt8, (0x80 + n % 64).toUInt8]
  else
    [(0xF0 + n / 262144).toUInt8, (0x80 + n / 4096 % 64).toUInt8, (0x80 + n / 64 % 64).toUInt8,
      (0x80 + n % 64).toUInt8]

/-- The UTF-8 bytes of a text. -/
def encode (s : String) : Bytes := s.toList.flatMap encodeChar

/-- The bytes of a continuation: `80` to `BF`. -/
def continuation : UInt8 × UInt8 := (0x80, 0xBF)

/-- The ranges the bytes after a leading byte must lie in, one range per byte; none when the
byte starts no sequence (a continuation byte, `C0`, `C1`, or `F5` and above). -/
def trailRanges (b : UInt8) : Option (List (UInt8 × UInt8)) :=
  if b < 0x80 then some []
  else if b < 0xC2 then none
  else if b < 0xE0 then some [continuation]
  else if b = 0xE0 then some [(0xA0, 0xBF), continuation]
  else if b = 0xED then some [(0x80, 0x9F), continuation]
  else if b < 0xF0 then some [continuation, continuation]
  else if b = 0xF0 then some [(0x90, 0xBF), continuation, continuation]
  else if b < 0xF4 then some [continuation, continuation, continuation]
  else if b = 0xF4 then some [(0x80, 0x8F), continuation, continuation]
  else none

/-- The bits of the code point that a leading byte carries, when `count` bytes follow it. -/
def leadBits (b : UInt8) (count : Nat) : Nat :=
  if count = 0 then b.toNat else b.toNat % Nat.pow 2 (6 - count)

/-- Read the bytes after a leading byte against their ranges, shifting six bits of each into
`point`; `read` counts the bytes of the sequence read so far. Fails with the length of the bad
sequence when a byte is out of its range, or with none when the bytes end first. -/
def trail (point read : Nat) : List (UInt8 × UInt8) → Bytes → Except (Option Nat) Nat
  | [], _ => .ok point
  | _ :: _, [] => .error none
  | (lo, hi) :: ranges, c :: rest =>
    if lo ≤ c ∧ c ≤ hi then trail (point * 64 + c.toNat % 64) (read + 1) ranges rest
    else .error (some read)

end Utf8

/-- Why bytes are not UTF-8. -/
structure Utf8Error where
  /-- How many bytes at the start are well formed. -/
  validUpTo : Nat
  /-- How many bytes form the bad sequence; none when the bytes end inside a sequence. -/
  errorLength : Option Nat
  deriving DecidableEq, Repr

/-- The wording of a refusal. -/
def Utf8Error.message : Utf8Error → String
  | ⟨at_, some n⟩ =>
    "invalid utf-8 sequence of " ++ Nat.repr n ++ " bytes from index " ++ Nat.repr at_
  | ⟨at_, none⟩ => "incomplete utf-8 byte sequence from index " ++ Nat.repr at_

namespace Utf8

/-- The characters of bytes that start at index `i` of the whole input. -/
def decodeAt (i : Nat) (bytes : Bytes) : Except Utf8Error (List Char) :=
  match bytes with
  | [] => .ok []
  | b :: rest =>
    match trailRanges b with
    | none => .error ⟨i, some 1⟩
    | some ranges =>
      match trail (leadBits b ranges.length) 1 ranges rest with
      | .error len => .error ⟨i, len⟩
      | .ok point =>
        (Char.ofNat point :: ·) <$> decodeAt (i + 1 + ranges.length) (rest.drop ranges.length)
termination_by bytes.length
decreasing_by simp only [List.length_drop, List.length_cons]; omega

/-- The text that bytes spell, if they are UTF-8. -/
def decode (bytes : Bytes) : Except Utf8Error String :=
  String.ofList <$> decodeAt 0 bytes

/-- The refusal of bytes that are not UTF-8; none for UTF-8. -/
def refusal? (bytes : Bytes) : Option Utf8Error :=
  match decodeAt 0 bytes with
  | .ok _ => none
  | .error e => some e

example : (decode [0x61, 0xC3, 0xA9]).toOption = some "aé" := by decide +kernel
example : refusal? [0xFF, 0xFE] = some ⟨0, some 1⟩ := by decide +kernel
example : refusal? [0x61, 0x62, 0xE2, 0x82] = some ⟨2, none⟩ := by decide +kernel
example : refusal? [0xED, 0xA0, 0x80] = some ⟨0, some 1⟩ := by decide +kernel
example : refusal? [0xF0, 0x9F, 0x98, 0x41] = some ⟨0, some 3⟩ := by decide +kernel
example : encode "é😀" = [0xC3, 0xA9, 0xF0, 0x9F, 0x98, 0x80] := by decide +kernel

end Utf8

end DaemonBridge
