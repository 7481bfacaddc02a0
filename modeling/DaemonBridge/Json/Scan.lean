import DaemonBridge.Json.Fault

/-!
# Scanning JSON tokens

Reading walks a `Cursor`: the characters not yet read and the byte offset of the first of them.
A `Reader` is a step that may fail; it keeps the cursor where the failure left it, because a
decoder that fails part-way still closes the brackets it opened before the failure is reported.

A failure is a `Fault` with the byte offset it is reported at. Some faults are reported at the
offset reached (`failHere`), others one byte further (`failAhead`, which stops at the end of the
text); a fault found by a decoder rather than by the scanner has no offset yet, and the enclosing
reader puts it where reading stands when it returns (`placed`).

The scanners here read the tokens: blanks, the words `null`, `true` and `false`, strings with
their escapes, and numbers. Numbers keep the kind they are read as: an unsigned integer that fits
64 bits, a negative one that fits 64 signed bits, and otherwise the double nearest to the
significand scaled by its power of ten. `skipValue` passes over a whole document without building
it and without a nesting limit.
-/

namespace DaemonBridge.Json

/-- Where reading stands. -/
structure Cursor where
  rest : List Char
  offset : Nat

/-- A fault and the byte offset it is reported at, once known. -/
abbrev Failure := Fault × Option Nat

/-- A reading step: it may fail, and it moves the cursor either way. -/
abbrev Reader := ExceptT Failure (StateM Cursor)

/-- The result of a scanner over characters: the value, the characters after it and their
offset. -/
abbrev Scanned (α : Type) := Except Failure (α × List Char × Nat)

namespace Scan

/-- The offset one byte ahead of `off`, but not past the end of the text. -/
def ahead (rest : List Char) (off : Nat) : Nat := if rest.isEmpty then off else off + 1

/-- Fail with a syntax fault at an offset. -/
def failAt {α : Type} (f : TextFault) (off : Nat) : Scanned α := .error (.text f, some off)

/-- A decimal digit. -/
def isDigit (c : Char) : Bool := '0' ≤ c && c ≤ '9'

/-- The value of a decimal digit. -/
def digitVal (c : Char) : Nat := c.toNat - '0'.toNat

/-- The value of a hexadecimal digit. -/
def hexVal? (c : Char) : Option Nat :=
  if '0' ≤ c ∧ c ≤ '9' then some (c.toNat - '0'.toNat)
  else if 'a' ≤ c ∧ c ≤ 'f' then some (c.toNat - 'a'.toNat + 10)
  else if 'A' ≤ c ∧ c ≤ 'F' then some (c.toNat - 'A'.toNat + 10)
  else none

/-- Bytes in the UTF-8 form of some characters. -/
def byteLength (cs : List Char) : Nat := cs.foldl (fun n c => n + c.utf8Size) 0

/-- Skip blanks (space, line feed, tab, carriage return). -/
def skipBlank : List Char → Nat → List Char × Nat
  | c :: rest, off =>
    if c = ' ' ∨ c = '\n' ∨ c = '\t' ∨ c = '\r' then skipBlank rest (off + 1) else (c :: rest, off)
  | [], off => ([], off)

/-- Skip decimal digits. -/
def skipDigits : List Char → Nat → List Char × Nat
  | c :: rest, off => if isDigit c then skipDigits rest (off + 1) else (c :: rest, off)
  | [], off => ([], off)

/-- Four hexadecimal digits after `\u`, at offset `off`. With fewer than four bytes left the
string ends early; otherwise the four bytes are taken and must be digits. -/
def hexQuad (rest : List Char) (off : Nat) : Scanned Nat :=
  if byteLength rest < 4 then failAt .eofWhileParsingString (off + byteLength rest) else
  match rest with
  | a :: b :: c :: d :: more =>
    match hexVal? a, hexVal? b, hexVal? c, hexVal? d with
    | some w, some x, some y, some z => .ok (((w * 16 + x) * 16 + y) * 16 + z, more, off + 4)
    | _, _, _, _ => failAt .invalidEscape (off + 4)
  | _ => failAt .invalidEscape (off + 4)

/-- The character of a `\u` escape at offset `off` (just after the `u`): a code point outside
the surrogates, or a leading surrogate followed by `\u` and a trailing one. -/
def unicodeEscape (rest : List Char) (off : Nat) : Scanned Char :=
  match hexQuad rest off with
  | .error f => .error f
  | .ok (n, rest, off) =>
    if 0xDC00 ≤ n ∧ n ≤ 0xDFFF then failAt .loneLeadingSurrogateInHexEscape off
    else if n < 0xD800 ∨ 0xDBFF < n then .ok (Char.ofNat n, rest, off)
    else
      match rest with
      | [] => failAt .eofWhileParsingString off
      | '\\' :: rest =>
        match rest with
        | [] => failAt .eofWhileParsingString (off + 1)
        | 'u' :: rest =>
          match hexQuad rest (off + 2) with
          | .error f => .error f
          | .ok (m, rest, off) =>
            if 0xDC00 ≤ m ∧ m ≤ 0xDFFF then
              .ok (Char.ofNat ((((n - 0xD800) * 0x400) + (m - 0xDC00)) + 0x10000), rest, off)
            else failAt .loneLeadingSurrogateInHexEscape off
        | _ :: _ => failAt .unexpectedEndOfHexEscape (off + 2)
      | _ :: _ => failAt .unexpectedEndOfHexEscape (off + 1)

/-- The character a one-letter escape stands for. -/
def simpleEscape? (c : Char) : Option Char :=
  if c = '"' then some '"'
  else if c = '\\' then some '\\'
  else if c = '/' then some '/'
  else if c = 'b' then some (Char.ofNat 8)
  else if c = 'f' then some (Char.ofNat 12)
  else if c = 'n' then some '\n'
  else if c = 'r' then some '\r'
  else if c = 't' then some '\t'
  else none

/-- The body of a string after its opening quote, up to and including the closing quote. -/
def stringBody (acc : List Char) : List Char → Nat → Scanned String
  | [], off => failAt .eofWhileParsingString off
  | c :: rest, off =>
    if c = '"' then .ok (String.ofList acc.reverse, rest, off + 1)
    else if c = '\\' then
      match rest with
      | [] => failAt .eofWhileParsingString (off + 1)
      | e :: more =>
        match simpleEscape? e with
        | some ch => stringBody (ch :: acc) more (off + 2)
        | none =>
          if e = 'u' then
            match unicodeEscape more (off + 2) with
            | .ok (ch, more', off') =>
              -- the escape took at least four characters
              if more'.length < more.length then stringBody (ch :: acc) more' off'
              else .error (.text .invalidEscape, some off')
            | .error f => .error f
          else failAt .invalidEscape (off + 2)
    else if c.toNat < 32 then failAt .controlCharacterWhileParsingString (off + 1)
    else stringBody (c :: acc) rest (off + c.utf8Size)
termination_by rest => rest.length

/-- Pass over the body of a string without decoding it: escapes are checked for form only. -/
def skipStringBody : List Char → Nat → Scanned Unit
  | [], off => failAt .eofWhileParsingString off
  | c :: rest, off =>
    if c = '"' then .ok ((), rest, off + 1)
    else if c = '\\' then
      match rest with
      | [] => failAt .eofWhileParsingString (off + 1)
      | e :: more =>
        if (simpleEscape? e).isSome then skipStringBody more (off + 2)
        else if e = 'u' then
          match hexQuad more (off + 2) with
          | .ok (_, more', off') =>
            if more'.length < more.length then skipStringBody more' off'
            else .error (.text .invalidEscape, some off')
          | .error f => .error f
        else failAt .invalidEscape (off + 2)
    else if c.toNat < 32 then failAt .controlCharacterWhileParsingString off
    else skipStringBody rest (off + c.utf8Size)
termination_by rest => rest.length

/-! ## Numbers -/

/-- The next digit would take the significand past `2^64 - 1`. -/
def overflows64 (sig d : Nat) : Bool :=
  1844674407370955161 ≤ sig && (1844674407370955161 < sig || 5 < d)

/-- The next digit would take an exponent past `2^31 - 1`. -/
def overflows32 (e d : Nat) : Bool :=
  214748364 ≤ e && (214748364 < e || 7 < d)

/-- Clamp to the 32-bit signed range, as exponent arithmetic saturates. -/
def clamp32 (e : Int) : Int := max (-2147483648) (min 2147483647 e)

/-- `f / 10^k`, dividing by `10^308` while `k` is beyond the table of powers. -/
def scaleDown (f : Binary64) (k : Nat) : Binary64 :=
  if k ≤ 308 then f.div (Binary64.pow10 k)
  else if f.isZero then f
  else scaleDown (f.div (Binary64.pow10 308)) (k - 308)
termination_by k

/-- The double for `significand * 10^exponent`: the significand rounded to a double, then
multiplied or divided by the rounded power of ten. A result beyond the doubles fails at `off`. -/
def fromParts (positive : Bool) (sig : Nat) (e : Int) (rest : List Char) (off : Nat) :
    Scanned Number :=
  let f := Binary64.ofNat sig
  let done (x : Binary64) : Scanned Number :=
    .ok (.float (if positive then x else x.neg), rest, off)
  if 0 ≤ e then
    if e ≤ 308 then
      let g := f.mul (Binary64.pow10 e.toNat)
      if g.isFinite then done g else failAt .numberOutOfRange off
    else if f.isZero then done f else failAt .numberOutOfRange off
  else done (scaleDown f (-e).toNat)

/-- An exponent too large for 32 bits: out of range for a non-zero significand with a positive
exponent, and zero otherwise. -/
def exponentOverflow (positive zeroSig positiveExp : Bool) (rest : List Char) (off : Nat) :
    Scanned Number :=
  if !zeroSig && positiveExp then failAt .numberOutOfRange off
  else
    let (rest, off) := skipDigits rest off
    .ok (.float (Binary64.zero (!positive)), rest, off)

/-- Exponent digits after the first. -/
def exponentDigits (positive : Bool) (sig : Nat) (start : Int) (positiveExp : Bool) (e : Nat) :
    List Char → Nat → Scanned Number
  | c :: rest, off =>
    if isDigit c then
      if overflows32 e (digitVal c) then exponentOverflow positive (sig = 0) positiveExp rest (off + 1)
      else exponentDigits positive sig start positiveExp (e * 10 + digitVal c) rest (off + 1)
    else fromParts positive sig (clamp32 (if positiveExp then start + e else start - e)) (c :: rest) off
  | [], off => fromParts positive sig (clamp32 (if positiveExp then start + e else start - e)) [] off

/-- The exponent after `e` or `E`. -/
def exponentPart (positive : Bool) (sig : Nat) (start : Int) (rest : List Char) (off : Nat) :
    Scanned Number :=
  let (positiveExp, rest, off) := match rest with
    | '+' :: r => (true, r, off + 1)
    | '-' :: r => (false, r, off + 1)
    | r => (true, r, off)
  match rest with
  | [] => failAt .eofWhileParsingValue off
  | c :: r =>
    if isDigit c then exponentDigits positive sig start positiveExp (digitVal c) r (off + 1)
    else failAt .invalidNumber (off + 1)

/-- After the significand: an exponent if one follows, else the value of the parts. -/
def afterSignificand (positive : Bool) (sig : Nat) (e : Int) (rest : List Char) (off : Nat) :
    Scanned Number :=
  match rest with
  | 'e' :: r | 'E' :: r => exponentPart positive sig e r (off + 1)
  | _ => fromParts positive sig e rest off

/-- Fraction digits; `after` counts them, negated. Digits past 64 bits are dropped. -/
def fractionDigits (positive : Bool) (sig : Nat) (before : Int) (after : Nat) :
    List Char → Nat → Scanned Number
  | c :: rest, off =>
    if isDigit c then
      if overflows64 sig (digitVal c) then
        let (rest', off') := skipDigits (c :: rest) off
        afterSignificand positive sig (before - after) rest' off'
      else fractionDigits positive (sig * 10 + digitVal c) before (after + 1) rest (off + 1)
    else if after = 0 then failAt .invalidNumber (off + 1)
    else afterSignificand positive sig (before - after) (c :: rest) off
  | [], off =>
    if after = 0 then failAt .eofWhileParsingValue off
    else afterSignificand positive sig (before - after) [] off

/-- Integer digits past 64 bits: each one raises the exponent. -/
def longIntegerDigits (positive : Bool) (sig : Nat) (e : Int) : List Char → Nat → Scanned Number
  | c :: rest, off =>
    if isDigit c then longIntegerDigits positive sig (e + 1) rest (off + 1)
    else if c = '.' then fractionDigits positive sig e 0 rest (off + 1)
    else afterSignificand positive sig e (c :: rest) off
  | [], off => fromParts positive sig e [] off

/-- What follows an integer part: a fraction, an exponent, or nothing, in which case the integer
keeps its kind. -/
def afterInteger (positive : Bool) (sig : Nat) (rest : List Char) (off : Nat) : Scanned Number :=
  match rest with
  | '.' :: r => fractionDigits positive sig 0 0 r (off + 1)
  | 'e' :: r | 'E' :: r => exponentPart positive sig 0 r (off + 1)
  | _ =>
    if positive then .ok (.nat sig, rest, off)
    else if 1 ≤ sig ∧ sig ≤ Nat.pow 2 63 then .ok (.negInt (-(sig : Int)), rest, off)
    else .ok (.float (Binary64.ofNat sig).neg, rest, off)

/-- Integer digits after the first. -/
def integerDigits (positive : Bool) (sig : Nat) : List Char → Nat → Scanned Number
  | c :: rest, off =>
    if isDigit c then
      if overflows64 sig (digitVal c) then longIntegerDigits positive sig 0 (c :: rest) off
      else integerDigits positive (sig * 10 + digitVal c) rest (off + 1)
    else afterInteger positive sig (c :: rest) off
  | [], off => afterInteger positive sig [] off

/-- A number, after its sign if it has one. A leading zero stands alone. -/
def number (positive : Bool) : List Char → Nat → Scanned Number
  | [], off => failAt .eofWhileParsingValue off
  | c :: rest, off =>
    if c = '0' then
      match rest with
      | d :: _ => if isDigit d then failAt .invalidNumber (off + 2) else afterInteger positive 0 rest (off + 1)
      | [] => afterInteger positive 0 [] (off + 1)
    else if isDigit c then integerDigits positive (digitVal c) rest (off + 1)
    else failAt .invalidNumber (off + 1)

/-- Exponent digits of a number that is only passed over. -/
def skipExponent (rest : List Char) (off : Nat) : Scanned Unit :=
  let (rest, off) := match rest with
    | '+' :: r | '-' :: r => (r, off + 1)
    | r => (r, off)
  match rest with
  | c :: r =>
    if isDigit c then let (r, off) := skipDigits r (off + 1); .ok ((), r, off)
    else failAt .invalidNumber (off + 1)
  | [] => failAt .invalidNumber off

/-- A number that is only passed over: its form is checked, its size is not. -/
def skipNumber (rest : List Char) (off : Nat) : Scanned Unit :=
  let tail (rest : List Char) (off : Nat) : Scanned Unit :=
    match rest with
    | '.' :: r =>
      let (r', off') := skipDigits r (off + 1)
      if off' = off + 1 then failAt .invalidNumber (ahead r' off')
      else
        match r' with
        | 'e' :: r'' | 'E' :: r'' => skipExponent r'' (off' + 1)
        | _ => .ok ((), r', off')
    | 'e' :: r | 'E' :: r => skipExponent r (off + 1)
    | _ => .ok ((), rest, off)
  match rest with
  | c :: r =>
    if c = '0' then
      match r with
      | d :: _ => if isDigit d then failAt .invalidNumber (off + 2) else tail r (off + 1)
      | [] => tail [] (off + 1)
    else if isDigit c then
      let (r, off) := skipDigits r (off + 1)
      tail r off
    else failAt .invalidNumber (off + 1)
  | [] => failAt .invalidNumber off

end Scan

namespace Reader

open Scan

/-- The next character, without reading it. -/
def peek : Reader (Option Char) := return (← get).rest.head?

/-- Read one character. -/
def bump : Reader Unit := modify fun c =>
  match c.rest with
  | [] => c
  | ch :: r => ⟨r, c.offset + ch.utf8Size⟩

/-- Read one character and return it. -/
def next : Reader (Option Char) := do
  let c ← peek
  bump
  return c

/-- Fail with a fault at the offset reached. -/
def failHere {α : Type} (f : Fault) : Reader α := do throw (f, some (← get).offset)

/-- Fail with a fault one byte ahead of the offset reached. -/
def failAhead {α : Type} (f : Fault) : Reader α := do
  let c ← get
  throw (f, some (ahead c.rest c.offset))

/-- A fault that a decoder found, placed later by `placed`. -/
def failUnplaced {α : Type} (f : Fault) : Reader α := throw (f, none)

/-- Give a failure without an offset the offset reading has reached. -/
def placed {α : Type} (r : Reader α) : Reader α :=
  tryCatch r fun (f, at?) => do
    match at? with
    | some off => throw (f, some off)
    | none => throw (f, some (← get).offset)

/-- Run a scanner on the characters ahead. -/
def scan {α : Type} (s : List Char → Nat → Scanned α) : Reader α := do
  let c ← get
  match s c.rest c.offset with
  | .ok (a, rest, off) => set (Cursor.mk rest off); return a
  | .error f => throw f

/-- Skip blanks and return the next character. -/
def blank : Reader (Option Char) := do
  let c ← get
  let (rest, off) := skipBlank c.rest c.offset
  set (Cursor.mk rest off)
  return rest.head?

/-- Read the given characters, each of which must come next. -/
def word : List Char → Reader Unit
  | [] => pure ()
  | w :: ws => do
    match ← next with
    | none => failHere (.text .eofWhileParsingValue)
    | some c => if c = w then word ws else failHere (.text .expectedSomeIdent)

/-- Run a step and return its outcome instead of failing. -/
def attempt {α : Type} (r : Reader α) : Reader (Except Failure α) :=
  tryCatch (Except.ok <$> r) fun e => pure (.error e)

/-- The first failure of two outcomes, else the first value. -/
def firstFailure {α β : Type} : Except Failure α → Except Failure β → Reader α
  | .error e, _ => throw e
  | .ok _, .error e => throw e
  | .ok a, .ok _ => pure a

/-- Close a list: `]`, or a fault for a trailing comma, other characters or the end. -/
def closeList : Reader Unit := do
  match ← blank with
  | some ']' => bump
  | some ',' =>
    bump
    match ← blank with
    | some ']' => failAhead (.text .trailingComma)
    | _ => failAhead (.text .trailingCharacters)
  | some _ => failAhead (.text .trailingCharacters)
  | none => failAhead (.text .eofWhileParsingList)

/-- Close an object: `}`, or a fault for a comma, other characters or the end. -/
def closeObject : Reader Unit := do
  match ← blank with
  | some '}' => bump
  | some ',' => failAhead (.text .trailingComma)
  | some _ => failAhead (.text .trailingCharacters)
  | none => failAhead (.text .eofWhileParsingObject)

/-- Whether another item follows in a list; the first item needs no comma. -/
def moreItems (first : Bool) : Reader Bool := do
  match ← blank with
  | none => failAhead (.text .eofWhileParsingList)
  | some ']' => return false
  | some c =>
    if first then return true
    else if c = ',' then
      bump
      match ← blank with
      | some ']' => failAhead (.text .trailingComma)
      | some _ => return true
      | none => failAhead (.text .eofWhileParsingValue)
    else failAhead (.text .expectedListCommaOrEnd)

/-- Whether another member follows in an object, leaving the cursor on its key's quote. -/
def moreMembers (first : Bool) : Reader Bool := do
  match ← blank with
  | some '}' => return false
  | some ',' => if first then keyStart (some ',') else do bump; keyStart (← blank)
  | some c => if first then keyStart (some c) else failAhead (.text .expectedObjectCommaOrEnd)
  | none => failAhead (.text .eofWhileParsingObject)
where
  /-- What may start a member: only the quote of its key. -/
  keyStart : Option Char → Reader Bool
    | some '"' => pure true
    | some '}' => failAhead (.text .trailingComma)
    | some _ => failAhead (.text .keyMustBeAString)
    | none => failAhead (.text .eofWhileParsingValue)

/-- The colon between a key and its value. -/
def colon : Reader Unit := do
  match ← blank with
  | some ':' => bump
  | some _ => failAhead (.text .expectedColon)
  | none => failAhead (.text .eofWhileParsingObject)

/-- A string, after its opening quote. -/
def stringBody : Reader String := scan (Scan.stringBody [])

/-- A member's key: the quote is next. -/
def key : Reader String := do bump; stringBody

/-- Nothing but blanks may follow a document. -/
def finish : Reader Unit := do
  match ← blank with
  | some _ => failAhead (.text .trailingCharacters)
  | none => pure ()

mutual

/-- Pass over a document from the start of a value, `stack` holding the brackets of the
containers it is inside (innermost first) and `inside` the one just entered. -/
def skipFrom : Nat → List Char → Option Char → Reader Unit
  | 0, _, _ => failAhead (.text .eofWhileParsingValue)
  | fuel + 1, stack, inside => do
    let opened ← match ← blank with
      | none => failAhead (.text .eofWhileParsingValue)
      | some 'n' => do bump; word ['u', 'l', 'l']; pure none
      | some 't' => do bump; word ['r', 'u', 'e']; pure none
      | some 'f' => do bump; word ['a', 'l', 's', 'e']; pure none
      | some '-' => do bump; scan skipNumber; pure none
      | some '"' => do bump; scan skipStringBody; pure none
      | some c =>
        if isDigit c then do scan skipNumber; pure none
        else if c = '[' ∨ c = '{' then do bump; pure (some c)
        else failAhead (.text .expectedSomeValue)
    match opened with
    | some c => skipClose fuel (inside.toList ++ stack) false c
    | none =>
      match inside with
      | some c => skipClose fuel stack true c
      | none =>
        match stack with
        | c :: rest => skipClose fuel rest true c
        | [] => pure ()

/-- After a value inside the container `frame`: a comma (when one may come), or the container's
end, after which the container around it is continued. -/
def skipClose : Nat → List Char → Bool → Char → Reader Unit
  | 0, _, _, _ => failAhead (.text .eofWhileParsingValue)
  | fuel + 1, stack, commaOk, frame => do
    match ← blank with
    | some c =>
      if c = ',' ∧ commaOk then do
        bump
        if frame = '{' then do
          match ← blank with
          | some '"' => bump
          | some _ => failAhead (.text .keyMustBeAString)
          | none => failAhead (.text .eofWhileParsingObject)
          scan skipStringBody
          colon
        skipFrom fuel stack (some frame)
      else if (c = ']' ∧ frame = '[') ∨ (c = '}' ∧ frame = '{') then do
        bump
        match stack with
        | f :: rest => skipClose fuel rest true f
        | [] => pure ()
      else if commaOk then
        failAhead (.text (if frame = '[' then .expectedListCommaOrEnd else .expectedObjectCommaOrEnd))
      else do
        -- the first member or item of a container just opened
        if frame = '{' then do
          match ← blank with
          | some '"' => bump
          | some _ => failAhead (.text .keyMustBeAString)
          | none => failAhead (.text .eofWhileParsingObject)
          scan skipStringBody
          colon
        skipFrom fuel stack (some frame)
    | none =>
      failAhead (.text (if frame = '[' then .eofWhileParsingList else .eofWhileParsingObject))

end

/-- Pass over one whole document. -/
def skipValue : Reader Unit := do
  let c ← get
  skipFrom (2 * c.rest.length + 2) [] none

end Reader

end DaemonBridge.Json
