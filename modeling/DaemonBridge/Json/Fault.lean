import DaemonBridge.Json.Write
import DaemonBridge.Text.Display

/-!
# Why reading a document failed

A `Fault` is the cause of a failed read: a syntax fault in the text, or a document that does not
have the shape a decoder wanted. `Fault.message` is its wording. Faults found while reading text
carry the line and column where they were noticed, and `ReadError.message` appends them.
-/

namespace DaemonBridge.Json

/-- Faults in the text itself. -/
inductive TextFault where
  | eofWhileParsingList
  | eofWhileParsingObject
  | eofWhileParsingString
  | eofWhileParsingValue
  | expectedColon
  | expectedListCommaOrEnd
  | expectedObjectCommaOrEnd
  | expectedSomeIdent
  | expectedSomeValue
  | invalidEscape
  | invalidNumber
  | numberOutOfRange
  | controlCharacterWhileParsingString
  | keyMustBeAString
  | loneLeadingSurrogateInHexEscape
  | trailingComma
  | trailingCharacters
  | unexpectedEndOfHexEscape
  | recursionLimitExceeded
  deriving DecidableEq, Repr

/-- The wording of a syntax fault. -/
def TextFault.message : TextFault → String
  | .eofWhileParsingList => "EOF while parsing a list"
  | .eofWhileParsingObject => "EOF while parsing an object"
  | .eofWhileParsingString => "EOF while parsing a string"
  | .eofWhileParsingValue => "EOF while parsing a value"
  | .expectedColon => "expected `:`"
  | .expectedListCommaOrEnd => "expected `,` or `]`"
  | .expectedObjectCommaOrEnd => "expected `,` or `\x7d`"
  | .expectedSomeIdent => "expected ident"
  | .expectedSomeValue => "expected value"
  | .invalidEscape => "invalid escape"
  | .invalidNumber => "invalid number"
  | .numberOutOfRange => "number out of range"
  | .controlCharacterWhileParsingString =>
    "control character (\\u0000-\\u001F) found while parsing a string"
  | .keyMustBeAString => "key must be a string"
  | .loneLeadingSurrogateInHexEscape => "lone leading surrogate in hex escape"
  | .trailingComma => "trailing comma"
  | .trailingCharacters => "trailing characters"
  | .unexpectedEndOfHexEscape => "unexpected end of hex escape"
  | .recursionLimitExceeded => "recursion limit exceeded"

/-- What a decoder found where it wanted something else. -/
inductive Found where
  | null
  | bool (b : Bool)
  | unsigned (n : Nat)
  | signed (n : Int)
  | float (x : Binary64)
  | string (s : String)
  | sequence
  | map
  deriving DecidableEq, Repr

/-- How a message names what was found. -/
def Found.describe : Found → String
  | .null => "null"
  | .bool b => "boolean `" ++ (if b then "true" else "false") ++ "`"
  | .unsigned n => "integer `" ++ natText n ++ "`"
  | .signed n => "integer `" ++ intText n ++ "`"
  | .float x => "floating point `" ++ FloatStyle.json.render x ++ "`"
  | .string s => "string " ++ Text.displayQuoted s
  | .sequence => "sequence"
  | .map => "map"

/-- What a document is, for messages about it. -/
def Value.found : Value → Found
  | .null => .null
  | .bool b => .bool b
  | .number (.nat n) => .unsigned n
  | .number (.negInt n) => .signed n
  | .number (.float x) => .float x
  | .string s => .string s
  | .array _ => .sequence
  | .object _ => .map

/-- The expected names listed for an unknown variant: one, two joined by "or", or a list. -/
def oneOf (names : List String) : String :=
  let ticked := names.map fun n => "`" ++ n ++ "`"
  match ticked with
  | [a] => a
  | [a, b] => a ++ " or " ++ b
  | _ => "one of " ++ ", ".intercalate ticked

/-- Why a read failed. -/
inductive Fault where
  | text (f : TextFault)
  | invalidType (found : Found) (expected : String)
  | invalidValue (found : Found) (expected : String)
  | invalidLength (n : Nat) (expected : String)
  | missingField (name : String)
  | duplicateField (name : String)
  | unknownVariant (name : String) (expected : List String)
  deriving DecidableEq, Repr

/-- The wording of a fault, without a position. -/
def Fault.message : Fault → String
  | .text f => f.message
  | .invalidType found e => "invalid type: " ++ found.describe ++ ", expected " ++ e
  | .invalidValue found e => "invalid value: " ++ found.describe ++ ", expected " ++ e
  | .invalidLength n e => "invalid length " ++ natText n ++ ", expected " ++ e
  | .missingField n => "missing field `" ++ n ++ "`"
  | .duplicateField n => "duplicate field `" ++ n ++ "`"
  | .unknownVariant n [] => "unknown variant `" ++ n ++ "`, there are no variants"
  | .unknownVariant n es => "unknown variant `" ++ n ++ "`, expected " ++ oneOf es

/-- A place in a text: lines count from one, columns are bytes since the last line feed. -/
structure Position where
  line : Nat
  column : Nat
  deriving DecidableEq, Repr

/-- The position of byte offset `i` of a text. -/
def Position.ofOffset (text : List Char) (i : Nat) : Position :=
  go text 0 1 0
where
  /-- Walks the characters wholly before `i`, counting line feeds. -/
  go : List Char → Nat → Nat → Nat → Position
    | c :: rest, off, line, start =>
      if off < i then
        if c = '\n' then go rest (off + 1) (line + 1) (off + 1)
        else go rest (off + c.utf8Size) line start
      else ⟨line, i - start⟩
    | [], _, line, start => ⟨line, i - start⟩

/-- A failed read and, when it was reading text, where. -/
structure ReadError where
  fault : Fault
  position : Option Position
  deriving DecidableEq, Repr

/-- The wording of a failed read, with its position when it has one. -/
def ReadError.message (e : ReadError) : String :=
  match e.position with
  | some p => e.fault.message ++ " at line " ++ natText p.line ++ " column " ++ natText p.column
  | none => e.fault.message

end DaemonBridge.Json
