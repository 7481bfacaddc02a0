import DaemonBridge.Json.Value
import DaemonBridge.Decimal.Shortest

/-!
# Writing JSON text

`Value.compact` writes a document with no blanks; `Value.pretty` indents members by two spaces
per level. Members are written in list order. Strings escape the quote, the backslash and the
control characters, using the short escapes where JSON has one; everything else, non-ASCII
included, is written as it is. Doubles are written with the fewest digits that read back
(`Binary64.shortest`) in the layout `FloatStyle.json` fixes.
-/

namespace DaemonBridge.Json

/-- Where positional notation ends and how a scientific exponent is signed. -/
structure FloatStyle where
  /-- The least exponent of the leading digit that is still written positionally. -/
  leastPositional : Int
  /-- Exponents of the leading digit from here on are written in scientific form. -/
  scientificFrom : Int
  /-- A non-negative scientific exponent is written with a `+`. -/
  plusSign : Bool

/-- Doubles are written positionally, with at least one fractional digit, from `1e-5` up to but
not including `1e16`, and zero is `0.0`; other values are written `d.ddde±x`. -/
def FloatStyle.json : FloatStyle := ⟨-5, 16, true⟩

/-- Decimal text of a natural number. -/
def natText (n : Nat) : String := String.ofList (Nat.toDigits 10 n)

/-- Decimal text of an integer, with a minus sign when negative. -/
def intText (n : Int) : String :=
  if n < 0 then "-" ++ natText n.natAbs else natText n.natAbs

/-- `n` copies of `c`. -/
def repeatChar (c : Char) (n : Nat) : String := String.ofList (List.replicate n c)

/-- The text of a finite double in the given style. -/
def FloatStyle.render (style : FloatStyle) (x : Binary64) : String :=
  let sign := if x.sign then "-" else ""
  if x.isZero then sign ++ "0.0" else
  let d := x.shortest
  let ds := String.ofList (Nat.toDigits 10 d.digits)
  let n := ds.length
  let k := d.exponent + n - 1
  if style.leastPositional ≤ k ∧ k < style.scientificFrom then
    if 0 ≤ k then
      let whole := k.toNat + 1
      if n ≤ whole then sign ++ ds ++ repeatChar '0' (whole - n) ++ ".0"
      else sign ++ String.ofList (ds.toList.take whole) ++ "." ++ String.ofList (ds.toList.drop whole)
    else sign ++ "0." ++ repeatChar '0' ((-k).toNat - 1) ++ ds
  else
    let mant := match ds.toList with
      | [] => ""
      | [c] => c.toString
      | c :: rest => c.toString ++ "." ++ String.ofList rest
    let expSign := if k < 0 then "-" else if style.plusSign then "+" else ""
    sign ++ mant ++ "e" ++ expSign ++ natText k.natAbs

namespace Number

/-- The text of a number: integers in decimal, doubles by `FloatStyle.json`. A non-finite double
has no JSON text and is written `null`. -/
def render : Number → String
  | .nat n => natText n
  | .negInt n => intText n
  | .float x => if x.isFinite then FloatStyle.json.render x else "null"

end Number

/-- Lowercase hexadecimal digit. -/
def hexDigit (n : Nat) : Char :=
  if n < 10 then Char.ofNat ('0'.toNat + n) else Char.ofNat ('a'.toNat + n - 10)

/-- The escaped form of one character inside a JSON string. -/
def escapeChar (c : Char) : List Char :=
  if c = '"' then ['\\', '"']
  else if c = '\\' then ['\\', '\\']
  else if c = '\n' then ['\\', 'n']
  else if c = '\r' then ['\\', 'r']
  else if c = '\t' then ['\\', 't']
  else if c.toNat = 8 then ['\\', 'b']
  else if c.toNat = 12 then ['\\', 'f']
  else if c.toNat < 32 then ['\\', 'u', '0', '0', hexDigit (c.toNat / 16), hexDigit (c.toNat % 16)]
  else [c]

/-- A string as a quoted JSON string. -/
def quote (s : String) : String :=
  String.ofList ('"' :: (s.toList.flatMap escapeChar ++ ['"']))

namespace Value

mutual

/-- The document with no blanks. -/
def compact : Value → String
  | .null => "null"
  | .bool b => if b then "true" else "false"
  | .number n => n.render
  | .string s => quote s
  | .array items => "[" ++ compactItems items ++ "]"
  | .object fields => "\x7b" ++ compactFields fields ++ "\x7d"

/-- Items separated by commas. -/
def compactItems : List Value → String
  | [] => ""
  | [v] => compact v
  | v :: rest => compact v ++ "," ++ compactItems rest

/-- Members separated by commas. -/
def compactFields : List (String × Value) → String
  | [] => ""
  | [(k, v)] => quote k ++ ":" ++ compact v
  | (k, v) :: rest => quote k ++ ":" ++ compact v ++ "," ++ compactFields rest

end

/-- Indentation of a nesting level. -/
def indent (level : Nat) : String := repeatChar ' ' (2 * level)

mutual

/-- The document indented by two spaces per level, starting at `level`. -/
def prettyAt (level : Nat) : Value → String
  | .array [] => "[]"
  | .object [] => "\x7b\x7d"
  | .array items => "[" ++ prettyItems (level + 1) items ++ "\n" ++ indent level ++ "]"
  | .object fields => "\x7b" ++ prettyFields (level + 1) fields ++ "\n" ++ indent level ++ "\x7d"
  | v => compact v

/-- Items, each on its own line. -/
def prettyItems (level : Nat) : List Value → String
  | [] => ""
  | [v] => "\n" ++ indent level ++ prettyAt level v
  | v :: rest => "\n" ++ indent level ++ prettyAt level v ++ "," ++ prettyItems level rest

/-- Members, each on its own line. -/
def prettyFields (level : Nat) : List (String × Value) → String
  | [] => ""
  | [(k, v)] => "\n" ++ indent level ++ quote k ++ ": " ++ prettyAt level v
  | (k, v) :: rest =>
    "\n" ++ indent level ++ quote k ++ ": " ++ prettyAt level v ++ "," ++ prettyFields level rest

end

/-- The document indented by two spaces per level. -/
def pretty (v : Value) : String := prettyAt 0 v

end Value

example : (Value.object [("a", .array [.nat 1, .null])]).compact = "\x7b\"a\":[1,null]\x7d" := by
  decide
example : FloatStyle.json.render (Binary64.ofNat 100) = "100.0" := by decide
example : FloatStyle.json.render (Binary64.ofNat (10 ^ 20)) = "1e+20" := by decide

end DaemonBridge.Json
