/-!
# IP addresses

Reading IP addresses in their standard text forms, strictly:

* IPv4 is four decimal numbers from 0 to 255 joined by dots, each of at most three ASCII digits
  and without a leading zero (`127.0.0.01` is refused, so that no octet reads as octal).
* IPv6 is up to eight groups of one to four hexadecimal digits joined by colons. One `::` may
  stand for one or more groups of zeros, and the last two groups may be written as an IPv4
  address, but not before the `::`.

`IpAddress.parse?` tries IPv4 first; the text must be read to its end. An address is loopback
when it is in `127.0.0.0/8`, or is `::1` exactly (`::ffff:127.0.0.1` is not).

Readers work on a list of characters and return what they read with the characters left; a
reader that fails consumes nothing.
-/

namespace DaemonBridge

/-- An IPv4 or IPv6 address, as its four octets or eight groups. -/
inductive IpAddress where
  | v4 (octets : List Nat)
  | v6 (groups : List Nat)
  deriving DecidableEq, Repr

namespace IpAddress

/-- A reader of a prefix of characters. -/
abbrev Reader (α : Type) := List Char → Option (α × List Char)

/-- The value of a digit in a radix of at most 16: ASCII digits, then letters of either case. -/
def digitValue? (radix : Nat) (c : Char) : Option Nat :=
  let v := if '0' ≤ c ∧ c ≤ '9' then some (c.toNat - '0'.toNat)
    else if 'a' ≤ c ∧ c ≤ 'z' then some (c.toNat - 'a'.toNat + 10)
    else if 'A' ≤ c ∧ c ≤ 'Z' then some (c.toNat - 'A'.toNat + 10)
    else none
  v.filter (· < radix)

/-- The longest run of digits at the front, with the characters after it. -/
def digitRun (radix : Nat) : List Char → List Nat × List Char
  | [] => ([], [])
  | c :: rest =>
    match digitValue? radix c with
    | some d => let (ds, r) := digitRun radix rest; (d :: ds, r)
    | none => ([], c :: rest)

/-- A number: the whole run of digits at the front, of at most `maxDigits` digits and at most
`bound`, with a leading zero allowed only if `zeroPrefix` or the number is `0` alone. -/
def number (radix maxDigits bound : Nat) (zeroPrefix : Bool) : Reader Nat := fun cs =>
  let (ds, rest) := digitRun radix cs
  let value := ds.foldl (fun acc d => acc * radix + d) 0
  if ds.isEmpty || maxDigits < ds.length || bound < value then none
  else if !zeroPrefix && ds.head? == some 0 && 1 < ds.length then none
  else some (value, rest)

/-- Read `inner`, preceded by the separator unless it is the first of a series. -/
def separated {α : Type} (sep : Char) (first : Bool) (inner : Reader α) : Reader α := fun cs =>
  if first then inner cs
  else match cs with
    | c :: rest => if c == sep then inner rest else none
    | [] => none

/-- The four octets of an IPv4 address. -/
def readV4 : Reader (List Nat) := fun cs => do
  let (a, cs) ← number 10 3 255 false cs
  let (b, cs) ← separated '.' false (number 10 3 255 false) cs
  let (c, cs) ← separated '.' false (number 10 3 255 false) cs
  let (d, cs) ← separated '.' false (number 10 3 255 false) cs
  pure ([a, b, c, d], cs)

/-- Up to `limit - i` more groups of an IPv6 address after the `i` in `acc`, ending at the
first that cannot be read; where two or more may follow, an IPv4 address ends the series as its
last two groups. Returns the groups, whether an IPv4 address ended them, and the rest. -/
def readGroups (limit : Nat) (i : Nat) (acc : List Nat) (cs : List Char) :
    List Nat × Bool × List Char :=
  if i < limit then
    let embedded := if i + 1 < limit then separated ':' (i == 0) readV4 cs else none
    match embedded with
    | some ([a, b, c, d], rest) => (acc ++ [a * 256 + b, c * 256 + d], true, rest)
    | _ =>
      match separated ':' (i == 0) (number 16 4 0xFFFF true) cs with
      | some (g, rest) => readGroups limit (i + 1) (acc ++ [g]) rest
      | none => (acc, false, cs)
  else (acc, false, cs)
termination_by limit - i

/-- The eight groups of an IPv6 address. -/
def readV6 : Reader (List Nat) := fun cs =>
  let (head, headV4, rest) := readGroups 8 0 [] cs
  if head.length == 8 then some (head, rest)
  else if headV4 then none
  else match rest with
    | ':' :: ':' :: rest =>
      let (tail, _, rest) := readGroups (8 - (head.length + 1)) 0 [] rest
      some (head ++ List.replicate (8 - head.length - tail.length) 0 ++ tail, rest)
    | _ => none

/-- The address a whole text spells, IPv4 tried first. -/
def parse? (s : String) : Option IpAddress :=
  match readV4 s.toList with
  | some (octets, []) => some (.v4 octets)
  | some _ => none
  | none =>
    match readV6 s.toList with
    | some (groups, []) => some (.v6 groups)
    | _ => none

/-- Whether an address is this machine's: `127.0.0.0/8`, or `::1`. -/
def isLoopback : IpAddress → Bool
  | .v4 octets => octets.head? == some 127
  | .v6 groups => groups == [0, 0, 0, 0, 0, 0, 0, 1]

example : (parse? "127.0.0.01").isNone := by decide +kernel
example : parse? "::0001" = some (.v6 [0, 0, 0, 0, 0, 0, 0, 1]) := by decide +kernel
example : (parse? "::ffff:127.0.0.1").map isLoopback = some false := by decide +kernel
example : (parse? "1:2:3:4:5:6:7::").isSome := by decide +kernel

end IpAddress

end DaemonBridge
