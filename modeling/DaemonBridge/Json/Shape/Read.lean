import DaemonBridge.Json.Read
import DaemonBridge.Json.Shape

/-!
# Reading text into a shape

`Shape.readText` checks a text against a shape while reading it, and returns the canonical form
`Shape.decode` would. Reading stops at the first fault, so a wrong type is reported before a
syntax fault further on, and every fault carries the position where it was noticed:

* a token of the wrong kind is read whole and reported just after it (a bracket is reported where
  it stands, since nothing of the container is read);
* a fault of the decoded value (a number out of its range, an unknown name) is reported just after
  the value;
* a fault of a record as a whole (a missing or repeated field, too few items) is reported where
  reading stood when the record's contents stopped, after the record's closing bracket when that
  bracket could be read.

Each step either reads a character or goes down one level of the shape, so `fuel` bounds the
steps by the length of the text times the depth of the shape.
-/

namespace DaemonBridge.Json

namespace Reader

open Scan

/-- What a number is, for messages about it. -/
def Number.found : Number → Found
  | .nat n => .unsigned n
  | .negInt n => .signed n
  | .float x => .float x

/-- Read the token ahead (a bracket is left in place) and fail because it is not `expected`. -/
def wrongType {α : Type} (expected : String) : Reader α := do
  let found ← match ← peek with
    | some 'n' => do bump; word ['u', 'l', 'l']; pure Found.null
    | some 't' => do bump; word ['r', 'u', 'e']; pure (Found.bool true)
    | some 'f' => do bump; word ['a', 'l', 's', 'e']; pure (Found.bool false)
    | some '-' => do bump; pure (Number.found (← scan (Scan.number false)))
    | some '"' => do bump; pure (Found.string (← stringBody))
    | some '[' => pure Found.sequence
    | some '{' => pure Found.map
    | some c =>
      if isDigit c then do pure (Number.found (← scan (Scan.number true)))
      else failAhead (.text .expectedSomeValue)
    | none => failAhead (.text .expectedSomeValue)
  failHere (.invalidType found expected)

/-- Enter a container if the nesting limit leaves room for one. -/
def enter {α : Type} (room : Nat) (inside : Nat → Reader α) : Reader α :=
  match room with
  | 0 => failAhead (.text .recursionLimitExceeded)
  | room + 1 => inside room

/-- Lift a decoder's verdict into reading; its faults get a position later. -/
def verdict {α : Type} : Except Fault α → Reader α
  | .ok a => pure a
  | .error f => failUnplaced f

/-- A name of a choice, given as a string. -/
def choiceName (names : List String) : Reader Value := placed do
  match ← blank with
  | none => failAhead (.text .eofWhileParsingValue)
  | some '"' => do bump; verdict (choiceOf names (← stringBody))
  | some _ => wrongType "variant identifier"

/-- `null`, the only value of a name that carries nothing. -/
def unitValue : Reader Unit := placed do
  match ← blank with
  | none => failAhead (.text .eofWhileParsingValue)
  | some 'n' => do bump; word ['u', 'l', 'l']
  | some _ => wrongType "unit"

mutual

/-- A document of the given shape, with `room` more containers allowed to open. -/
def shaped : Nat → Nat → Shape → Reader Value
  | 0, _, _ => failAhead (.text .recursionLimitExceeded)
  | fuel + 1, room, shape =>
    match shape with
    | .any => value room
    | .option inner => do
      match ← blank with
      | some 'n' => do bump; word ['u', 'l', 'l']; pure .null
      | _ => shaped fuel room inner
    | .string => placed do
      match ← blank with
      | none => failAhead (.text .eofWhileParsingValue)
      | some '"' => do bump; return .string (← stringBody)
      | some _ => wrongType "a string"
    | .bool => placed do
      match ← blank with
      | none => failAhead (.text .eofWhileParsingValue)
      | some 't' => do bump; word ['r', 'u', 'e']; pure (.bool true)
      | some 'f' => do bump; word ['a', 'l', 's', 'e']; pure (.bool false)
      | some _ => wrongType "a boolean"
    | .unsigned name max => placed do
      match ← blank with
      | none => failAhead (.text .eofWhileParsingValue)
      | some '-' => do bump; verdict (unsignedOf name max (← scan (Scan.number false)))
      | some c =>
        if isDigit c then do verdict (unsignedOf name max (← scan (Scan.number true)))
        else wrongType name
    | .list item => placed do
      match ← blank with
      | none => failAhead (.text .eofWhileParsingValue)
      | some '[' => enter room fun room => do
        bump
        return .array (← enclosed (shapedItems fuel room item true []) closeList)
      | some _ => wrongType "a sequence"
    | .record name fields => placed do
      match ← blank with
      | none => failAhead (.text .eofWhileParsingValue)
      | some '[' => enter room fun room => do
        bump
        let got ← enclosed (positional fuel room name fields.length fields 0 true) closeList
        return .object got
      | some '{' => enter room fun room => do
        bump
        let found ← enclosed (namedMembers fuel room fields true []) closeObject
        return .object (← verdict (completeRecord fields found))
      | some _ => wrongType ("struct " ++ name)
    | .choice _ names => do
      match ← blank with
      | some '"' => choiceName names
      | some '{' => enter room fun _ => do
        bump
        let name ← choiceName names
        colon
        unitValue
        match ← blank with
        | some '}' => do bump; pure name
        | some _ => failHere (.text .expectedSomeValue)
        | none => failHere (.text .eofWhileParsingObject)
      | some _ => failAhead (.text .expectedSomeValue)
      | none => failAhead (.text .eofWhileParsingValue)

/-- Items of a list of one shape, after the opening bracket. -/
def shapedItems : Nat → Nat → Shape → Bool → List Value → Reader (List Value)
  | 0, _, _, _, _ => failAhead (.text .recursionLimitExceeded)
  | fuel + 1, room, item, first, acc => do
    if ← moreItems first then
      let v ← shaped fuel room item
      shapedItems fuel room item false (v :: acc)
    else pure acc.reverse

/-- The fields of a record given as a list, from the field at index `i`. A missing item takes
the field's default; a missing required field fails. -/
def positional : Nat → Nat → String → Nat → List Field → Nat → Bool →
    Reader (List (String × Value))
  | 0, _, _, _, _, _, _ => failAhead (.text .recursionLimitExceeded)
  | _ + 1, _, _, _, [], _, _ => pure []
  | fuel + 1, room, name, total, f :: rest, i, first => do
    if ← moreItems first then
      let v ← shaped fuel room f.shape
      return (f.name, v) :: (← positional fuel room name total rest (i + 1) false)
    else
      match f.fallback with
      | some d => return (f.name, d) :: (← positional fuel room name total rest (i + 1) first)
      | none => failUnplaced (.invalidLength i (recordLength name total))

/-- The members of a record given as an object, by field index. A field named twice fails as
soon as its key is read; members that name no field are passed over. -/
def namedMembers : Nat → Nat → List Field → Bool → List (Nat × Value) →
    Reader (List (Nat × Value))
  | 0, _, _, _, _ => failAhead (.text .recursionLimitExceeded)
  | fuel + 1, room, fields, first, found => do
    if ← moreMembers first then
      let k ← key
      match fieldIndex? fields k with
      | none => do
        colon
        skipValue
        namedMembers fuel room fields false found
      | some i =>
        match fields[i]? with
        | none => do colon; skipValue; namedMembers fuel room fields false found
        | some f =>
          if (found.lookup i).isSome then failUnplaced (.duplicateField f.name)
          else do
            colon
            let v ← shaped fuel room f.shape
            namedMembers fuel room fields false ((i, v) :: found)
    else pure found

end

end Reader

/-- Steps enough to read `text` into a shape of the given depth. -/
def Shape.readFuel (text : String) (depth : Nat) : Nat := (text.length + 2) * (depth + 2) * 2

/-- How deeply shapes nest, counting the levels reading goes down. -/
def Shape.depth : Shape → Nat
  | .option inner => inner.depth + 1
  | .list item => item.depth + 1
  | .record _ fields => (fields.map fun f => fieldDepth f).foldl max 0 + 1
  | _ => 1
where
  /-- How deeply a field's shape nests. -/
  fieldDepth : Field → Nat
    | .mk _ _ s _ => s.depth

/-- Read a text holding one document of the given shape, returning its canonical form. -/
def Shape.readText (shape : Shape) (text : String) : Except ReadError Value :=
  Reader.runText (Reader.shaped (Shape.readFuel text shape.depth) Reader.nestingLimit shape) text

end DaemonBridge.Json
