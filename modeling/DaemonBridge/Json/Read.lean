import DaemonBridge.Json.Scan

/-!
# Reading JSON text

`Value.parse` reads a whole text as one document. Containers may nest 127 deep; the next one is
refused. Members of an object are collected as a map: keys sorted, and a repeated key keeps the
last value. A container whose contents fail is still closed before the failure is reported, so
of two faults the first one found is the one reported.
-/

namespace DaemonBridge.Json

namespace Reader

/-- How many containers a document may open inside one another. -/
def nestingLimit : Nat := 127

/-- Read the items of a container, then close it: the first failure of the two wins. -/
def enclosed {α : Type} (contents : Reader α) (close : Reader Unit) : Reader α := do
  let got ← attempt contents
  let closed ← attempt close
  firstFailure got closed

mutual

/-- A document, with `room` more containers allowed to open inside it. -/
def value (room : Nat) : Reader Value := do
  match ← blank with
  | none => failAhead (.text .eofWhileParsingValue)
  | some 'n' => do bump; word ['u', 'l', 'l']; pure .null
  | some 't' => do bump; word ['r', 'u', 'e']; pure (.bool true)
  | some 'f' => do bump; word ['a', 'l', 's', 'e']; pure (.bool false)
  | some '-' => do bump; return .number (← scan (Scan.number false))
  | some '"' => do bump; return .string (← stringBody)
  | some '[' =>
    match room with
    | 0 => failAhead (.text .recursionLimitExceeded)
    | room + 1 => do
      bump
      let fuel := (← get).rest.length + 1
      return .array (← enclosed (items room fuel true []) closeList)
  | some '{' =>
    match room with
    | 0 => failAhead (.text .recursionLimitExceeded)
    | room + 1 => do
      bump
      let fuel := (← get).rest.length + 1
      return .object (← enclosed (members room fuel true []) closeObject)
  | some c =>
    if Scan.isDigit c then return .number (← scan (Scan.number true))
    else failAhead (.text .expectedSomeValue)
termination_by (room, 0)

/-- The items of a list, after its opening bracket. Each item takes at least one character, so
`fuel` counts the characters left. -/
def items (room fuel : Nat) (first : Bool) (acc : List Value) : Reader (List Value) :=
  match fuel with
  | 0 => failAhead (.text .eofWhileParsingList)
  | fuel + 1 => do
    if ← moreItems first then
      let v ← value room
      items room fuel false (v :: acc)
    else pure acc.reverse
termination_by (room, fuel + 1)

/-- The members of an object, after its opening brace, collected as a map. -/
def members (room fuel : Nat) (first : Bool) (acc : Fields) : Reader Fields :=
  match fuel with
  | 0 => failAhead (.text .eofWhileParsingObject)
  | fuel + 1 => do
    if ← moreMembers first then
      let k ← key
      colon
      let v ← value room
      members room fuel false (Fields.insert acc k v)
    else pure acc
termination_by (room, fuel + 1)

end

/-- Run a reader over a whole text: nothing but blanks may follow what it reads. -/
def runText {α : Type} (r : Reader α) (text : String) : Except ReadError α :=
  let chars := text.toList
  match ((do let a ← r; finish; pure a : Reader α).run).run ⟨chars, 0⟩ with
  | (.ok a, _) => .ok a
  | (.error (f, at?), _) => .error ⟨f, at?.map (Position.ofOffset chars)⟩

end Reader

/-- The document a text holds. -/
def Value.parse (text : String) : Except ReadError Value :=
  Reader.runText (Reader.value Reader.nestingLimit) text

end DaemonBridge.Json
