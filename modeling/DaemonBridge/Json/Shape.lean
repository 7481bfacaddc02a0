import DaemonBridge.Json.Fault

/-!
# Shapes of documents

A `Shape` says what a document must look like to be decoded into one of this library's types:
any document, a string, a boolean, an unsigned integer below a bound, an optional value, a list,
a record of named fields, or one of a fixed set of names.

Decoding does not build the typed value directly: it checks a document against a shape and
returns it in the shape's *canonical form*, from which each type reads its fields. In the
canonical form an absent option is `null`, an unsigned integer is a number, a choice is its name,
and a record is an object holding every field in declaration order, a missing field having taken
its default.

A record accepts an object, whose members may come in any order, where unknown members are
ignored and a member named twice is an error, or a list of its fields in declaration order,
which may stop early at a field with a default.

`Shape.decode` checks a document that is already built; `Json.Shape.Read` checks text while
reading it, so that faults carry positions.
-/

namespace DaemonBridge.Json

mutual

/-- What a document must look like. -/
inductive Shape where
  /-- Any document. -/
  | any
  | string
  | bool
  /-- A non-negative integer not above `max`; `name` is the integer type's name. -/
  | unsigned (name : String) (max : Nat)
  /-- `null` for nothing, or a document of the inner shape. -/
  | option (inner : Shape)
  | list (item : Shape)
  /-- A record called `name`. -/
  | record (name : String) (fields : List Field)
  /-- One of the names of the choice called `name`. -/
  | choice (name : String) (names : List String)

/-- A field of a record: its name, other names it may be given under, its shape, and the value
it takes when absent (a required field has none). -/
inductive Field where
  | mk (name : String) (aliases : List String) (shape : Shape) (fallback : Option Value)

end

namespace Field

/-- The field's name. -/
def name : Field → String
  | .mk n _ _ _ => n

/-- The field's shape. -/
def shape : Field → Shape
  | .mk _ _ s _ => s

/-- The field's value when absent, if it has one. -/
def fallback : Field → Option Value
  | .mk _ _ _ d => d

/-- The field is called `key`, by its name or by an alias. -/
def answersTo (f : Field) (key : String) : Bool :=
  match f with
  | .mk n aliases _ _ => n == key || aliases.contains key

/-- A field with a value when absent. -/
def withDefault (name : String) (shape : Shape) (fallback : Value) : Field :=
  .mk name [] shape (some fallback)

/-- A field that must be present. -/
def required (name : String) (shape : Shape) : Field := .mk name [] shape none

end Field

/-- The index of the field a key names. -/
def fieldIndex? (fields : List Field) (key : String) : Option Nat :=
  fields.findIdx? (·.answersTo key)

/-- How messages name what a record expects when given as a list. -/
def recordLength (name : String) (n : Nat) : String :=
  "struct " ++ name ++ " with " ++ natText n ++ (if n = 1 then " element" else " elements")

/-- The canonical record from the values found for some fields (by index): each field takes its
value, else its default; the first required field without a value is missing. -/
def completeRecord (fields : List Field) (found : List (Nat × Value)) :
    Except Fault (List (String × Value)) :=
  go fields 0
where
  /-- Fields from index `i` on. -/
  go : List Field → Nat → Except Fault (List (String × Value))
    | [], _ => .ok []
    | f :: rest, i =>
      match found.lookup i, f.fallback with
      | some v, _ => ((f.name, v) :: ·) <$> go rest (i + 1)
      | none, some d => ((f.name, d) :: ·) <$> go rest (i + 1)
      | none, none => .error (.missingField f.name)

/-- The unsigned integer a number stands for, if it is one within `max`. -/
def unsignedOf (name : String) (max : Nat) : Number → Except Fault Value
  | .nat n => if n ≤ max then .ok (.number (.nat n)) else .error (.invalidValue (.unsigned n) name)
  | .negInt n => .error (.invalidValue (.signed n) name)
  | .float x => .error (.invalidType (.float x) name)

/-- A name of a choice, if it is one. -/
def choiceOf (names : List String) (s : String) : Except Fault Value :=
  if names.contains s then .ok (.string s) else .error (.unknownVariant s names)

namespace Shape

mutual

/-- Check a document against a shape, returning its canonical form. -/
def decode : Shape → Value → Except Fault Value
  | .any, v => .ok v
  | .string, .string s => .ok (.string s)
  | .string, v => .error (.invalidType v.found "a string")
  | .bool, .bool b => .ok (.bool b)
  | .bool, v => .error (.invalidType v.found "a boolean")
  | .unsigned name max, .number n => unsignedOf name max n
  | .unsigned name _, v => .error (.invalidType v.found name)
  | .option _, .null => .ok .null
  | .option inner, v => decode inner v
  | .list item, .array items => .array <$> decodeItems item items
  | .list _, v => .error (.invalidType v.found "a sequence")
  | .record name fields, .array items => do
    let (got, left) ← decodePositional name fields.length fields 0 items
    if left = 0 then pure (.object got)
    else throw (.invalidLength items.length "fewer elements in array")
  | .record _ fields, .object members => do
    let found ← decodeMembers fields members []
    return .object (← completeRecord fields found)
  | .record name _, v => .error (.invalidType v.found ("struct " ++ name))
  | .choice _ names, .string s => choiceOf names s
  | .choice _ names, .object [(k, inner)] => do
    let name ← choiceOf names k
    match inner with
    | .null => pure name
    | _ => throw (.invalidType inner.found "unit")
  | .choice _ _, .object _ => .error (.invalidValue .map "map with a single key")
  | .choice _ _, v => .error (.invalidType v.found "string or map")
termination_by s v => (sizeOf v, sizeOf s)

/-- Check every item of a list. -/
def decodeItems (item : Shape) : List Value → Except Fault (List Value)
  | [] => .ok []
  | v :: rest => do
    let d ← decode item v
    return d :: (← decodeItems item rest)
termination_by items => (sizeOf items, 0)

/-- The fields of a record given as a list, from the field at index `i`; also returns how many
items were left over. -/
def decodePositional (name : String) (total : Nat) :
    List Field → Nat → List Value → Except Fault (List (String × Value) × Nat)
  | [], _, items => .ok ([], items.length)
  | f :: rest, i, [] =>
    match f.fallback with
    | some d => do
      let (got, left) ← decodePositional name total rest (i + 1) []
      return ((f.name, d) :: got, left)
    | none => .error (.invalidLength i (recordLength name total))
  | f :: rest, i, v :: more => do
    let d ← decode f.shape v
    let (got, left) ← decodePositional name total rest (i + 1) more
    return ((f.name, d) :: got, left)
termination_by fields _ items => (sizeOf items, sizeOf fields)

/-- The members of an object that name fields, by field index; unknown members are ignored. -/
def decodeMembers (fields : List Field) :
    List (String × Value) → List (Nat × Value) → Except Fault (List (Nat × Value))
  | [], found => .ok found
  | (k, v) :: rest, found =>
    match fieldIndex? fields k with
    | none => decodeMembers fields rest found
    | some i =>
      if (found.lookup i).isSome then .error (.duplicateField ((fields[i]?.map (·.name)).getD k))
      else
        match fields[i]? with
        | some f => do
          let d ← decode f.shape v
          decodeMembers fields rest ((i, d) :: found)
        | none => decodeMembers fields rest found
termination_by members _ => (sizeOf members, 0)

end

end Shape

/-- An optional document from its canonical form, where `null` stands for nothing. -/
def Value.toOption : Value → Option Value
  | .null => none
  | v => some v

/-- An optional string from its canonical form. -/
def Value.toOptionString : Value → Option String
  | .string s => some s
  | _ => none

/-- The text of a string in canonical form. -/
def Value.stringOr (fallback : String) : Value → String
  | .string s => s
  | _ => fallback

/-- The natural number of an unsigned integer in canonical form. -/
def Value.natOr (fallback : Nat) : Value → Nat
  | .number (.nat n) => n
  | _ => fallback

end DaemonBridge.Json
