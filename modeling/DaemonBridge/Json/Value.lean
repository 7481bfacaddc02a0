import DaemonBridge.Binary64

/-!
# JSON values

A `Value` is a JSON document. Numbers keep the kind they were read as: a non-negative integer
that fits 64 unsigned bits, a negative integer that fits 64 signed bits, or a double.

An object is a list of members. Objects that stand for maps (everything the reader produces) keep
their keys sorted and unique, which `Fields.insert` maintains: a later member with the same key
replaces the earlier one. Objects written for records keep their fields in declaration order, and
the writer prints members in list order either way.
-/

namespace DaemonBridge.Json

/-- A JSON number, in the kind it was read as. -/
inductive Number where
  /-- A non-negative integer below `2^64`. -/
  | nat (n : Nat)
  /-- A negative integer not below `-2^63`. -/
  | negInt (n : Int)
  /-- Any other number, as the nearest double. -/
  | float (x : Binary64)
  deriving DecidableEq, Repr, Inhabited

/-- A JSON document. -/
inductive Value where
  | null
  | bool (b : Bool)
  | number (n : Number)
  | string (s : String)
  | array (items : List Value)
  | object (fields : List (String × Value))
  deriving Repr, Inhabited

namespace Value

mutual

/-- Structural equality of documents is decidable. -/
def decEq : (a b : Value) → Decidable (a = b)
  | .null, .null => isTrue rfl
  | .bool a, .bool b =>
    if h : a = b then isTrue (h ▸ rfl) else isFalse fun e => by cases e; exact h rfl
  | .number a, .number b =>
    if h : a = b then isTrue (h ▸ rfl) else isFalse fun e => by cases e; exact h rfl
  | .string a, .string b =>
    if h : a = b then isTrue (h ▸ rfl) else isFalse fun e => by cases e; exact h rfl
  | .array xs, .array ys =>
    match decEqItems xs ys with
    | isTrue h => isTrue (h ▸ rfl)
    | isFalse h => isFalse fun e => by cases e; exact h rfl
  | .object xs, .object ys =>
    match decEqFields xs ys with
    | isTrue h => isTrue (h ▸ rfl)
    | isFalse h => isFalse fun e => by cases e; exact h rfl
  | .null, .bool _ | .null, .number _ | .null, .string _ | .null, .array _
  | .null, .object _ => isFalse fun h => by cases h
  | .bool _, .null | .bool _, .number _ | .bool _, .string _ | .bool _, .array _
  | .bool _, .object _ => isFalse fun h => by cases h
  | .number _, .null | .number _, .bool _ | .number _, .string _ | .number _, .array _
  | .number _, .object _ => isFalse fun h => by cases h
  | .string _, .null | .string _, .bool _ | .string _, .number _ | .string _, .array _
  | .string _, .object _ => isFalse fun h => by cases h
  | .array _, .null | .array _, .bool _ | .array _, .number _ | .array _, .string _
  | .array _, .object _ => isFalse fun h => by cases h
  | .object _, .null | .object _, .bool _ | .object _, .number _ | .object _, .string _
  | .object _, .array _ => isFalse fun h => by cases h

/-- Decidable equality of item lists. -/
def decEqItems : (a b : List Value) → Decidable (a = b)
  | [], [] => isTrue rfl
  | [], _ :: _ => isFalse fun h => by cases h
  | _ :: _, [] => isFalse fun h => by cases h
  | x :: xs, y :: ys =>
    match decEq x y, decEqItems xs ys with
    | isTrue h₁, isTrue h₂ => isTrue (h₁ ▸ h₂ ▸ rfl)
    | isFalse h₁, _ => isFalse fun e => by cases e; exact h₁ rfl
    | _, isFalse h₂ => isFalse fun e => by cases e; exact h₂ rfl

/-- Decidable equality of member lists. -/
def decEqFields : (a b : List (String × Value)) → Decidable (a = b)
  | [], [] => isTrue rfl
  | [], _ :: _ => isFalse fun h => by cases h
  | _ :: _, [] => isFalse fun h => by cases h
  | (k, x) :: xs, (l, y) :: ys =>
    if hk : k = l then
      match decEq x y, decEqFields xs ys with
      | isTrue h₁, isTrue h₂ => isTrue (hk ▸ h₁ ▸ h₂ ▸ rfl)
      | isFalse h₁, _ => isFalse fun e => by cases e; exact h₁ rfl
      | _, isFalse h₂ => isFalse fun e => by cases e; exact h₂ rfl
    else isFalse fun e => by cases e; exact hk rfl

end

instance : DecidableEq Value := decEq

end Value

/-- Members of an object. -/
abbrev Fields := List (String × Value)

namespace Fields

/-- The value of the first member named `key`. -/
def get? (fs : Fields) (key : String) : Option Value :=
  (fs.find? (·.1 == key)).map (·.2)

/-- Insert into a map whose keys are sorted and unique, keeping them so: a member with the same
key is replaced in place. -/
def insert : Fields → String → Value → Fields
  | [], k, v => [(k, v)]
  | (k', v') :: rest, k, v =>
    if k < k' then (k, v) :: (k', v') :: rest
    else if k = k' then (k, v) :: rest
    else (k', v') :: insert rest k v

/-- Remove every member named `key`. -/
def erase (fs : Fields) (key : String) : Fields :=
  fs.filter (·.1 != key)

/-- The map holding the members of `fs`, the last of two equal keys winning. -/
def toMap (fs : Fields) : Fields :=
  fs.foldl (fun acc kv => Fields.insert acc kv.1 kv.2) []

end Fields

namespace Number

/-- Numeric equality as the documents compare them: a double equals only a double, by
floating-point equality, and integers compare by kind and value. -/
def same : Number → Number → Bool
  | .nat a, .nat b => a == b
  | .negInt a, .negInt b => a == b
  | .float a, .float b => a.eqv b
  | _, _ => false

end Number

namespace Value

mutual

/-- Equality of documents, with numbers compared by `Number.same`. -/
def same : Value → Value → Bool
  | .null, .null => true
  | .bool a, .bool b => a == b
  | .number a, .number b => a.same b
  | .string a, .string b => a == b
  | .array xs, .array ys => sameItems xs ys
  | .object xs, .object ys => sameFields xs ys
  | _, _ => false

/-- Pointwise `same` of item lists. -/
def sameItems : List Value → List Value → Bool
  | [], [] => true
  | x :: xs, y :: ys => same x y && sameItems xs ys
  | _, _ => false

/-- Pointwise `same` of member lists, keys equal. -/
def sameFields : Fields → Fields → Bool
  | [], [] => true
  | (k, x) :: xs, (l, y) :: ys => k == l && same x y && sameFields xs ys
  | _, _ => false

end

/-- The member `key` of an object; nothing for any other document. -/
def get? : Value → String → Option Value
  | .object fs, key => Fields.get? fs key
  | _, _ => none

/-- The text of a string document. -/
def asString? : Value → Option String
  | .string s => some s
  | _ => none

/-- A string document from a string. -/
def str (s : String) : Value := .string s

/-- A number document from a natural number below `2^64`. -/
def nat (n : Nat) : Value := .number (.nat n)

end Value

end DaemonBridge.Json
