/-!
# Source positions in error texts

Error texts may name the source position they were raised at, as a bracketed group
` [file.rs:LINE:COLUMN]`; nested errors can hold several. Such positions depend on where the
program was built, so texts are compared without them: `scrubPositions` deletes every group
whose content is a name ending in `.rs`, a colon, digits, a colon and digits, together with one
space before it.
-/

namespace DaemonBridge

/-- Whether the content of a bracketed group names a source position: read from its end, one or
more digits, a colon, one or more digits, a colon, and `.rs`. -/
def isPosition (content : List Char) : Bool :=
  let r := content.reverse
  let column := r.takeWhile Char.isDigit
  match r.drop column.length with
  | ':' :: r =>
    let line := r.takeWhile Char.isDigit
    match r.drop line.length with
    | ':' :: 's' :: 'r' :: '.' :: _ => !column.isEmpty && !line.isEmpty
    | _ => false
  | _ => false

/-- The kept text without one space at its end; texts are kept reversed. -/
def dropSpace : List Char → List Char
  | ' ' :: kept => kept
  | kept => kept

/-- Delete the position groups from a list of characters. `out` is the text kept so far and
`group` the content of the bracketed group being read, if any, both reversed. -/
def scrubChars (out : List Char) (group : Option (List Char)) : List Char → List Char
  | [] =>
    match group with
    | some g => (g ++ '[' :: out).reverse
    | none => out.reverse
  | c :: rest =>
    match group with
    | none => if c == '[' then scrubChars out (some []) rest else scrubChars (c :: out) none rest
    | some g =>
      if c == ']' then
        if isPosition g.reverse then scrubChars (dropSpace out) none rest
        else scrubChars ((']' :: g) ++ '[' :: out) none rest
      else if c == '[' then scrubChars (g ++ '[' :: out) (some []) rest
      else scrubChars out (some (c :: g)) rest

/-- The text without the source positions it names. -/
def scrubPositions (s : String) : String := String.ofList (scrubChars [] none s.toList)

example : scrubPositions "Unknown Event Error: 'x' [lib/reader.rs:124:54]" =
    "Unknown Event Error: 'x'" := by decide +kernel
example : scrubPositions "a [b] [x.rs:1:2] [c.rs:1:]" = "a [b] [c.rs:1:]" := by decide +kernel

end DaemonBridge
