/-!
# Similar names

When a word on the command line names nothing, the names it resembles are offered instead. Two
texts resemble each other when their Jaro similarity is above `7 / 10`.

The Jaro similarity of `a` and `b` counts the characters of `a` that match an unmatched equal
character of `b` no further away than `max |a| |b| / 2 - 1` positions (`m` of them, each taken
with the first such character of `b`), and `t`, half the number of places where the matched
characters of the two, each read in order, differ (rounded down). It is
`(m / |a| + m / |b| + (m - t) / m) / 3`, and `0` when nothing matches.

Similarities are kept as exact fractions, so that comparing them never rounds.
-/

namespace DaemonBridge

namespace Args

/-- A similarity, as the fraction `num / den`. -/
structure Similarity where
  num : Nat
  den : Nat
  deriving DecidableEq, Repr

namespace Similarity

/-- Whether one similarity is at most another. -/
def le (x y : Similarity) : Bool := x.num * y.den ≤ y.num * x.den

/-- Whether a similarity is high enough for a name to be offered. -/
def close (x : Similarity) : Bool := 7 * x.den < 10 * x.num

end Similarity

/-- The characters of `a` that match one of `b`, as flags over `a` and over `b`. -/
def matchFlags (a b : List Char) : List Bool × List Bool :=
  let window := max a.length b.length / 2 - 1
  let step := fun ((fa, fb) : List Bool × List Bool) ((c, i) : Char × Nat) =>
    let hi := min b.length (i + window + 1)
    let free := fun (j : Nat) => i - window ≤ j && j < hi && b.getD j ' ' == c && !fb.getD j true
    match (List.range b.length).find? free with
    | some j => (fa ++ [true], fb.set j true)
    | none => (fa ++ [false], fb)
  a.zipIdx.foldl step ([], List.replicate b.length false)

/-- The characters whose flag is set, in order. -/
def flagged (cs : List Char) (flags : List Bool) : List Char :=
  (cs.zip flags).filterMap fun (c, f) => if f then some c else none

/-- The Jaro similarity of two texts. -/
def jaro (a b : String) : Similarity :=
  let ca := a.toList
  let cb := b.toList
  if ca.isEmpty && cb.isEmpty then ⟨1, 1⟩
  else if ca.isEmpty || cb.isEmpty then ⟨0, 1⟩
  else
    let (fa, fb) := matchFlags ca cb
    let ma := flagged ca fa
    let mb := flagged cb fb
    let m := ma.length
    let t := ((ma.zip mb).filter fun (x, y) => x != y).length / 2
    if m = 0 then ⟨0, 1⟩
    else ⟨m * m * cb.length + m * m * ca.length + (m - t) * ca.length * cb.length,
      3 * ca.length * cb.length * m⟩

/-- The names like `word`, least like it first. -/
def similarNames (word : String) (names : List String) : List String :=
  let scored := (names.map fun n => (jaro word n, n)).filter (·.1.close)
  (scored.mergeSort fun x y => x.1.le y.1).map (·.2)

/-- The name most like `word`, if any is like it. -/
def mostSimilar? (word : String) (names : List String) : Option String :=
  (similarNames word names).getLast?

example : similarNames "stat" ["status", "mode", "watch", "help"] = ["status"] := by decide +kernel
example : similarNames "CLIENT" ["client", "server"] = [] := by decide +kernel
example : mostSimilar? "Client" ["client", "server"] = some "client" := by decide +kernel

end Args

end DaemonBridge
