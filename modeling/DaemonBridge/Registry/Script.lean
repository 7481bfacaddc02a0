import DaemonBridge.Registry
import DaemonBridge.Diagnostic
import DaemonBridge.Json.Read
import DaemonBridge.Json.Write

/-!
# Registry scripts

A script drives one registry through a list of steps, the way its owners do. Every registration
carries a label and, optionally, a step of its own: its release token. Running the token runs that
step against the registry, if the registry is still there, and then logs the label with the
step's answer. So a token can call back into the registry from inside a release, and the log of
a nested release comes before the log of the release that caused it.

Once the registry is dropped, every entry left is released with the registry gone, and later
steps are refused.

Each step reports its answer, the releases it caused, the diagnostics it raised and the number
of keys held after it. The releases of `releaseAll` and `drop` are reported sorted by their JSON
text, since the order in which they run is no part of the registry's contract.
-/

namespace DaemonBridge

open Json

namespace Registry

/-- A step of a registry script. -/
inductive Step where
  | addShared (key label : String) (next : Option Step)
  | addOnce (key label : String) (next : Option Step)
  | release (key : String)
  | forceRelease (key : String)
  | releaseAll
  | contains (key : String)
  | holders (key : String)
  | size
  | isEmpty
  | drop
  deriving Repr, Inhabited

/-- How many steps a step holds, itself included. -/
def Step.count : Step → Nat
  | .addShared _ _ (some s) => s.count + 1
  | .addOnce _ _ (some s) => s.count + 1
  | _ => 1

/-- A release token of a script: a label, and the step to run on release. -/
structure Token where
  label : String
  next : Option Step
  deriving Repr

/-- A logged release: the label, and the answer of its step if it had one. -/
structure Released where
  label : String
  outcome : Option Value
  deriving Repr

/-- A logged release as a JSON object. -/
def Released.toValue (r : Released) : Value :=
  .object ([("label", .string r.label)] ++ (r.outcome.map fun v => ("then", v)).toList)

/-- The state of a script: the registry (none once dropped), the release log and the
diagnostics raised. -/
structure Bench where
  registry : Option (Registry Token) := some empty
  released : List Released := []
  diagnostics : List Diagnostic := []

/-- The answer to a step after the registry was dropped. -/
def droppedAnswer : Value :=
  .object [("error", .string "BadInput"), ("message", .string "registry dropped")]

/-- The answer of a nested step whose release runs after the registry is gone. -/
def goneAnswer : Value := .string "registry gone"

/-- Set the registry. -/
def Bench.put (reg : Option (Registry Token)) : StateM Bench Unit :=
  modify fun b => { b with registry := reg }

/-- Raise a diagnostic. -/
def Bench.report (d : Diagnostic) : StateM Bench Unit :=
  modify fun b => { b with diagnostics := b.diagnostics ++ [d] }

/-- Log a release. -/
def Bench.log (r : Released) : StateM Bench Unit :=
  modify fun b => { b with released := b.released ++ [r] }

mutual

/-- Run a step. `fuel` bounds how deeply releases nest; each level runs a step of the script
that has not run before, so the number of steps in the script is enough. -/
def run : Nat → Step → StateM Bench Value
  | 0, _ => pure droppedAnswer
  | fuel + 1, step => do
    match (← get).registry with
    | none =>
      match step with
      | .drop => pure (.bool false)
      | _ => pure droppedAnswer
    | some reg =>
      match step with
      | .addShared key label next =>
        let (n, extra, reg') := reg.addShared key ⟨label, next⟩
        Bench.put (some reg')
        runTokens fuel extra.toList
        pure (.nat n)
      | .addOnce key label next =>
        let (stored, extra, reg') := reg.addOnce key ⟨label, next⟩
        Bench.put (some reg')
        runTokens fuel extra.toList
        pure (.bool stored)
      | .release key =>
        let (outcome, reg') := reg.release key
        Bench.put (some reg')
        match outcome with
        | .missing => do Bench.report (.unknownSubscriptionKey key); pure (.bool false)
        | .held _ => pure (.bool false)
        | .removed t => do runTokens fuel [t]; pure (.bool true)
      | .forceRelease key =>
        let (token, reg') := reg.forceRelease key
        Bench.put (some reg')
        runTokens fuel token.toList
        pure (.bool token.isSome)
      | .releaseAll =>
        let (tokens, reg') := reg.releaseAll
        Bench.put (some reg')
        runTokens fuel tokens
        pure (.nat tokens.length)
      | .contains key => pure (.bool (reg.contains key))
      | .holders key => pure ((reg.holders? key).elim .null Value.nat)
      | .size => pure (.nat reg.size)
      | .isEmpty => pure (.bool (reg.size == 0))
      | .drop =>
        let (tokens, _) := reg.releaseAll
        Bench.put none
        runTokens fuel tokens
        pure (.bool true)
termination_by fuel => (fuel, 0, 0)

/-- Run release tokens in order: each runs its step, if the registry is still there, and is
then logged. -/
def runTokens : Nat → List Token → StateM Bench Unit
  | _, [] => pure ()
  | fuel, t :: ts => do
    let outcome ← match t.next with
      | none => pure none
      | some s => do
        if (← get).registry.isSome then some <$> run fuel s else pure (some goneAnswer)
    Bench.log ⟨t.label, outcome⟩
    runTokens fuel ts
termination_by fuel ts => (fuel, 1, ts.length)

end

/-- What one step of a script reports. -/
structure Report where
  answer : Value
  released : List Released
  diagnostics : List Diagnostic
  size : Option Nat

/-- A report as a JSON object. -/
def Report.toValue (r : Report) : Value :=
  .object [("r", r.answer), ("released", .array (r.released.map (·.toValue))),
    ("diag", .array (r.diagnostics.map (·.toValue))), ("len", (r.size.elim .null Value.nat))]

/-- Whether a step's releases run in no fixed order, so that they are reported sorted. -/
def Step.releasesAll : Step → Bool
  | .releaseAll | .drop => true
  | _ => false

/-- Run a top-level step and report it. -/
def runReported (fuel : Nat) (step : Step) : StateM Bench Report := do
  let before ← get
  let answer ← run fuel step
  let after ← get
  let released := after.released.drop before.released.length
  let released := if step.releasesAll then
      released.mergeSort fun a b => decide (a.toValue.compact ≤ b.toValue.compact)
    else released
  pure ⟨answer, released, after.diagnostics.drop before.diagnostics.length,
    after.registry.map (·.size)⟩

/-- Run a script on a fresh registry, reporting every step. -/
def runScript (steps : List Step) : List Report :=
  let fuel := steps.foldl (fun n s => n + s.count) 1
  (steps.mapM (runReported fuel) |>.run {}).run.1

/-- A step written as a JSON object with its kind under `do`; `fuel` bounds the nesting of
`then`, and the nesting of a document read by `Value.parse` is below `Reader.nestingLimit`. -/
def Step.ofValueFor : Nat → Value → Except String Step
  | 0, _ => .error "steps nest too deeply"
  | fuel + 1, v => do
    let text := fun (k : String) => match v.get? k with
      | some (.string s) => Except.ok s
      | _ => .error ("missing string field '" ++ k ++ "'")
    let next : Except String (Option Step) := match v.get? "then" with
      | none | some .null => .ok none
      | some w => some <$> Step.ofValueFor fuel w
    match v.get? "do" with
    | some (.string "add_shared") => return .addShared (← text "key") (← text "label") (← next)
    | some (.string "add_once") => return .addOnce (← text "key") (← text "label") (← next)
    | some (.string "release") => return .release (← text "key")
    | some (.string "force_release") => return .forceRelease (← text "key")
    | some (.string "release_all") => return .releaseAll
    | some (.string "contains") => return .contains (← text "key")
    | some (.string "ref_count") => return .holders (← text "key")
    | some (.string "len") => return .size
    | some (.string "is_empty") => return .isEmpty
    | some (.string "drop") => return .drop
    | some (.string other) => .error ("unknown registry step '" ++ other ++ "'")
    | _ => .error "missing string field 'do'"

/-- A step written as a JSON object. -/
def Step.ofValue (v : Value) : Except String Step := Step.ofValueFor (Reader.nestingLimit + 1) v

end Registry

end DaemonBridge
