import DaemonBridge.Session.State

/-!
# The mode coordinator

The shown mode moves with local switch requests and with what the daemon reports. Every
transition bumps the generation, and a switch commits or reverts only under the generation it
began with: so a newer request, a status snapshot or a cancel supersedes a switch in flight.
Whatever supersedes a switch also releases its wait, so at most one switch wait is held.
-/

namespace DaemonBridge

namespace Session

/-- The state put back when a switch is abandoned: the last stable mode, or unknown. -/
def revertedState (m : ModeState) : ModeState :=
  ⟨m.previous.elim (.pending none) ActiveService.ofMode, none⟩

/-- The session showing a new mode state to the coordinator's watchers. -/
def showing (s : Session) (m : ModeState) : Session :=
  { s with mode := m, shown := s.shown ++ [m] }

/-- Take the switch wait's key out of the coordinator. -/
def takeWaitKey : SessionM (Option String) := do
  let key := (← get).waitKey
  modify fun s => { s with waitKey := none }
  pure key

/-- Release the switch wait taken out, if there was one. -/
def releaseStale (key : Option String) : SessionM Unit := do
  match key with
  | some k => discard (forceRelease k)
  | none => pure ()

/-- Begin a switch to `target`: the new generation, or none when `target` is already the stable
mode. A switch in flight is superseded and its wait released. -/
def beginSwitch (target : ServiceMode) : SessionM (Option Nat) := do
  let s ← get
  if s.mode.stable == some target then pure none
  else
    let previous := s.mode.stable.orElse fun _ => s.mode.previous
    set ({ s with generation := s.generation + 1 }.showing ⟨.pending (some target), previous⟩)
    releaseStale (← takeWaitKey)
    pure (some (s.generation + 1))

/-- Record the wait of the switch of generation `g`: false if it was superseded. -/
def track (g : Nat) (key : String) : SessionM Bool := do
  let s ← get
  if s.generation != g then pure false
  else do set { s with waitKey := some key }; pure true

/-- Make a switch's target the stable mode, if its generation is current. -/
def commit (g : Nat) (target : ServiceMode) : SessionM Bool := do
  let s ← get
  if s.generation != g then pure false
  else do
    set ({ s with waitKey := none }.showing ⟨.ofMode target, s.mode.previous⟩)
    pure true

/-- Put the last stable mode back after a failed switch, if its generation is current. -/
def revert (g : Nat) : SessionM Bool := do
  let s ← get
  if s.generation != g then pure false
  else do
    set ({ s with waitKey := none }.showing (revertedState s.mode))
    pure true

/-- The error of a switch that failed: superseded if a newer transition came, else the mode is
put back and the failure reported. -/
def failSwitch (g : Nat) (target : ServiceMode) (e : CommandError) : SessionM ModeError := do
  if !(← revert g) then pure (.superseded target)
  else do
    report (.modeSwitchFailed target e.userMessage)
    match e with
    | .timeout _ limit => pure (.timeout target limit)
    | other => pure (.switch target other)

/-- A switch of generation `g` abandoned by its caller: if still current, the mode is put back
and its wait released. -/
def abandonSwitch (g : Nat) : SessionM Unit := do
  let s ← get
  if s.generation == g then do
    set ({ s with generation := s.generation + 1 }.showing (revertedState s.mode))
    releaseStale (← takeWaitKey)

/-- Adopt a mode the daemon reports, superseding any switch in flight. The previous mode is the
stable one left, if it differs, else the one kept, if it differs. -/
def observe (m : ServiceMode) : SessionM Unit := do
  let s ← get
  let previous := match s.mode.stable with
    | some current => if current != m then some current else s.mode.previous.filter (· != m)
    | none => s.mode.previous.filter (· != m)
  set ({ s with generation := s.generation + 1 }.showing ⟨.ofMode m, previous⟩)
  releaseStale (← takeWaitKey)

/-- Give up the switch in flight and show the last stable mode: false when none was in flight. -/
def cancelSwitch : SessionM Bool := do
  let s ← get
  match s.mode.active with
  | .pending (some _) => do
    set ({ s with generation := s.generation + 1 }.showing (revertedState s.mode))
    releaseStale (← takeWaitKey)
    pure true
  | _ => pure false

/-- Show a mode before anything is known: false once the mode is known or switching. -/
def assume (m : ServiceMode) : SessionM Bool := do
  let s ← get
  if s.mode.active != .pending none then pure false
  else do
    set (s.showing { s.mode with active := .ofMode m })
    pure true

/-- Adopt the mode a snapshot shows: the mode, or none when it shows none. -/
def applySnapshot (snap : StatusSnapshot) : SessionM (Option ServiceMode) := do
  match snap.activeMode with
  | some m => do observe m; pure (some m)
  | none => pure none

/-- The registry key of the `service_started` subscription. -/
def serviceStartedKey : String := "mode:service_started"

/-- Take `service_started` notifications as the mode: false if already attached. -/
def attachServiceStarted : SessionM Bool := do
  let name := EventKind.serviceStarted.wireName
  let id ← subscribe name .serviceStarted
  addOnce serviceStartedKey (.unsubscribe name id)

/-- Stop taking `service_started` notifications: whether they were taken. -/
def detachServiceStarted : SessionM Bool := forceRelease serviceStartedKey

end Session

end DaemonBridge
