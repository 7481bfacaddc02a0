import DaemonBridge.Session.Publish

/-!
# Tasks

A task runs in stages. Started, it opens a wait for its command's result: one subscription on the
success kind, one on the error kind if that differs, and a registry key releasing both and
dropping the slot. Then it sends the command, and carries on from the send's end (`carry`):

* a refused send releases the wait and fails the task;
* a send still under way leaves the task sending; the send ends in a later move (`endSend`),
  refused or handed over, and the task carries on from there as it would have at once;
* a command handed over at once is recorded, the daemon's next batch of answers (if any) is
  published, and the task follows it up (`proceed`) and waits on its slot.

A waiting task, when woken, takes its slot's result if one came, fails as cancelled if the slot
was dropped, and otherwise times out once its deadline has passed, releasing its wait. A switch
task first records its wait with the coordinator, and commits or reverts only under its own
generation.

Aborting a task releases its wait; an aborted switch still current puts the last stable mode back.
-/

namespace DaemonBridge

namespace Session

open Json

/-- The task with an index. -/
def task? (i : Nat) : SessionM (Option Task) := do pure (← get).tasks[i]?

/-- Change a task's stage. -/
def setStage (i : Nat) (stage : Stage) : SessionM Unit :=
  modify fun s => { s with tasks := s.tasks.modify i fun t => { t with stage } }

/-- Record what a task produced, and finish it. -/
def finish (i : Nat) (o : Outcome) : SessionM Unit := do
  setStage i .finished
  modify fun s => { s with done := s.done ++ [(i, o)] }

/-- Spawn a task: its index. It runs when the queue is next run. -/
def spawn (job : Job) : SessionM Nat := do
  let i := (← get).tasks.length
  modify fun s => { s with tasks := s.tasks ++ [{ job }] }
  wake i
  pure i

/-- Open a wait of task `owner` for `command`'s result: its id. -/
def openWait (owner : Nat) (success failure : EventKind) (command : CommandKind)
    (target : Option ServiceMode) : SessionM Nat := do
  let w := (← get).waits.length
  let key := waitKeyOf command w
  modify fun s => { s with waits := s.waits ++ [{ key, command, owner }] }
  let successId ← subscribe success.wireName (.waitSuccess w command target)
  let handles ← if failure == success then pure [(success.wireName, successId)]
    else do
      let failureId ← subscribe failure.wireName (.waitError w command)
      pure [(success.wireName, successId), (failure.wireName, failureId)]
  discard (addOnce key (.wait w handles))
  pure w

/-- How a send ended. -/
inductive Sending where
  | refused (message : String)
  | stalled
  | delivered

/-- Hand a command to the transport. -/
def send (command : CommandKind) (params : Option Value) : SessionM Sending := do
  let s ← get
  if s.refusing then pure (.refused s.refusal)
  else if s.stalling then pure .stalled
  else do
    let batch := s.responses.head?.getD []
    set { s with sent := s.sent ++ [SentCommand.mk command params], responses := s.responses.drop 1 }
    batch.forM fun e => discard (publish e)
    pure .delivered

/-- A send under way ends: refused with a message, or handed over, and then recorded. The
daemon's answers to a command handed over this late come as notifications of their own. -/
def sendEnd (command : CommandKind) (params : Option Value) : Option String → SessionM Sending
  | some message => pure (.refused message)
  | none => do
    modify fun s => { s with sent := s.sent ++ [SentCommand.mk command params] }
    pure .delivered

/-- How a dispatch stands after its send: refused, still sending, or sent with its wait open. -/
inductive Dispatched where
  | refused (e : CommandError)
  | stalled (wait : Nat)
  | sent (wait : Nat)

/-- What a send of `command` under wait `w` leaves of its dispatch: a refused send takes the
wait's key out again. -/
def sendEnded (command : CommandKind) (w : Nat) : Sending → SessionM Dispatched
  | .refused message => do
    discard (forceRelease (waitKeyOf command w))
    pure (.refused (.dispatch command message))
  | .stalled => pure (.stalled w)
  | .delivered => pure (.sent w)

/-- Open a wait for `command`'s result and send it. -/
def dispatchFor (owner : Nat) (success failure : EventKind) (command : CommandKind)
    (params : Option Value) (target : Option ServiceMode) : SessionM Dispatched := do
  let w ← openWait owner success failure command target
  sendEnded command w (← send command params)

/-- The parameters of a switch command. -/
def switchParams (target : ServiceMode) : Value := .object [("service", .string target.name)]

/-- The command a task sends. -/
def Job.command : Job → CommandKind
  | .switchMode .. => .serviceChoice
  | .refreshStatus _ => .status
  | .dispatch _ _ command _ _ => command

/-- The parameters a task's command is sent with. -/
def Job.params : Job → Option Value
  | .switchMode target _ => some (switchParams target)
  | .refreshStatus _ => none
  | .dispatch _ _ _ params _ => params

/-- The kind that answers a task's command. -/
def Job.success : Job → EventKind
  | .dispatch success .. => success
  | _ => .commandSuccess

/-- The kind that reports a task's command as failed. -/
def Job.failure : Job → EventKind
  | .dispatch _ failure .. => failure
  | _ => .commandError

/-- The mode a switch task also needs reported in its answer. -/
def Job.target? : Job → Option ServiceMode
  | .switchMode target _ => some target
  | _ => none

/-- Open a wait for a task's command and send it. -/
def dispatchJob (i : Nat) (j : Job) : SessionM Dispatched :=
  dispatchFor i j.success j.failure j.command j.params j.target?

/-- A status answer taken in: its snapshot, whose mode is adopted. -/
def takeStatus (e : Envelope) : SessionM Outcome := do
  match e.result? with
  | some r =>
    match StatusSnapshot.ofValue r with
    | .ok snap => do discard (applySnapshot snap); pure (.status snap)
    | .error err => pure (.statusFailed err)
  | none => do discard (applySnapshot {}); pure (.status {})

/-- Finish a task with the reply its wait got. -/
def conclude (i : Nat) (t : Task) (reply : Reply) : SessionM Unit := do
  match t.job, reply with
  | .switchMode target _, .answer _ =>
    if ← commit t.generation target then finish i (.switched target)
    else finish i (.switchFailed (.superseded target))
  | .switchMode target _, .failure e => finish i (.switchFailed (← failSwitch t.generation target e))
  | .refreshStatus _, .answer e => finish i (← takeStatus e)
  | .refreshStatus _, .failure e => finish i (.statusFailed (.status e.userMessage))
  | .dispatch .., .answer e => finish i (.answered e)
  | .dispatch .., .failure e => finish i (.commandFailed e)

/-- Run a waiting task as far as its slot and its deadline let it. -/
def resume (i : Nat) (t : Task) (w : Nat) (deadline : Option (Nat × Nat)) : SessionM Unit := do
  match ← wait? w with
  | none => pure ()
  | some x =>
    match x.slot with
    | .filled reply => conclude i t reply
    | .dropped => conclude i t (.failure (.cancelled x.command))
    | .empty =>
      match deadline with
      | some (due, limit) =>
        if due ≤ (← get).clock then do
          discard (forceRelease x.key)
          conclude i t (.failure (.timeout x.command (.ofMillis limit)))
        else pure ()
      | none => pure ()

/-- Wait on a slot, with a deadline when the task has a timeout. -/
def awaitSlot (i : Nat) (w : Nat) (timeout : Option Nat) : SessionM Unit := do
  let clock := (← get).clock
  let deadline := timeout.map fun ms => (clock + ms, ms)
  setStage i (.awaiting w deadline)
  match ← task? i with
  | some t => resume i t w deadline
  | none => pure ()

/-- Follow up a command handed over under wait `w`. A switch records its wait with the
coordinator, unless a newer transition superseded it during the send: then it takes the wait's key
out and fails. A dispatch makes its wait key known. Then the task waits on its slot. -/
def proceed (i : Nat) (t : Task) (w : Nat) : SessionM Unit :=
  match t.job with
  | .switchMode target timeout => do
    let key := waitKeyOf .serviceChoice w
    if ← track t.generation key then awaitSlot i w timeout
    else do
      discard (forceRelease key)
      finish i (.switchFailed (.superseded target))
  | .refreshStatus timeout => awaitSlot i w timeout
  | .dispatch _ _ command _ timeout => do
    modify fun s => { s with keys := s.keys ++ [(i, waitKeyOf command w)] }
    awaitSlot i w timeout

/-- Carry a task on from its send: a refused send fails it as a failed reply would, a send under
way leaves it sending, and a command handed over is followed up. -/
def carry (i : Nat) (t : Task) : Dispatched → SessionM Unit
  | .refused e => conclude i t (.failure e)
  | .stalled w => setStage i (.sending w)
  | .sent w => proceed i t w

/-- Start a task. A switch first begins, under a new generation that the task records, unless its
target is the stable mode already. -/
def start (i : Nat) (t : Task) : SessionM Unit := do
  match t.job with
  | .switchMode target _ =>
    match ← beginSwitch target with
    | none => finish i (.switched target)
    | some g =>
      modify fun s => { s with tasks := s.tasks.modify i fun t => { t with generation := g } }
      carry i { t with generation := g } (← dispatchJob i t.job)
  | .refreshStatus _ | .dispatch .. => carry i t (← dispatchJob i t.job)

/-- Run a woken task. -/
def poll (i : Nat) : SessionM Unit := do
  match ← task? i with
  | some t =>
    match t.stage with
    | .ready => start i t
    | .awaiting w deadline => resume i t w deadline
    | .sending _ | .finished => pure ()
  | none => pure ()

/-- The send of task `i`'s command, under way since its start, ends: refused with a message, or
handed over (`none`). The task carries on from its send as its start would have. -/
def endSend (i : Nat) (ended : Option String) : SessionM Unit := do
  match ← task? i with
  | some t =>
    match t.stage with
    | .sending w =>
      carry i t (← sendEnded t.job.command w (← sendEnd t.job.command t.job.params ended))
    | _ => pure ()
  | none => pure ()

/-- Run queued tasks, in the order they were woken, until none is left or `fuel` polls are
spent. -/
def runQueue : Nat → SessionM Unit
  | 0 => pure ()
  | fuel + 1 => do
    match (← get).queue with
    | [] => pure ()
    | i :: rest => do
      modify fun s => { s with queue := rest }
      poll i
      runQueue fuel

/-- Run every task that can run. A task is woken at most once by its start, once by its slot
and once by its deadline, so this many polls are enough. -/
def settle : SessionM Unit := do
  let s ← get
  runQueue (4 * (s.tasks.length + 1) + s.queue.length)

/-- Abort a task: false for an unknown index. A task still sending or waiting releases its wait,
and a switch still current puts the last stable mode back; the task reports nothing. -/
def abort (i : Nat) : SessionM Bool := do
  match ← task? i with
  | none => pure false
  | some t =>
    let wait := match t.stage with
      | .sending w | .awaiting w _ => some w
      | _ => none
    match wait with
    | some w => do
      match ← wait? w with
      | some x => discard (forceRelease x.key)
      | none => pure ()
      match t.job with
      | .switchMode .. => abandonSwitch t.generation
      | _ => pure ()
      setStage i .finished
    | none => pure ()
    pure true

/-- Move the clock on by `ms`, waking the tasks whose deadline has come, earliest first. -/
def advance (ms : Nat) : SessionM Unit := do
  modify fun s => { s with clock := s.clock + ms }
  let s ← get
  let due := s.tasks.zipIdx.filterMap fun (t, i) => match t.stage with
    | .awaiting _ (some (deadline, _)) => if deadline ≤ s.clock then some (deadline, i) else none
    | _ => none
  (due.mergeSort fun a b => a.1 ≤ b.1).forM fun (_, i) => wake i

end Session

end DaemonBridge
