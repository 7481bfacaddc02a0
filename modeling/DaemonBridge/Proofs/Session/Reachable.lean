import Mathlib
import DaemonBridge.Proofs.Effect
import DaemonBridge.Proofs.Session.WaitKeys

/-!
# Reachable sessions

A session's event loop as a step relation. Each synchronous section is one atomic move:

* a script step (a command dispatched, a notification published, a key released, a task
  dropped, the timer advanced, …), run to its end;
* a poll of any task, which runs it from where it stopped: its start, or the wait on the result
  or on the timer;
* the end of a task's send that was left under way, refused or handed over, the task carrying on
  from it at once (`endSend`);
* the bookkeeping of the script runner: taking a task off the queue of woken ones, and
  clearing the logs of the last step.

Tasks are polled, and sends end, in any order, so every interleaving of the tasks with each other
and with the steps is a run: a send may end after any number of other moves, or never. A listener may be registered under any key but a command's wait key, which
belongs to the correlator (`Step.Admissible`).

`Reachable.runReported` shows that the runner's own schedule is one of these runs: every state a
script passes through is reachable.
-/

namespace DaemonBridge

namespace Session

/-- A listener is never registered under a command's wait key. -/
def Step.Admissible : Step → Prop
  | .listen _ key _ => ¬ IsWaitKey key
  | _ => True

/-- One atomic move of a session. -/
inductive Move : Session → Session → Prop
  | step {s : Session} (a : Step) : a.Admissible → Move s (after a.run s)
  | poll {s : Session} (i : Nat) : Move s (after (poll i) s)
  | endSend {s : Session} (i : Nat) (ended : Option String) : Move s (after (endSend i ended) s)
  | dequeue {s : Session} : Move s { s with queue := s.queue.tail }
  | clearLogs {s : Session} : Move s { s with sent := [], done := [], calls := [], diagnostics := [] }

/-- The sessions a fresh one reaches by moves. -/
inductive Reachable : Session → Prop
  | new (refusal : String) : Reachable (new refusal)
  | move {s s' : Session} : Reachable s → Move s s' → Reachable s'

variable {s : Session}

/-- Running the queue polls the woken tasks one after another. -/
theorem Reachable.runQueue (hs : Reachable s) (fuel : Nat) : Reachable (after (runQueue fuel) s) := by
  induction fuel generalizing s with
  | zero => exact hs
  | succ fuel ih =>
    simp only [Session.runQueue, after_bind, answer_get, after_get]
    split
    · exact hs
    · next i rest hq =>
      simp only [after_bind, after_modify]
      -- the runner takes the head off the queue, then polls it
      have hd : Reachable { s with queue := rest } := by
        simpa [hq] using hs.move Move.dequeue
      exact ih (hd.move (.poll i))

theorem Reachable.settle (hs : Reachable s) : Reachable (after settle s) :=
  hs.runQueue _

/-- A script step that registers no listener under a wait key leads from a reachable session to
a reachable one, logs, step and settling included. -/
theorem Reachable.runReported (hs : Reachable s) (v : Json.Value)
    (hv : ∀ a, Step.ofValue v = .ok a → a.Admissible) : Reachable (after (runReported v) s) := by
  simp only [Session.runReported, after_bind, after_modify]
  have hc := hs.move Move.clearLogs
  split
  · next a ha =>
    simp only [after_bind, after_get, after_pure]
    exact (hc.move (.step a (hv a ha))).settle
  · simp only [after_bind, after_get, after_pure]
    exact hc.settle

end Session

end DaemonBridge
