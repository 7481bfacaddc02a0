import Mathlib
import DaemonBridge.Proofs.Effect
import DaemonBridge.Proofs.Registry.Basic
import DaemonBridge.Session.Tasks

/-!
# What each session primitive does

One equation per primitive of a session: the state it leaves (`after`) and, where it matters, the
answer it gives. Later proofs rewrite with these and never unfold the primitives. The registry
operations are given through what the registry itself answers, and through `runRelease`, which
is what every path that takes an entry out runs.
-/

namespace DaemonBridge

namespace Session

variable {s : Session}

@[simp] theorem after_subscribe (name : String) (h : Handler) :
    after (subscribe name h) s = { s with bus := (s.bus.subscribe name h).2 } := rfl

@[simp] theorem answer_subscribe (name : String) (h : Handler) :
    answer (subscribe name h) s = s.bus.nextId := rfl

@[simp] theorem after_unsubscribe (name : String) (id : Nat) :
    after (unsubscribe name id) s = { s with bus := s.bus.unsubscribe name id } := rfl

@[simp] theorem after_wake (i : Nat) :
    after (wake i) s = if s.queue.contains i then s else { s with queue := s.queue ++ [i] } := rfl

/-- Waking a task touches the queue only. -/
theorem after_wake_eq (i : Nat) : ∃ q, after (wake i) s = { s with queue := q } := by
  rw [after_wake]
  split
  · exact ⟨s.queue, rfl⟩
  · exact ⟨_, rfl⟩

@[simp] theorem after_report (d : Diagnostic) :
    after (report d) s = { s with diagnostics := s.diagnostics ++ [d] } := rfl

@[simp] theorem after_logCall (c : String) :
    after (logCall c) s = { s with calls := s.calls ++ [c] } := rfl

@[simp] theorem after_wait? (w : Nat) : after (wait? w) s = s := rfl

@[simp] theorem answer_wait? (w : Nat) : answer (wait? w) s = s.waits[w]? := rfl

@[simp] theorem after_setSlot (w : Nat) (slot : Slot) :
    after (setSlot w slot) s = { s with waits := s.waits.modify w fun x => { x with slot } } := rfl

theorem after_dropSlot_empty {w : Nat} {x : Wait} (hw : s.waits[w]? = some x)
    (hx : x.slot = .empty) :
    after (dropSlot w) s =
      after (wake x.owner) { s with waits := s.waits.modify w fun x => { x with slot := .dropped } } := by
  simp [dropSlot, hw, hx]

theorem after_dropSlot_taken {w : Nat} {x : Wait} (hw : s.waits[w]? = some x)
    (hx : x.slot ≠ .empty) : after (dropSlot w) s = s := by
  simp [dropSlot, hw, hx]

theorem after_dropSlot_none {w : Nat} (hw : s.waits[w]? = none) : after (dropSlot w) s = s := by
  simp [dropSlot, hw]

theorem after_runRelease_wait (w : Nat) (handles : List (String × Nat)) :
    after (runRelease (.wait w handles)) s =
      after (dropSlot w)
        { s with bus := handles.foldl (fun b (p : String × Nat) => b.unsubscribe p.1 p.2) s.bus } := by
  simp only [runRelease, after_bind, after_forM]
  congr 1
  induction handles generalizing s with
  | nil => rfl
  | cons p rest ih => exact ih

@[simp] theorem after_runRelease_unsubscribe (name : String) (id : Nat) :
    after (runRelease (.unsubscribe name id)) s = { s with bus := s.bus.unsubscribe name id } := rfl

variable {key : String} {e : Registry.Entry Release}

theorem after_forceRelease_none (h : s.registry.find? key = none) :
    after (forceRelease key) s = s := by
  simp [forceRelease, Registry.forceRelease, h]

theorem after_forceRelease_some (h : s.registry.find? key = some e) :
    after (forceRelease key) s = after (runRelease e.token) { s with registry := s.registry.erase key } := by
  simp [forceRelease, Registry.forceRelease, h]

theorem answer_forceRelease : answer (forceRelease key) s = (s.registry.find? key).isSome := by
  cases h : s.registry.find? key <;> simp [forceRelease, Registry.forceRelease, h]

theorem after_releaseKey_none (h : s.registry.find? key = none) :
    after (releaseKey key) s = { s with diagnostics := s.diagnostics ++ [.unknownSubscriptionKey key] } := by
  simp [releaseKey, Registry.release, h]

theorem after_releaseKey_held (h : s.registry.find? key = some e) (hn : 1 < e.holders) :
    after (releaseKey key) s = { s with registry := s.registry.leave key } := by
  simp [releaseKey, Registry.release, h, hn]

theorem after_releaseKey_last (h : s.registry.find? key = some e) (hn : ¬ 1 < e.holders) :
    after (releaseKey key) s = after (runRelease e.token) { s with registry := s.registry.erase key } := by
  simp [releaseKey, Registry.release, h, hn]

theorem after_releaseAll :
    after releaseAll s = (s.registry.releaseAll).1.foldl (fun t r => after (runRelease r) t)
      { s with registry := s.registry.releaseAll.2 } := by
  simp only [Session.releaseAll, after_bind, answer_get, after_get, after_modify, after_forM]
  rfl

theorem after_addOnce (key : String) (r : Release) :
    after (addOnce key r) s = (s.registry.addOnce key r).2.1.toList.foldl
      (fun t r => after (runRelease r) t) { s with registry := (s.registry.addOnce key r).2.2 } := by
  simp only [addOnce, after_bind, answer_get, after_get, after_modify, after_forM]
  rfl

theorem after_addShared (key : String) (r : Release) :
    after (addShared key r) s = (s.registry.addShared key r).2.1.toList.foldl
      (fun t r => after (runRelease r) t) { s with registry := (s.registry.addShared key r).2.2 } := by
  simp only [addShared, after_bind, answer_get, after_get, after_modify, after_forM]
  rfl

/-! ## What the releases leave alone -/

/-- A release changes the bus, the waits and the run queue only. -/
theorem after_runRelease_eq (r : Release) :
    ∃ bus waits queue, after (runRelease r) s = { s with bus, waits, queue } := by
  cases r with
  | unsubscribe n id => exact ⟨_, s.waits, s.queue, rfl⟩
  | wait w hs =>
    rw [after_runRelease_wait]
    cases hx : s.waits[w]? with
    | none =>
      rw [after_dropSlot_none ?_]
      · exact ⟨_, s.waits, s.queue, rfl⟩
      · exact hx
    | some x =>
      by_cases hslot : x.slot = .empty
      · rw [after_dropSlot_empty ?_ hslot]
        · obtain ⟨q, hq⟩ := after_wake_eq (x.owner)
            (s := { s with bus := hs.foldl (fun b (p : String × Nat) => b.unsubscribe p.1 p.2) s.bus,
                           waits := s.waits.modify w fun x => { x with slot := .dropped } })
          exact ⟨_, _, q, hq⟩
        · exact hx
      · rw [after_dropSlot_taken ?_ hslot]
        · exact ⟨_, s.waits, s.queue, rfl⟩
        · exact hx

/-- Taking a key out changes the bus, the waits and the run queue, and erases the key. -/
theorem after_forceRelease_eq (key : String) :
    ∃ bus waits queue, after (forceRelease key) s =
      { s with bus, waits, queue, registry := s.registry.erase key } := by
  cases hf : s.registry.find? key with
  | none =>
    rw [after_forceRelease_none hf, Registry.erase_of_find?_none hf]
    exact ⟨s.bus, s.waits, s.queue, rfl⟩
  | some e =>
    rw [after_forceRelease_some hf]
    obtain ⟨bus, waits, queue, h⟩ := after_runRelease_eq (s := { s with registry := s.registry.erase key })
      e.token
    exact ⟨bus, waits, queue, h⟩

/-- Releasing a key changes the bus, the waits, the run queue, the registry and the
diagnostics only. -/
theorem after_releaseKey_eq (key : String) :
    ∃ bus waits queue registry diagnostics, after (releaseKey key) s =
      { s with bus, waits, queue, registry, diagnostics } := by
  cases hf : s.registry.find? key with
  | none =>
    rw [after_releaseKey_none hf]
    exact ⟨s.bus, s.waits, s.queue, s.registry, _, rfl⟩
  | some e =>
    by_cases hn : 1 < e.holders
    · rw [after_releaseKey_held hf hn]
      exact ⟨s.bus, s.waits, s.queue, _, s.diagnostics, rfl⟩
    · rw [after_releaseKey_last hf hn]
      obtain ⟨bus, waits, queue, h⟩ :=
        after_runRelease_eq (s := { s with registry := s.registry.erase key }) e.token
      exact ⟨bus, waits, queue, _, s.diagnostics, h⟩

/-! ## The mode coordinator -/

@[simp] theorem after_takeWaitKey : after takeWaitKey s = { s with waitKey := none } := rfl

@[simp] theorem answer_takeWaitKey : answer takeWaitKey s = s.waitKey := rfl

@[simp] theorem after_releaseStale_none : after (releaseStale none) s = s := rfl

@[simp] theorem after_releaseStale_some (k : String) :
    after (releaseStale (some k)) s = after (forceRelease k) s := rfl

@[simp] theorem mode_showing (m : ModeState) : (s.showing m).mode = m := rfl

@[simp] theorem shown_showing (m : ModeState) : (s.showing m).shown = s.shown ++ [m] := rfl

/-- The state a switch, an observation or a cancel leaves before it releases the switch wait:
the new mode shown under a new generation, and no wait key. -/
def superseded (s : Session) (m : ModeState) : Session :=
  { { s with generation := s.generation + 1 }.showing m with waitKey := none }

theorem after_beginSwitch (target : ServiceMode) :
    after (beginSwitch target) s =
      if s.mode.stable = some target then s
      else after (releaseStale s.waitKey)
        (s.superseded ⟨.pending (some target), s.mode.stable.orElse fun _ => s.mode.previous⟩) := by
  by_cases h : s.mode.stable = some target <;> simp [beginSwitch, h, superseded, showing]

theorem answer_beginSwitch (target : ServiceMode) :
    answer (beginSwitch target) s =
      if s.mode.stable = some target then none else some (s.generation + 1) := by
  by_cases h : s.mode.stable = some target <;> simp [beginSwitch, h]

theorem after_track (g : Nat) (key : String) :
    after (track g key) s = if s.generation = g then { s with waitKey := some key } else s := by
  by_cases h : s.generation = g <;> simp [track, h]

theorem answer_track (g : Nat) (key : String) :
    answer (track g key) s = decide (s.generation = g) := by
  by_cases h : s.generation = g <;> simp [track, h]

theorem after_commit (g : Nat) (target : ServiceMode) :
    after (commit g target) s =
      if s.generation = g then { s with waitKey := none }.showing ⟨.ofMode target, s.mode.previous⟩
      else s := by
  by_cases h : s.generation = g <;> simp [commit, h]

theorem answer_commit (g : Nat) (target : ServiceMode) :
    answer (commit g target) s = decide (s.generation = g) := by
  by_cases h : s.generation = g <;> simp [commit, h]

theorem after_revert (g : Nat) :
    after (revert g) s =
      if s.generation = g then { s with waitKey := none }.showing (revertedState s.mode) else s := by
  by_cases h : s.generation = g <;> simp [revert, h]

theorem answer_revert (g : Nat) : answer (revert g) s = decide (s.generation = g) := by
  by_cases h : s.generation = g <;> simp [revert, h]

theorem after_failSwitch (g : Nat) (target : ServiceMode) (e : CommandError) :
    after (failSwitch g target e) s =
      if s.generation = g then
        after (report (.modeSwitchFailed target e.userMessage))
          ({ s with waitKey := none }.showing (revertedState s.mode))
      else s := by
  by_cases h : s.generation = g
  · cases e <;> simp [failSwitch, after_revert, answer_revert, h]
  · simp [failSwitch, after_revert, answer_revert, h]

theorem after_abandonSwitch (g : Nat) :
    after (abandonSwitch g) s =
      if s.generation = g then after (releaseStale s.waitKey) (s.superseded (revertedState s.mode))
      else s := by
  by_cases h : s.generation = g <;> simp [abandonSwitch, h, superseded, showing]

theorem after_observe (m : ServiceMode) :
    ∃ previous, after (observe m) s =
      after (releaseStale s.waitKey) (s.superseded ⟨.ofMode m, previous⟩) :=
  ⟨_, rfl⟩

theorem after_cancelSwitch_switching {target : ServiceMode}
    (h : s.mode.active = .pending (some target)) :
    after cancelSwitch s = after (releaseStale s.waitKey) (s.superseded (revertedState s.mode)) := by
  simp [cancelSwitch, h, superseded, showing]

theorem after_cancelSwitch_other (h : ∀ target, s.mode.active ≠ .pending (some target)) :
    after cancelSwitch s = s := by
  -- the match on the shown service falls through to its last arm, by `h`
  simp only [cancelSwitch, after_bind, answer_get, after_get]
  rfl

theorem after_assume (m : ServiceMode) :
    after (assume m) s =
      if s.mode.active = .pending none then s.showing { s.mode with active := .ofMode m } else s := by
  by_cases h : s.mode.active = .pending none <;> simp [Session.assume, h]

theorem after_applySnapshot (snap : StatusSnapshot) :
    after (applySnapshot snap) s = (snap.activeMode.elim s fun m => after (observe m) s) := by
  cases h : snap.activeMode <;> simp [applySnapshot, h]

/-! ## What leaves the tasks alone

Only spawning, starting and finishing change the task list: releases, deliveries, publishing and
the mode coordinator leave it as it is. -/

@[simp] theorem tasks_wake (i : Nat) : (after (wake i) s).tasks = s.tasks := by
  obtain ⟨q, h⟩ := after_wake_eq (s := s) i
  rw [h]

@[simp] theorem tasks_runRelease (r : Release) : (after (runRelease r) s).tasks = s.tasks := by
  obtain ⟨_, _, _, h⟩ := after_runRelease_eq (s := s) r
  rw [h]

@[simp] theorem tasks_forceRelease (key : String) : (after (forceRelease key) s).tasks = s.tasks := by
  obtain ⟨_, _, _, h⟩ := after_forceRelease_eq (s := s) key
  rw [h]

@[simp] theorem tasks_releaseKey (key : String) : (after (releaseKey key) s).tasks = s.tasks := by
  obtain ⟨_, _, _, _, _, h⟩ := after_releaseKey_eq (s := s) key
  rw [h]

theorem tasks_foldl_runRelease (rs : List Release) (t : Session) :
    (rs.foldl (fun t r => after (runRelease r) t) t).tasks = t.tasks := by
  induction rs generalizing t with
  | nil => rfl
  | cons r rs ih => rw [List.foldl_cons, ih, tasks_runRelease]

@[simp] theorem tasks_addOnce (key : String) (r : Release) :
    (after (addOnce key r) s).tasks = s.tasks := by
  rw [after_addOnce, tasks_foldl_runRelease]

@[simp] theorem tasks_releaseStale (k : Option String) :
    (after (releaseStale k) s).tasks = s.tasks := by
  cases k <;> simp

theorem tasks_deliver (w : Nat) (reply : Reply) : (after (deliver w reply) s).tasks = s.tasks := by
  cases hx : s.waits[w]? with
  | none => simp [deliver, hx]
  | some x =>
    by_cases hslot : x.slot = .empty
    · simp [deliver, hx, hslot, -after_wake]
    · simp [deliver, hx, hslot]

theorem tasks_beginSwitch (target : ServiceMode) :
    (after (beginSwitch target) s).tasks = s.tasks := by
  rw [after_beginSwitch]
  split <;> simp [superseded, showing]

theorem tasks_track (g : Nat) (key : String) : (after (track g key) s).tasks = s.tasks := by
  rw [after_track]
  split <;> rfl

theorem tasks_commit (g : Nat) (target : ServiceMode) :
    (after (commit g target) s).tasks = s.tasks := by
  rw [after_commit]
  split <;> rfl

theorem tasks_failSwitch (g : Nat) (target : ServiceMode) (e : CommandError) :
    (after (failSwitch g target e) s).tasks = s.tasks := by
  rw [after_failSwitch]
  split <;> rfl

theorem tasks_abandonSwitch (g : Nat) : (after (abandonSwitch g) s).tasks = s.tasks := by
  rw [after_abandonSwitch]
  split <;> simp [superseded, showing]

theorem tasks_observe (m : ServiceMode) : (after (observe m) s).tasks = s.tasks := by
  obtain ⟨previous, h⟩ := after_observe (s := s) m
  rw [h]
  simp [superseded, showing]

theorem tasks_applySnapshot (snap : StatusSnapshot) :
    (after (applySnapshot snap) s).tasks = s.tasks := by
  rw [after_applySnapshot]
  cases snap.activeMode with
  | none => rfl
  | some m => exact tasks_observe m

theorem tasks_handle (e : Envelope) (handler : Handler) :
    (after (handle e handler) s).tasks = s.tasks := by
  cases handler with
  | waitSuccess w command target =>
    simp only [handle, after_ite]
    split
    · exact tasks_deliver w _
    · rfl
  | waitError w command =>
    simp only [handle, after_ite]
    split
    · exact tasks_deliver w _
    · rfl
  | errorWatch command label =>
    simp only [handle, after_ite]
    split <;> rfl
  | listener label => rfl
  | serviceStarted =>
    simp only [handle]
    split
    · split
      · exact tasks_observe _
      · rfl
    · rfl
  | rosterFeed online =>
    simp only [handle, feedRoster, after_bind, answer_get, after_get]
    split <;> rfl

theorem tasks_publish (e : Envelope) : (after (publish e) s).tasks = s.tasks := by
  simp only [publish, after_bind, answer_get, after_get, after_pure]
  exact forM_keeps (P := fun t : Session => t.tasks = s.tasks)
    (fun p _ t ht => (tasks_handle e p.2).trans ht) rfl

theorem tasks_send (command : CommandKind) (params : Option Json.Value) :
    (after (send command params) s).tasks = s.tasks := by
  by_cases hr : s.refusing = true
  · simp [send, hr]
  · by_cases hs : s.stalling = true
    · simp [send, hr, hs]
    · -- the command goes out, and the daemon's next batch of answers is published
      simp only [send, hr, hs, after_bind, answer_get, after_get]
      exact forM_keeps (P := fun t : Session => t.tasks = s.tasks)
        (fun e _ t ht => by simpa [after_discard] using (tasks_publish e).trans ht) rfl

/-! ## The end of a send -/

section SendEnd

variable (command : CommandKind) (params : Option Json.Value) (w : Nat) (m : String)

@[simp] theorem after_sendEnd_refused : after (sendEnd command params (some m)) s = s := rfl

@[simp] theorem answer_sendEnd_refused :
    answer (sendEnd command params (some m)) s = .refused m := rfl

@[simp] theorem after_sendEnd_handed :
    after (sendEnd command params none) s = { s with sent := s.sent ++ [⟨command, params⟩] } := rfl

@[simp] theorem answer_sendEnd_handed : answer (sendEnd command params none) s = .delivered := rfl

@[simp] theorem after_sendEnded_refused :
    after (sendEnded command w (.refused m)) s = after (forceRelease (waitKeyOf command w)) s := rfl

@[simp] theorem answer_sendEnded_refused :
    answer (sendEnded command w (.refused m)) s = .refused (.dispatch command m) := rfl

@[simp] theorem after_sendEnded_stalled : after (sendEnded command w .stalled) s = s := rfl

@[simp] theorem answer_sendEnded_stalled : answer (sendEnded command w .stalled) s = .stalled w :=
  rfl

@[simp] theorem after_sendEnded_delivered : after (sendEnded command w .delivered) s = s := rfl

@[simp] theorem answer_sendEnded_delivered :
    answer (sendEnded command w .delivered) s = .sent w := rfl

/-- The end of a send leaves the session as it is, or takes the wait's key out. -/
theorem after_sendEnded (r : Sending) :
    after (sendEnded command w r) s = s ∨
      after (sendEnded command w r) s = after (forceRelease (waitKeyOf command w)) s := by
  cases r with
  | refused m => exact .inr rfl
  | stalled | delivered => exact .inl rfl

theorem tasks_sendEnded (r : Sending) : (after (sendEnded command w r) s).tasks = s.tasks := by
  rcases after_sendEnded (s := s) command w r with he | he <;> simp [he]

end SendEnd

end Session

end DaemonBridge
