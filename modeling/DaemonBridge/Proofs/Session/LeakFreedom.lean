import Mathlib
import DaemonBridge.Proofs.Session.Running
import DaemonBridge.Proofs.Session.Reachable

/-!
# Command waits never leak

Every session a fresh one reaches, by any interleaving of script steps, task polls and sends
that end late or never, keeps its command waits and the bus in step:

* a wait's key is in the registry exactly while the wait's subscriptions are on the bus: one on
  its task's success kind, and one on its failure kind when that differs;
* every wait key in the registry, and every handler of a wait on the bus, belongs to a wait the
  session opened;
* once no task is sending a command or waiting for its result, no wait key is left in the
  registry and no handler of a wait is left on the bus.

Each move keeps `WaitsSound none` (`WaitsSound.move`), which gives all three (`leakFree`).
-/

namespace DaemonBridge

namespace Session

variable {c : Option (Nat × Nat)} {s s' : Session}

/-- The waits of `s` and their subscriptions are in step. -/
structure LeakFree (s : Session) : Prop where
  /-- A wait's key is registered exactly while its task's handlers are on the bus. -/
  handlers : ∀ (w : Nat) (x : Wait), s.waits[w]? = some x → ∃ t, s.tasks[x.owner]? = some t ∧
    x.key = waitKeyOf t.job.command w ∧
    s.waitHandlers w = if s.registry.contains x.key then t.job.waitHandlers w else []
  /-- Every wait key in the registry is a wait's. -/
  keys : ∀ key ∈ s.registry.keys, IsWaitKey key →
    ∃ (w : Nat) (x : Wait), s.waits[w]? = some x ∧ x.key = key
  /-- Every handler of a wait on the bus answers a wait of the session. -/
  orphans : ∀ sub ∈ s.bus.subscriptions, ∀ w, sub.handler.wait? = some w → ∃ x, s.waits[w]? = some x
  /-- With no command in flight, neither the registry nor the bus holds anything of a wait. -/
  idle : (∀ t ∈ s.tasks, t.stage.wait? = none) →
    (∀ key ∈ s.registry.keys, ¬ IsWaitKey key) ∧ ∀ sub ∈ s.bus.subscriptions, sub.handler.wait? = none

/-! ## Every move keeps the invariant -/

/-- A fresh session has no waits, entries or subscriptions. -/
theorem WaitsSound.initial (refusal : String) : WaitsSound none (new refusal) := by
  constructor <;> simp [Session.new, Registry.keys]

/-- Every admissible script step keeps the invariant. -/
theorem WaitsSound.run (h : WaitsSound none s) (a : Step) (ha : a.Admissible) :
    WaitsSound none (after a.run s) := by
  cases a with
  | request target timeout =>
    simp only [Step.run, after_bind, after_pure]
    exact h.spawn _
  | refresh timeout =>
    simp only [Step.run, after_bind, after_pure]
    exact h.spawn _
  | dispatch success failure command params timeout =>
    simp only [Step.run, after_bind, after_pure]
    exact h.spawn _
  | watchErrors kind command label =>
    simp only [Step.run, after_bind, after_pure, after_discard, answer_subscribe]
    exact h.listenOnce rfl (not_isWaitKey (by simp))
  | listen event key label =>
    simp only [Step.run, after_bind, after_pure, answer_subscribe]
    exact h.listenShared rfl ha
  | releaseKey key =>
    simp only [Step.run, after_bind, after_pure]
    exact h.releaseKey key
  | forceReleaseKey key =>
    simp only [Step.run, after_bind, after_pure]
    exact h.forceRelease key
  | releaseAll =>
    simp only [Step.run, after_bind, after_pure]
    exact h.releaseAll
  | abort task =>
    simp only [Step.run, after_bind, after_pure]
    exact h.abort task
  | publish e =>
    simp only [Step.run, after_bind, after_pure]
    exact h.publish e
  | advance ms =>
    simp only [Step.run, after_bind, after_pure]
    exact h.advance ms
  | cancel =>
    simp only [Step.run, after_bind, after_pure]
    exact h.cancelSwitch
  | assume m =>
    simp only [Step.run, after_bind, after_pure]
    exact h.assume m
  | snapshot value =>
    simp only [Step.run]
    split
    · simp only [after_bind, after_pure]
      exact h.applySnapshot _
    · exact h
  | attach =>
    simp only [Step.run, attachServiceStarted, after_bind, after_pure, answer_subscribe]
    exact h.listenOnce rfl (not_isWaitKey (by simp [serviceStartedKey]))
  | detach =>
    simp only [Step.run, detachServiceStarted, after_bind, after_pure]
    exact h.forceRelease _
  | rosterAttach =>
    -- both feeds register a listener under their own `roster:` key
    simp only [Step.run, attachRoster, feeds, List.foldlM_cons, List.foldlM_nil, after_bind,
      after_pure, answer_subscribe]
    exact (h.listenShared rfl (not_isWaitKey (by simp [feedKey]))).listenShared rfl
      (not_isWaitKey (by simp [feedKey]))
  | rosterDetach =>
    simp only [Step.run, detachRoster, feeds, List.foldlM_cons, List.foldlM_nil, after_bind,
      after_pure]
    exact (h.releaseKey _).releaseKey _
  | rosterRemove key =>
    simp only [Step.run, after_bind, after_get]
    split <;> exact h.of_eq rfl rfl rfl rfl
  | rosterReconcile o online =>
    simp only [Step.run, after_bind, after_get]
    split <;> exact h.of_eq rfl rfl rfl rfl
  -- the remaining steps read the session, or set what the invariant does not read
  | refCount | respondNext | reject | stall | state | rosterAttached | roster | rosterGet
  | rosterReset => exact h.of_eq rfl rfl rfl rfl

theorem WaitsSound.move (h : WaitsSound none s) (hm : Move s s') : WaitsSound none s' := by
  cases hm with
  | step a ha => exact h.run a ha
  | poll i => exact h.poll i
  | endSend i ended => exact h.endSend i ended
  | dequeue | clearLogs => exact h.of_eq rfl rfl rfl rfl

theorem Reachable.waitsSound (hs : Reachable s) : WaitsSound none s := by
  induction hs with
  | new refusal => exact WaitsSound.initial refusal
  | move _ hm ih => exact ih.move hm

/-! ## What the invariant says of keys and handlers -/

/-- A wait's key is registered exactly while the wait is open. -/
theorem WaitsSound.contains_key_iff {w : Nat} {x : Wait} (h : WaitsSound c s)
    (hx : s.waits[w]? = some x) : s.registry.contains x.key = true ↔ s.Open w := by
  rw [Registry.contains_iff, Registry.mem_keys]
  constructor
  · rintro ⟨e, hp⟩
    cases ht : e.token with
    | wait w' hs =>
      -- the entry ends a wait under the same key, hence the same wait
      obtain ⟨x', hx', hk, -⟩ := h.open_entry _ hp w' hs ht
      have hw : w = w' := waitKeyOf_inj
        (((h.wait_key w x hx).symm.trans hk).trans (h.wait_key w' x' hx'))
      subst hw
      exact ⟨_, hp, by simp [ht, Release.wait?]⟩
    | unsubscribe n id =>
      exact absurd ⟨x.command, w, h.wait_key w x hx⟩ (h.other_entry _ hp n id ht).1
  · rintro ⟨⟨k, e⟩, hp, hpw⟩
    obtain ⟨x', hx', hk, -⟩ := h.wait_entry hp hpw
    rw [hx] at hx'
    cases hx'
    exact ⟨e, hk ▸ hp⟩

/-- Every wait key in the registry sits on an open wait of the session. -/
theorem WaitsSound.waitKey_open {key : String} (h : WaitsSound c s) (hkey : key ∈ s.registry.keys)
    (hk : IsWaitKey key) : ∃ w x, s.waits[w]? = some x ∧ x.key = key ∧ s.Open w := by
  obtain ⟨e, hp⟩ := Registry.mem_keys.mp hkey
  cases ht : e.token with
  | wait w hs =>
    obtain ⟨x, hx, hkx, -⟩ := h.open_entry _ hp w hs ht
    exact ⟨w, x, hx, hkx.symm, _, hp, by simp [ht, Release.wait?]⟩
  | unsubscribe n id => exact absurd hk (h.other_entry _ hp n id ht).1

/-- With no task sending or waiting, no wait is open. -/
theorem WaitsSound.not_open_of_idle (h : WaitsSound none s)
    (hidle : ∀ t ∈ s.tasks, t.stage.wait? = none) (w : Nat) : ¬ s.Open w := by
  intro ho
  cases hx : s.waits[w]? with
  | none => exact h.not_open_of_none hx ho
  | some x =>
    rcases h.wait_stage w x hx ho with ⟨t, ht, hst⟩ | hcur
    · rw [hidle t (List.mem_of_getElem? ht)] at hst
      cases hst
    · cases hcur

/-- The invariant keeps waits from leaking. -/
theorem WaitsSound.leakFree (h : WaitsSound none s) : LeakFree s where
  handlers w x hx := by
    obtain ⟨t, ht, hcmd, hopen, hclosed⟩ := h.wait_task w x hx
    refine ⟨t, ht, hcmd ▸ h.wait_key w x hx, ?_⟩
    by_cases ho : s.Open w
    · rw [if_pos ((h.contains_key_iff hx).mpr ho)]
      exact hopen ho
    · rw [if_neg (mt (h.contains_key_iff hx).mp ho)]
      exact hclosed ho
  keys key hkey hk := by
    obtain ⟨w, x, hx, hkx, -⟩ := h.waitKey_open hkey hk
    exact ⟨w, x, hx, hkx⟩
  orphans sub hsub w hw := ⟨_, List.getElem?_eq_getElem (h.handler_lt sub hsub w hw)⟩
  idle hidle := by
    refine ⟨fun key hkey hk => ?_, fun sub hsub => ?_⟩
    · obtain ⟨w, -, -, -, ho⟩ := h.waitKey_open hkey hk
      exact h.not_open_of_idle hidle w ho
    · cases hw : sub.handler.wait? with
      | none => rfl
      | some w =>
        -- a handler of a closed wait would be listed among the wait's handlers, which are none
        have hlt := h.handler_lt sub hsub w hw
        obtain ⟨x, hx⟩ : ∃ x, s.waits[w]? = some x := ⟨_, List.getElem?_eq_getElem hlt⟩
        obtain ⟨t, -, -, -, hclosed⟩ := h.wait_task w x hx
        have hnil := hclosed (h.not_open_of_idle hidle w)
        have hmem : (sub.name, sub.handler) ∈ s.waitHandlers w :=
          List.mem_map.mpr ⟨sub, List.mem_filter.mpr ⟨hsub, by simp [hw]⟩, rfl⟩
        simp [hnil] at hmem

/-- Whatever the interleaving of dispatches, sends that fail or never end, publications, timers,
cancels, aborted tasks and releases of any key, no command's wait leaks. -/
theorem waits_never_leak (hs : Reachable s) : LeakFree s :=
  hs.waitsSound.leakFree

/-- A command dispatched and then polled, its send refused. -/
theorem waits_never_leak_refused_dispatch :
    Reachable (after (poll 0) (after (Step.run (.dispatch .commandSuccess .commandError .status
      none none)) (after (Step.run (.reject true)) (new "refused")))) ∧
    LeakFree (after (poll 0) (after (Step.run (.dispatch .commandSuccess .commandError .status
      none none)) (after (Step.run (.reject true)) (new "refused")))) :=
  have hs := ((Reachable.new "refused").move (.step (.reject true) trivial)).move
    (.step (.dispatch .commandSuccess .commandError .status none none) trivial) |>.move (.poll 0)
  ⟨hs, waits_never_leak hs⟩

end Session

end DaemonBridge
