import Mathlib
import DaemonBridge.Proofs.Session.Waits

/-!
# The mode coordinator's invariant

The coordinator shows a mode, stable or pending, and keeps the last stable mode before a switch
to fall back to. Each switch runs under a generation of its own, and only the switch of the
current generation may commit or revert. `ModeSound` says how the shown mode, the generation, the
switch wait and the tasks hang together:

* the mode is the last state shown, and a pending mode keeps as its previous mode the last stable
  mode shown;
* a wait key is held only while a switch is pending;
* a switch task past its begin (`Switching`) whose generation is current makes the mode pending
  on its target, and a mode pending on a target has such a task: so no switch is pending once no
  switch task is in flight;
* switch tasks past their begin have distinct generations, none above the current one.

The tasks that count as switches are given by `F`: those with their command in flight, and, while
a start runs, the task it starts (or, once its switch is closed, not that task).

Releases, deliveries and the rest of the session's plumbing leave the coordinator's state and the
tasks alone (`coordinator_*`); this module shows that every transition of the coordinator keeps
the invariant.
-/

namespace DaemonBridge

namespace Session

/-- What the mode coordinator's invariant reads of a session. -/
structure Coordinator where
  mode : ModeState
  shown : List ModeState
  generation : Nat
  waitKey : Option String
  tasks : List Task

/-- The coordinator's state of a session, with its tasks. -/
def coordinator (s : Session) : Coordinator := ⟨s.mode, s.shown, s.generation, s.waitKey, s.tasks⟩

/-- The last stable mode among states shown, oldest first. -/
def lastStable (shown : List ModeState) : Option ServiceMode :=
  (shown.filterMap ModeState.stable).getLast?

/-- A task sending its command or waiting for the result. -/
def InFlight (t : Task) : Prop := t.stage.wait?.isSome

/-- Task `t`, at index `i`, switches to `target` and counts as past its begin by `F`. -/
def Switching (F : Nat → Task → Prop) (i : Nat) (t : Task) (target : ServiceMode) : Prop :=
  (∃ timeout, t.job = .switchMode target timeout) ∧ F i t

/-- How the shown mode, the generation, the switch wait and the switch tasks hang together. -/
structure ModeSound (F : Nat → Task → Prop) (s : Session) : Prop where
  shown_last : s.mode = s.shown.getLast?.getD {}
  previous_last : ∀ target, s.mode.active = .pending target → s.mode.previous = lastStable s.shown
  waitKey_pending : s.waitKey.isSome → ∃ target, s.mode.active = .pending (some target)
  generation_le : ∀ t ∈ s.tasks, t.generation ≤ s.generation
  current_pending : ∀ i t target, s.tasks[i]? = some t → Switching F i t target →
    t.generation = s.generation → s.mode.active = .pending (some target)
  pending_current : ∀ target, s.mode.active = .pending (some target) →
    ∃ i t, s.tasks[i]? = some t ∧ Switching F i t target ∧ t.generation = s.generation
  generation_unique : ∀ i j ti tj a b, s.tasks[i]? = some ti → s.tasks[j]? = some tj →
    Switching F i ti a → Switching F j tj b → ti.generation = tj.generation → i = j

variable {F : Nat → Task → Prop} {s s' : Session} {i : Nat}

/-! ## Modes shown -/

theorem lastStable_append (shown : List ModeState) (m : ModeState) :
    lastStable (shown ++ [m]) = m.stable.or (lastStable shown) := by
  cases h : m.stable <;> simp [lastStable, List.filterMap_append, h]

theorem ofMode_ne_pending (m : ServiceMode) (target : Option ServiceMode) :
    ActiveService.ofMode m ≠ .pending target := by
  cases m <;> simp [ActiveService.ofMode]

theorem stable_of_pending {m : ModeState} {target : Option ServiceMode}
    (h : m.active = .pending target) : m.stable = none := by
  simp [ModeState.stable, ActiveService.stable, h]

/-- The state a revert shows is pending only when there is no stable mode to go back to. -/
theorem revertedState_pending {m : ModeState} {target : Option ServiceMode}
    (h : (revertedState m).active = .pending target) : target = none ∧ m.previous = none := by
  cases hp : m.previous with
  | none => simpa [revertedState, hp] using h.symm
  | some p => simp [revertedState, hp, ofMode_ne_pending] at h

theorem revertedState_ne_switching (m : ModeState) (target : ServiceMode) :
    (revertedState m).active ≠ .pending (some target) := fun h =>
  Option.some_ne_none _ (revertedState_pending h).1

/-! ## What leaves the coordinator alone -/

theorem ModeSound.of_coordinator (h : ModeSound F s) (he : s'.coordinator = s.coordinator) :
    ModeSound F s' := by
  simp only [coordinator, Coordinator.mk.injEq] at he
  obtain ⟨hm, hs, hg, hw, ht⟩ := he
  obtain ⟨h₁, h₂, h₃, h₄, h₅, h₆, h₇⟩ := h
  exact ⟨hm ▸ hs ▸ h₁, hm ▸ hs ▸ h₂, hm ▸ hw ▸ h₃, ht ▸ hg ▸ h₄, ht ▸ hg ▸ hm ▸ h₅,
    ht ▸ hg ▸ hm ▸ h₆, ht ▸ h₇⟩

@[simp] theorem coordinator_wake (j : Nat) : (after (wake j) s).coordinator = s.coordinator := by
  obtain ⟨q, h⟩ := after_wake_eq (s := s) j
  rw [h]
  rfl

theorem coordinator_runRelease (r : Release) :
    (after (runRelease r) s).coordinator = s.coordinator := by
  obtain ⟨_, _, _, h⟩ := after_runRelease_eq (s := s) r
  rw [h]
  rfl

@[simp] theorem coordinator_forceRelease (key : String) :
    (after (forceRelease key) s).coordinator = s.coordinator := by
  obtain ⟨_, _, _, h⟩ := after_forceRelease_eq (s := s) key
  rw [h]
  rfl

@[simp] theorem coordinator_releaseKey (key : String) :
    (after (releaseKey key) s).coordinator = s.coordinator := by
  obtain ⟨_, _, _, _, _, h⟩ := after_releaseKey_eq (s := s) key
  rw [h]
  rfl

theorem coordinator_foldl_runRelease (rs : List Release) (t : Session) :
    (rs.foldl (fun t r => after (runRelease r) t) t).coordinator = t.coordinator := by
  induction rs generalizing t with
  | nil => rfl
  | cons r rs ih => rw [List.foldl_cons, ih, coordinator_runRelease]

@[simp] theorem coordinator_releaseAll : (after releaseAll s).coordinator = s.coordinator := by
  rw [after_releaseAll, coordinator_foldl_runRelease]
  rfl

@[simp] theorem coordinator_addOnce (key : String) (r : Release) :
    (after (addOnce key r) s).coordinator = s.coordinator := by
  rw [after_addOnce, coordinator_foldl_runRelease]
  rfl

@[simp] theorem coordinator_addShared (key : String) (r : Release) :
    (after (addShared key r) s).coordinator = s.coordinator := by
  rw [after_addShared, coordinator_foldl_runRelease]
  rfl

@[simp] theorem coordinator_releaseStale (k : Option String) :
    (after (releaseStale k) s).coordinator = s.coordinator := by
  cases k <;> simp

theorem coordinator_deliver (w : Nat) (reply : Reply) :
    (after (deliver w reply) s).coordinator = s.coordinator := by
  cases hx : s.waits[w]? with
  | none => simp [deliver, hx]
  | some x =>
    by_cases hslot : x.slot = .empty
    · simp only [deliver, after_bind, after_wait?, answer_wait?, hx, hslot, beq_self_eq_true,
        ↓reduceIte, after_discard, coordinator_releaseKey, coordinator_wake]
      rfl
    · simp [deliver, hx, hslot]

theorem coordinator_feedRoster (e : Envelope) (online : Bool) :
    (after (feedRoster e online) s).coordinator = s.coordinator := by
  simp only [feedRoster, after_bind, answer_get, after_get]
  split <;> rfl

@[simp] theorem coordinator_subscribe (name : String) (handler : Handler) :
    (after (subscribe name handler) s).coordinator = s.coordinator := rfl

theorem coordinator_openWait (owner : Nat) (success failure : EventKind) (command : CommandKind)
    (target : Option ServiceMode) :
    (after (openWait owner success failure command target) s).coordinator = s.coordinator := by
  by_cases hfs : failure = success <;>
    simp [openWait, hfs, coordinator_addOnce] <;> rfl

/-! ## The coordinator's transitions -/

/-- A transition that shows a new mode under a new generation, leaving no switch current. -/
theorem ModeSound.supersede (h : ModeSound F s) {m : ModeState}
    (hprev : ∀ target, m.active = .pending target → m.previous = lastStable s.shown)
    (hsome : ∀ target, m.active ≠ .pending (some target)) (k : Option String) :
    ModeSound F (after (releaseStale k) (s.superseded m)) := by
  refine ModeSound.of_coordinator ?_ (coordinator_releaseStale k)
  refine ⟨by simp [superseded, showing], fun target ht => ?_, by simp [superseded],
    fun t ht => Nat.le_succ_of_le (h.generation_le t ht), fun j t target ht _ hg => ?_,
    fun target ht => absurd ht (hsome target), h.generation_unique⟩
  · simp only [superseded, showing] at ht ⊢
    rw [lastStable_append, stable_of_pending ht, Option.none_or, hprev target ht]
  · -- every task's generation is below the new one
    have := h.generation_le t (List.mem_of_getElem? ht)
    simp only [superseded, showing] at hg
    omega

/-- The mode a revert shows, from a switch pending, is the last stable mode shown. -/
theorem ModeSound.reverted (h : ModeSound F s) {target : ServiceMode}
    (hs : s.mode.active = .pending (some target)) :
    ∀ t, (revertedState s.mode).active = .pending t →
      (revertedState s.mode).previous = lastStable s.shown := by
  intro t ht
  rw [← h.previous_last _ hs, (revertedState_pending ht).2]
  rfl

theorem ModeSound.observe (h : ModeSound F s) (m : ServiceMode) :
    ModeSound F (after (observe m) s) := by
  obtain ⟨previous, he⟩ := after_observe (s := s) m
  rw [he]
  exact h.supersede (fun t ht => absurd ht (ofMode_ne_pending m t))
    (fun t => ofMode_ne_pending m (some t)) _

theorem ModeSound.applySnapshot (h : ModeSound F s) (snap : StatusSnapshot) :
    ModeSound F (after (applySnapshot snap) s) := by
  rw [after_applySnapshot]
  cases snap.activeMode with
  | none => exact h
  | some m => exact h.observe m

theorem ModeSound.takeStatus (h : ModeSound F s) (e : Envelope) :
    ModeSound F (after (takeStatus e) s) := by
  simp only [Session.takeStatus]
  split
  · split
    · simp only [after_bind, after_discard, after_pure]
      exact h.applySnapshot _
    · exact h
  · simp only [after_bind, after_discard, after_pure]
    exact h.applySnapshot _

theorem ModeSound.cancelSwitch (h : ModeSound F s) : ModeSound F (after cancelSwitch s) := by
  by_cases hs : ∃ target, s.mode.active = .pending (some target)
  · obtain ⟨target, ht⟩ := hs
    rw [after_cancelSwitch_switching ht]
    exact h.supersede (h.reverted ht) (revertedState_ne_switching _) _
  · rw [after_cancelSwitch_other fun target ht => hs ⟨target, ht⟩]
    exact h

/-- Abandoning the switch of generation `g`, which is pending if it is current. -/
theorem ModeSound.abandonSwitch (h : ModeSound F s) (g : Nat)
    (hg : s.generation = g → ∃ target, s.mode.active = .pending (some target)) :
    ModeSound F (after (abandonSwitch g) s) := by
  rw [after_abandonSwitch]
  split
  · next hcur =>
    obtain ⟨target, ht⟩ := hg hcur
    exact h.supersede (h.reverted ht) (revertedState_ne_switching _) _
  · exact h

theorem ModeSound.assume (h : ModeSound F s) (m : ServiceMode) :
    ModeSound F (after (assume m) s) := by
  rw [after_assume]
  split
  · next hn =>
    -- nothing is switching while the mode is unknown
    have hnone : ∀ target, s.mode.active ≠ .pending (some target) := fun target ht => by
      rw [hn] at ht
      cases ht
    refine ⟨by simp [showing], fun t ht => absurd ht (ofMode_ne_pending m t),
      fun hw => absurd (h.waitKey_pending hw) fun ⟨t, ht⟩ => hnone t ht, h.generation_le,
      fun j t target ht hsw hg => absurd (h.current_pending j t target ht hsw hg) (hnone target),
      fun t ht => absurd ht (ofMode_ne_pending m _), h.generation_unique⟩
  · exact h

/-- Recording the switch wait of generation `g`, which is pending if it is current. -/
theorem ModeSound.track (h : ModeSound F s) (g : Nat) (key : String)
    (hg : s.generation = g → ∃ target, s.mode.active = .pending (some target)) :
    ModeSound F (after (track g key) s) := by
  rw [after_track]
  split
  · next hcur =>
    exact ⟨h.shown_last, h.previous_last, fun _ => hg hcur, h.generation_le, h.current_pending,
      h.pending_current, h.generation_unique⟩
  · exact h

/-! ## Closing the current switch -/

/-- A task that is no switch of the current generation can stop counting as a switch. -/
theorem ModeSound.exempt (h : ModeSound F s)
    (hi : ∀ t a, s.tasks[i]? = some t → Switching F i t a → t.generation ≠ s.generation) :
    ModeSound (fun j t => F j t ∧ j ≠ i) s := by
  have hsub : ∀ j t a, Switching (fun j t => F j t ∧ j ≠ i) j t a → Switching F j t a :=
    fun _ _ _ ⟨hj, hf, _⟩ => ⟨hj, hf⟩
  refine ⟨h.shown_last, h.previous_last, h.waitKey_pending, h.generation_le,
    fun j t a ht hsw hg => h.current_pending j t a ht (hsub j t a hsw) hg, fun a ha => ?_,
    fun j k tj tk a b hj hk hsj hsk => h.generation_unique j k tj tk a b hj hk (hsub _ _ _ hsj)
      (hsub _ _ _ hsk)⟩
  obtain ⟨j, t, ht, hsw, hg⟩ := h.pending_current a ha
  have hji : j ≠ i := fun hji => hi t a (hji ▸ ht) (hji ▸ hsw) hg
  exact ⟨j, t, ht, ⟨hsw.1, hsw.2, hji⟩, hg⟩

/-- A task of a generation no longer current stops counting as a switch. -/
theorem ModeSound.exempt_stale (h : ModeSound F s) {ti : Task} (hi : s.tasks[i]? = some ti)
    (hstale : ti.generation ≠ s.generation) : ModeSound (fun j t => F j t ∧ j ≠ i) s :=
  h.exempt fun t _ ht _ => by
    rw [hi] at ht
    cases ht
    exact hstale

/-- The current switch, task `i`, shows its outcome: a stable mode, or the state a revert puts
back. No switch is current after, and the task no longer counts as one. -/
theorem ModeSound.close (h : ModeSound F s) {ti : Task} {a : ServiceMode}
    (hi : s.tasks[i]? = some ti) (hsw : Switching F i ti a) (hgen : ti.generation = s.generation)
    {m : ModeState} (hprev : ∀ target, m.active = .pending target → m.previous = lastStable s.shown)
    (hsome : ∀ target, m.active ≠ .pending (some target)) :
    ModeSound (fun j t => F j t ∧ j ≠ i) ({ s with waitKey := none }.showing m) := by
  refine ⟨by simp [showing], fun target ht => ?_, by simp [showing], h.generation_le,
    fun j t b ht hsj hg => ?_, fun b hb => absurd hb (hsome b),
    fun j k tj tk a b hj hk hsj hsk => h.generation_unique j k tj tk a b hj hk ⟨hsj.1, hsj.2.1⟩
      ⟨hsk.1, hsk.2.1⟩⟩
  · simp only [showing] at ht ⊢
    rw [lastStable_append, stable_of_pending ht, Option.none_or, hprev target ht]
  · -- the only switch of the current generation is task `i`
    have hji := h.generation_unique j i t ti b a ht hi ⟨hsj.1, hsj.2.1⟩ hsw (hg.trans hgen.symm)
    exact absurd hji hsj.2.2

theorem ModeSound.commit (h : ModeSound F s) {ti : Task} {a : ServiceMode}
    (hi : s.tasks[i]? = some ti) (hsw : Switching F i ti a) (target : ServiceMode) :
    ModeSound (fun j t => F j t ∧ j ≠ i) (after (commit ti.generation target) s) := by
  rw [after_commit]
  split
  · next hcur =>
    exact h.close hi hsw hcur.symm (fun t ht => absurd ht (ofMode_ne_pending target t))
      (fun t => ofMode_ne_pending target (some t))
  · next hstale => exact h.exempt_stale hi (Ne.symm hstale)

theorem ModeSound.failSwitch (h : ModeSound F s) {ti : Task} {a : ServiceMode}
    (hi : s.tasks[i]? = some ti) (hsw : Switching F i ti a) (target : ServiceMode)
    (e : CommandError) :
    ModeSound (fun j t => F j t ∧ j ≠ i) (after (failSwitch ti.generation target e) s) := by
  rw [after_failSwitch]
  split
  · next hcur =>
    have hs := h.current_pending i ti a hi hsw hcur.symm
    exact (h.close hi hsw hcur.symm (h.reverted hs) (revertedState_ne_switching _)).of_coordinator
      rfl
  · next hstale => exact h.exempt_stale hi (Ne.symm hstale)

/-! ## Notifications and sends -/

theorem ModeSound.deliver (h : ModeSound F s) (w : Nat) (reply : Reply) :
    ModeSound F (after (deliver w reply) s) :=
  h.of_coordinator (coordinator_deliver w reply)

theorem ModeSound.handle (h : ModeSound F s) (e : Envelope) (handler : Handler) :
    ModeSound F (after (handle e handler) s) := by
  cases handler with
  | waitSuccess w command target =>
    simp only [Session.handle, after_ite]
    split
    · exact h.deliver w _
    · exact h
  | waitError w command =>
    simp only [Session.handle, after_ite]
    split
    · exact h.deliver w _
    · exact h
  | errorWatch command label =>
    simp only [Session.handle, after_ite]
    split
    · exact h.of_coordinator rfl
    · exact h
  | listener label => exact h.of_coordinator rfl
  | serviceStarted =>
    simp only [Session.handle]
    split
    · split
      · exact h.observe _
      · exact h
    · exact h
  | rosterFeed online => exact h.of_coordinator (coordinator_feedRoster e online)

theorem ModeSound.publish (h : ModeSound F s) (e : Envelope) :
    ModeSound F (after (publish e) s) := by
  simp only [Session.publish, after_bind, answer_get, after_get, after_pure]
  exact forM_keeps (fun p _ t ht => ht.handle e p.2) h

theorem ModeSound.send (h : ModeSound F s) (command : CommandKind) (params : Option Json.Value) :
    ModeSound F (after (send command params) s) := by
  by_cases hr : s.refusing = true
  · simpa [Session.send, hr] using h
  · by_cases hs : s.stalling = true
    · simpa [Session.send, hr, hs] using h
    · simp only [Session.send, hr, hs, after_bind, answer_get, after_get]
      exact forM_keeps (fun e _ t ht => by simpa [after_discard] using ht.publish e)
        (h.of_coordinator rfl)

/-- A dispatch leaves the coordinator's invariant, whatever the daemon answers at once. -/
theorem ModeSound.dispatchFor (h : ModeSound F s) (owner : Nat) (success failure : EventKind)
    (command : CommandKind) (params : Option Json.Value) (target : Option ServiceMode) :
    ModeSound F (after (dispatchFor owner success failure command params target) s) := by
  simp only [Session.dispatchFor, after_bind]
  have h₁ := (h.of_coordinator (coordinator_openWait owner success failure command target)).send
    command params
  generalize answer (Session.send command params) _ = r
  rcases after_sendEnded command _ r with he | he <;> rw [he]
  · exact h₁
  · exact h₁.of_coordinator (coordinator_forceRelease _)

theorem ModeSound.dispatchJob (h : ModeSound F s) (i : Nat) (j : Job) :
    ModeSound F (after (dispatchJob i j) s) :=
  h.dispatchFor i j.success j.failure j.command j.params j.target?

end Session

end DaemonBridge
