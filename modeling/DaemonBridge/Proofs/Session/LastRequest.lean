import Mathlib
import DaemonBridge.Proofs.Session.Generation
import DaemonBridge.Proofs.Session.Correlation

/-!
# The last switch request wins

Switch requests, status snapshots, `service_started` notifications, cancels, aborted tasks and
the daemon's answers interleave in any order, and still only the newest switch request decides the
mode (`last_request_wins`):

* a switch reports success only for its own target, and in one of two ways: its target was
  already the stable mode when it started, and then it sent nothing and left the coordinator as it
  was; or its own commit made the target the mode, when polled or when its send ends. That commit happens only while the switch's
  generation is still the session's, after its wait took a `command_success` for
  `service_choice` that reports the target;
* each transition that supersedes a switch starts a new generation, and no move takes the
  generation back (`Generation`), so a commit under the switch's own generation means that none of
  them came between its begin and its commit;
* a switch in flight that a newer generation overtook changes neither the mode, the generation nor
  the switch wait when it is polled or aborted, or when its send ends, however late: it then
  finds its generation gone and does not record its wait (`endSend_overtaken`); it reports
  nothing but `superseded`;
* so while the newest switch is in flight, the mode stays pending on its target whatever becomes
  of an older one.

All of it rests on the coordinator's invariant (`ModeSound`) and the waits' (`WaitsSound`,
`RepliesSound`): the wait a task's stage shows is the task's own, and an answer a switch's wait
holds is one for the switch's command.
-/

namespace DaemonBridge

namespace Session

variable {s s' u : Session} {i : Nat} {t : Task} {target : ServiceMode} {timeout : Option Nat}
  {m : ServiceMode}

/-! ## Only finishing reports an outcome -/

theorem done_wake (j : Nat) : (after (wake j) s).done = s.done := by
  obtain ⟨q, h⟩ := after_wake_eq (s := s) j
  rw [h]

theorem done_releaseKey (key : String) : (after (releaseKey key) s).done = s.done := by
  obtain ⟨_, _, _, _, _, h⟩ := after_releaseKey_eq (s := s) key
  rw [h]

theorem done_releaseStale (k : Option String) : (after (releaseStale k) s).done = s.done := by
  cases k with
  | none => rfl
  | some k => exact done_forceRelease k

theorem done_deliver (w : Nat) (reply : Reply) : (after (deliver w reply) s).done = s.done := by
  cases hx : s.waits[w]? with
  | none => simp [deliver, hx]
  | some x =>
    by_cases hslot : x.slot = .empty
    · simp only [deliver, after_bind, after_wait?, answer_wait?, hx, hslot, beq_self_eq_true,
        ↓reduceIte, after_discard, done_releaseKey, done_wake]
      rfl
    · simp [deliver, hx, hslot]

theorem done_observe (m : ServiceMode) : (after (observe m) s).done = s.done := by
  obtain ⟨previous, h⟩ := after_observe (s := s) m
  rw [h, done_releaseStale]
  rfl

theorem done_handle (e : Envelope) (handler : Handler) :
    (after (handle e handler) s).done = s.done := by
  cases handler with
  | waitSuccess w command target =>
    simp only [handle, after_ite]
    split
    · exact done_deliver w _
    · rfl
  | waitError w command =>
    simp only [handle, after_ite]
    split
    · exact done_deliver w _
    · rfl
  | errorWatch command label =>
    simp only [handle, after_ite]
    split <;> rfl
  | listener label => rfl
  | serviceStarted =>
    simp only [handle]
    split
    · split
      · exact done_observe _
      · rfl
    · rfl
  | rosterFeed online =>
    simp only [handle, feedRoster, after_bind, answer_get, after_get]
    split <;> rfl

theorem done_publish (e : Envelope) : (after (publish e) s).done = s.done := by
  simp only [publish, after_bind, answer_get, after_get, after_pure]
  exact forM_keeps (P := fun t : Session => t.done = s.done)
    (fun p _ t ht => (done_handle e p.2).trans ht) rfl

theorem done_send (command : CommandKind) (params : Option Json.Value) :
    (after (send command params) s).done = s.done := by
  by_cases hr : s.refusing = true
  · simp [send, hr]
  · by_cases hs : s.stalling = true
    · simp [send, hr, hs]
    · simp only [send, hr, hs, after_bind, answer_get, after_get]
      exact forM_keeps (P := fun t : Session => t.done = s.done)
        (fun e _ t ht => by simpa [after_discard] using (done_publish e).trans ht) rfl

theorem done_sendEnded (command : CommandKind) (w : Nat) (r : Sending) :
    (after (sendEnded command w r) s).done = s.done := by
  rcases after_sendEnded (s := s) command w r with he | he
  · rw [he]
  · rw [he, done_forceRelease]

theorem done_dispatchFor (owner : Nat) (success failure : EventKind) (command : CommandKind)
    (params : Option Json.Value) (target : Option ServiceMode) :
    (after (dispatchFor owner success failure command params target) s).done = s.done := by
  obtain ⟨bus, registry, waits, queue, hw⟩ :=
    after_openWait_eq (u := s) owner success failure command target
  simp only [dispatchFor, after_bind, done_sendEnded, done_send, hw]

theorem done_dispatchJob (i : Nat) (j : Job) : (after (dispatchJob i j) s).done = s.done :=
  done_dispatchFor ..

theorem done_beginSwitch (target : ServiceMode) :
    (after (beginSwitch target) s).done = s.done := by
  rw [after_beginSwitch]
  split
  · rfl
  · rw [done_releaseStale]
    rfl

/-- The outcome a finish reports is the last one logged. -/
theorem finish_reported {D : List (Nat × Outcome)} {o o' : Outcome}
    (h : (after (finish i o) u).done = D ++ [(i, o')]) : o = o' := by
  rw [after_finish] at h
  have hlast := (List.append_inj' h rfl).2
  simp only [List.cons.injEq, Prod.mk.injEq, true_and, and_true] at hlast
  exact hlast

/-! ## How a switch reports success -/

/-- Task `i`'s own commit to `target` shows in `s`: the target is the mode, the task's generation
is still the session's, and a wait of the task holds an answer. -/
def CommittedBy (s : Session) (i : Nat) (target : ServiceMode) : Prop :=
  s.mode.active = .ofMode target ∧ (∃ t, s.tasks[i]? = some t ∧ t.generation = s.generation) ∧
    ∃ (w : Nat) (x : Wait) (e : Envelope), s.waits[w]? = some x ∧ x.owner = i ∧
      x.slot = .filled (.answer e)

theorem committedBy_finish {w : Nat} {x : Wait} {e : Envelope} (ht : u.tasks[i]? = some t)
    (hg : u.generation = t.generation) (hx : u.waits[w]? = some x) (hown : x.owner = i)
    (hslot : x.slot = .filled (.answer e)) :
    CommittedBy (after (finish i (.switched target)) (after (commit t.generation target) u)) i
      target := by
  rw [after_commit, if_pos hg, after_finish]
  exact ⟨rfl, ⟨{ t with stage := .finished }, by simp [showing, ht], hg.symm⟩, w, x, e, hx, hown,
    hslot⟩

/-- A switch concludes with success only on an answer under its own generation: it commits, and
finishes. -/
theorem conclude_switched {reply : Reply} {D : List (Nat × Outcome)}
    (hj : t.job = .switchMode target timeout)
    (hd : (after (conclude i t reply) u).done = D ++ [(i, Outcome.switched m)]) :
    m = target ∧ (∃ e, reply = .answer e) ∧ u.generation = t.generation ∧
      after (conclude i t reply) u =
        after (finish i (.switched target)) (after (commit t.generation target) u) := by
  cases reply with
  | answer e =>
    have hc : after (conclude i t (.answer e)) u =
        if u.generation = t.generation then
          after (finish i (.switched target)) (after (commit t.generation target) u)
        else after (finish i (.switchFailed (.superseded target))) (after (commit t.generation target) u) := by
      simp only [Session.conclude, hj, after_bind, answer_commit, after_ite, decide_eq_true_eq]
    by_cases hg : u.generation = t.generation
    · rw [hc, if_pos hg] at hd ⊢
      exact ⟨(Outcome.switched.inj (finish_reported hd)).symm, ⟨e, rfl⟩, hg, rfl⟩
    · rw [hc, if_neg hg] at hd
      cases finish_reported hd
  | failure f =>
    -- a failure reports the switch as failed, or as superseded
    simp only [Session.conclude, hj, after_bind] at hd
    cases finish_reported hd

/-- A switch resumed reports success only when its wait holds an answer and its generation is
current. -/
theorem resume_switched {w : Nat} {d : Option (Nat × Nat)} (hj : t.job = .switchMode target timeout)
    (hd : (after (resume i t w d) u).done = u.done ++ [(i, Outcome.switched m)]) :
    m = target ∧ u.generation = t.generation ∧
      (∃ x e, u.waits[w]? = some x ∧ x.slot = .filled (.answer e)) ∧
      after (resume i t w d) u =
        after (finish i (.switched target)) (after (commit t.generation target) u) := by
  -- a resume that does not conclude reports nothing
  have hquiet : ¬ u.done = u.done ++ [(i, Outcome.switched m)] := by simp
  simp only [Session.resume, after_bind, after_wait?, answer_wait?] at hd ⊢
  cases hx : u.waits[w]? with
  | none =>
    rw [hx] at hd
    exact absurd hd hquiet
  | some x =>
    rw [hx] at hd
    simp only at hd ⊢
    cases hslot : x.slot with
    | filled reply =>
      rw [hslot] at hd
      obtain ⟨hm, ⟨e, rfl⟩, hg, heq⟩ := conclude_switched hj hd
      exact ⟨hm, hg, ⟨x, e, rfl, hslot⟩, heq⟩
    | dropped =>
      rw [hslot] at hd
      obtain ⟨-, ⟨e, he⟩, -⟩ := conclude_switched hj hd
      cases he
    | empty =>
      rw [hslot] at hd
      cases d with
      | none => exact absurd hd hquiet
      | some due =>
        simp only [after_bind, answer_get, after_get] at hd
        by_cases hdue : due.1 ≤ u.clock
        · simp only [hdue, ↓reduceIte, after_bind, after_discard] at hd
          obtain ⟨-, ⟨e, he⟩, -⟩ := conclude_switched hj hd
          cases he
        · simp only [hdue, ↓reduceIte, after_pure] at hd
          exact absurd hd hquiet

/-- A start that sent its command and waits on its own wait reports success only by its
commit. -/
theorem awaitSlot_switched {w : Nat} {ms : Option Nat} (ht : u.tasks[i]? = some t)
    (hj : t.job = .switchMode target timeout) (hown : ∃ x, u.waits[w]? = some x ∧ x.owner = i)
    (hd : (after (awaitSlot i w ms) u).done = u.done ++ [(i, Outcome.switched m)]) :
    m = target ∧ CommittedBy (after (awaitSlot i w ms) u) i target := by
  simp only [Session.awaitSlot, after_bind, answer_get, after_get] at hd ⊢
  generalize ms.map (fun ms => (u.clock + ms, ms)) = d at hd ⊢
  have ht₁ : (after (Session.setStage i (.awaiting w d)) u).tasks[i]? =
      some { t with stage := .awaiting w d } := by
    simp [ht]
  simp only [after_task?, answer_task?, ht₁] at hd ⊢
  obtain ⟨hm, hg, ⟨x, e, hx, hslot⟩, heq⟩ :=
    resume_switched (u := after (Session.setStage i (.awaiting w d)) u)
      (t := { t with stage := .awaiting w d }) hj hd
  obtain ⟨y, hy, hyown⟩ := hown
  have hxy : y = x := by simpa [hy] using hx
  rw [heq]
  exact ⟨hm, committedBy_finish ht₁ hg hx (hxy ▸ hyown) hslot⟩

/-- A switch that carries on from a send handed over reports success only by its commit: it
records its wait while its generation is still current, and waits on it. -/
theorem proceed_switched {w : Nat} (ht : u.tasks[i]? = some t)
    (hj : t.job = .switchMode target timeout) (hown : ∃ x, u.waits[w]? = some x ∧ x.owner = i)
    (hd : (after (proceed i t w) u).done = u.done ++ [(i, Outcome.switched m)]) :
    m = target ∧ CommittedBy (after (proceed i t w) u) i target := by
  simp only [Session.proceed, hj, after_bind, answer_track] at hd ⊢
  by_cases htr : u.generation = t.generation
  · -- still current: the wait is recorded and awaited
    rw [decide_eq_true htr, if_pos rfl, after_track, if_pos htr] at hd ⊢
    exact awaitSlot_switched ht hj hown hd
  · -- overtaken during the send: the wait's key is taken out and the switch fails
    rw [decide_eq_false htr] at hd
    simp only [Bool.false_eq_true, ↓reduceIte, after_bind] at hd
    cases finish_reported hd

/-- A switch that carries on from its send reports success only by its commit: a refused send
fails it, and a stalled one reports nothing yet. -/
theorem carry_switched {d : Dispatched} (ht : u.tasks[i]? = some t)
    (hj : t.job = .switchMode target timeout)
    (hown : ∀ w, d = .sent w → ∃ x, u.waits[w]? = some x ∧ x.owner = i)
    (hd : (after (carry i t d) u).done = u.done ++ [(i, Outcome.switched m)]) :
    m = target ∧ CommittedBy (after (carry i t d) u) i target := by
  cases d with
  | refused e =>
    simp only [Session.carry] at hd
    obtain ⟨-, ⟨a, ha⟩, -⟩ := conclude_switched hj hd
    cases ha
  | stalled w =>
    simp [Session.carry, after_setStage] at hd
  | sent w => exact proceed_switched ht hj (hown w rfl) hd

/-- A switch started by a poll reports success only when its target is already the stable mode,
sending nothing, or by its own commit. -/
theorem start_switched (hw : WaitsSound none s) (ht : s.tasks[i]? = some t)
    (hj : t.job = .switchMode target timeout)
    (hd : (after (start i t) s).done = s.done ++ [(i, Outcome.switched m)]) :
    m = target ∧ ((s.mode.stable = some target ∧
        after (start i t) s = after (finish i (.switched target)) s) ∨
      CommittedBy (after (start i t) s) i target) := by
  obtain ⟨job, gen, stage⟩ := t
  simp only at hj
  subst hj
  simp only [Session.start, after_bind] at hd ⊢
  cases hb : answer (Session.beginSwitch target) s with
  | none =>
    -- the target is already the stable mode
    have hstable : s.mode.stable = some target := by
      rw [answer_beginSwitch] at hb
      by_contra hne
      rw [if_neg hne] at hb
      cases hb
    have hu : after (Session.beginSwitch target) s = s := by
      rw [after_beginSwitch, if_pos hstable]
    rw [hb, hu] at hd
    rw [hu]
    exact ⟨(Outcome.switched.inj (finish_reported hd)).symm, .inl ⟨hstable, rfl⟩⟩
  | some g =>
    rw [hb] at hd
    simp only [after_bind, after_modify] at hd ⊢
    -- the task records the generation it switches under, then dispatches its command
    obtain ⟨hw₂, ht₂⟩ := hw.takeGeneration ht target g
    set u₂ : Session := { after (Session.beginSwitch target) s with
      tasks := (after (Session.beginSwitch target) s).tasks.modify i
        fun t => { t with generation := g } } with hu₂
    obtain ⟨hw₃, htd, hon⟩ := hw₂.dispatchJob ht₂
    set u₃ := after (Session.dispatchJob i (.switchMode target timeout)) u₂ with hu₃
    have ht₃ : u₃.tasks[i]? = some ⟨.switchMode target timeout, g, stage⟩ := by
      rw [htd]
      exact ht₂
    have hdone : u₃.done = s.done := (done_dispatchJob i _).trans (done_beginSwitch target)
    -- a send handed over carries on with the wait the dispatch opened, which is the task's own
    have hown : ∀ w, answer (Session.dispatchJob i (.switchMode target timeout)) u₂ = .sent w →
        ∃ x, u₃.waits[w]? = some x ∧ x.owner = i := by
      intro w hsent
      rw [hsent] at hon
      have hw' : w = u₂.waits.length := hon
      subst hw'
      exact hw₃.cur_wait i _ rfl
    exact (carry_switched ht₃ rfl hown (hd.trans (by rw [hdone]))).imp_right .inr

/-- A poll of a switch task reports success only for the switch's target: at once when the
target is already the stable mode, or by the switch's own commit. -/
theorem poll_switched (hw : WaitsSound none s) (ht : s.tasks[i]? = some t)
    (hj : t.job = .switchMode target timeout)
    (hd : (after (poll i) s).done = s.done ++ [(i, Outcome.switched m)]) :
    m = target ∧ ((t.stage = .ready ∧ s.mode.stable = some target ∧
        after (poll i) s = after (finish i (.switched target)) s) ∨
      CommittedBy (after (poll i) s) i target) := by
  have hquiet : ¬ s.done = s.done ++ [(i, Outcome.switched m)] := by simp
  simp only [Session.poll, after_bind, after_task?, answer_task?, ht] at hd ⊢
  cases hst : t.stage with
  | ready =>
    rw [hst] at hd
    obtain ⟨hm, hcases⟩ := start_switched hw ht hj hd
    exact ⟨hm, hcases.imp (fun h => ⟨rfl, h⟩) id⟩
  | awaiting w d =>
    rw [hst] at hd
    obtain ⟨hm, hg, ⟨x, e, hx, hslot⟩, heq⟩ := resume_switched hj hd
    -- the wait the task waits on is its own
    obtain ⟨y, hy, hown⟩ := hw.stage_wait i t w ht (by simp [hst, Stage.wait?])
    rw [hx] at hy
    cases hy
    rw [heq]
    exact ⟨hm, .inr (committedBy_finish ht hg hx hown hslot)⟩
  | sending w =>
    rw [hst] at hd
    exact absurd hd hquiet
  | finished =>
    rw [hst] at hd
    exact absurd hd hquiet

/-- The end of a switch's send reports success only when the send was handed over, and then by
the switch's own commit on the wait its stage shows. -/
theorem endSend_switched {ended : Option String} (hw : WaitsSound none s)
    (ht : s.tasks[i]? = some t) (hj : t.job = .switchMode target timeout)
    (hd : (after (endSend i ended) s).done = s.done ++ [(i, Outcome.switched m)]) :
    m = target ∧ ended = none ∧ CommittedBy (after (endSend i ended) s) i target := by
  rcases after_endSend_of ht ended with he | ⟨w, hst, ⟨msg, -, he⟩ | ⟨hnone, he⟩⟩ <;>
    rw [he] at hd ⊢
  · simp at hd
  · -- refused: the switch fails
    simp only [Session.carry] at hd
    obtain ⟨-, ⟨a, ha⟩, -⟩ := conclude_switched hj hd
    cases ha
  · -- handed over: the switch carries on with the wait its stage shows
    obtain ⟨hm, hc⟩ := carry_switched (u := { s with sent := s.sent ++ [⟨t.job.command, t.job.params⟩] })
      ht hj (fun w' hw' => by
        cases hw'
        exact hw.stage_wait i t w ht (by simp [hst, Stage.wait?])) hd
    exact ⟨hm, hnone, hc⟩

/-- An answer held by the wait of a switch task is a `command_success` for `service_choice` that
reports the switch's target. -/
theorem switch_reply_reports {c : Option (Nat × Nat)} {w : Nat} {x : Wait} {e : Envelope}
    (hr : RepliesSound s) (hw : WaitsSound c s) (hx : s.waits[w]? = some x)
    (hslot : x.slot = .filled (.answer e)) (ht : s.tasks[x.owner]? = some t)
    (hj : t.job = .switchMode target timeout) :
    e.kind.wireName = EventKind.commandSuccess.wireName ∧ e.command = some .serviceChoice ∧
      reportedMode e = some target := by
  obtain ⟨t₁, e₁, ht₁, hrep⟩ := hr.filled w x _ hx hslot
  obtain ⟨t₂, ht₂, hcmd, -⟩ := hw.wait_task w x hx
  rw [ht] at ht₁ ht₂
  cases ht₁
  cases ht₂
  rw [hj] at hrep hcmd
  obtain ⟨rfl, hkind, hcommand, htarget⟩ := hrep
  simp only [Job.command] at hcmd
  exact ⟨hkind, by rw [hcommand, hcmd], htarget target rfl⟩

/-! ## An overtaken switch changes nothing -/

/-- The coordinator shows the same mode under the same generation, with the same switch wait. -/
structure ModeKept (s s' : Session) : Prop where
  mode : s'.mode = s.mode
  shown : s'.shown = s.shown
  generation : s'.generation = s.generation
  waitKey : s'.waitKey = s.waitKey

theorem ModeKept.refl (s : Session) : ModeKept s s := ⟨rfl, rfl, rfl, rfl⟩

theorem ModeKept.trans {s'' : Session} (h₁ : ModeKept s s') (h₂ : ModeKept s' s'') :
    ModeKept s s'' :=
  ⟨h₂.mode.trans h₁.mode, h₂.shown.trans h₁.shown, h₂.generation.trans h₁.generation,
    h₂.waitKey.trans h₁.waitKey⟩

theorem ModeKept.of_coordinator (h : s'.coordinator = s.coordinator) : ModeKept s s' := by
  simp only [coordinator, Coordinator.mk.injEq] at h
  exact ⟨h.1, h.2.1, h.2.2.1, h.2.2.2.1⟩

theorem tasks_eq_of_coordinator (h : s'.coordinator = s.coordinator) : s'.tasks = s.tasks :=
  congrArg Coordinator.tasks h

theorem ModeKept.setStage (i : Nat) (st : Stage) : ModeKept s (after (setStage i st) s) :=
  ⟨rfl, rfl, rfl, rfl⟩

theorem ModeKept.finish (i : Nat) (o : Outcome) : ModeKept s (after (finish i o) s) :=
  ⟨rfl, rfl, rfl, rfl⟩

/-- A move from `s` to `s'` that runs switch task `i`, to `target`, as an overtaken switch: the
coordinator shows what it showed, and at most that the switch was superseded is reported. -/
def Overtaken (s s' : Session) (i : Nat) (target : ServiceMode) : Prop :=
  ModeKept s s' ∧
    (s'.done = s.done ∨ s'.done = s.done ++ [(i, Outcome.switchFailed (.superseded target))])

theorem answer_failSwitch_stale {g : Nat} {e : CommandError} (hg : u.generation ≠ g) :
    answer (failSwitch g target e) u = .superseded target := by
  simp [failSwitch, answer_revert, after_revert, hg]

/-- A switch whose generation is no longer the session's concludes as superseded, whatever its
reply: it neither commits nor reverts. -/
theorem conclude_overtaken (hj : t.job = .switchMode target timeout)
    (hg : u.generation ≠ t.generation) (reply : Reply) :
    after (conclude i t reply) u = after (finish i (.switchFailed (.superseded target))) u := by
  cases reply with
  | answer e =>
    simp only [Session.conclude, hj, after_bind, answer_commit, after_commit, hg, decide_false,
      Bool.false_eq_true, ↓reduceIte]
  | failure f =>
    simp only [Session.conclude, hj, after_bind, answer_failSwitch_stale hg, after_failSwitch, hg,
      ↓reduceIte]

/-- A switch resumed once a newer generation came reports at most that it was superseded, and
leaves the coordinator as it was. -/
theorem resume_overtaken (hj : t.job = .switchMode target timeout)
    (hg : u.generation ≠ t.generation) (w : Nat) (d : Option (Nat × Nat)) :
    after (resume i t w d) u = u ∨ ∃ u', ModeKept u u' ∧ u'.done = u.done ∧
      after (resume i t w d) u = after (finish i (.switchFailed (.superseded target))) u' := by
  simp only [Session.resume, after_bind, after_wait?, answer_wait?]
  cases hx : u.waits[w]? with
  | none => exact .inl rfl
  | some x =>
    simp only
    cases hslot : x.slot with
    | filled reply => exact .inr ⟨u, .refl u, rfl, conclude_overtaken hj hg reply⟩
    | dropped => exact .inr ⟨u, .refl u, rfl, conclude_overtaken hj hg _⟩
    | empty =>
      cases d with
      | none => exact .inl rfl
      | some due =>
        simp only [after_bind, answer_get, after_get]
        by_cases hdue : due.1 ≤ u.clock
        · -- timed out: the wait is released first
          simp only [hdue, ↓reduceIte, after_bind, after_discard]
          have hk := ModeKept.of_coordinator (coordinator_forceRelease (s := u) x.key)
          exact .inr ⟨_, hk, done_forceRelease _,
            conclude_overtaken hj (by rw [hk.generation]; exact hg) _⟩
        · simp only [hdue, ↓reduceIte, after_pure, true_or]

/-- Polling a switch in flight that a newer generation overtook changes neither the mode, the
generation nor the switch wait, and reports at most that the switch was superseded. -/
theorem poll_overtaken (ht : s.tasks[i]? = some t) (hj : t.job = .switchMode target timeout)
    (hfly : InFlight t) (hg : t.generation ≠ s.generation) :
    Overtaken s (after (poll i) s) i target := by
  simp only [Session.poll, after_bind, after_task?, answer_task?, ht]
  cases hst : t.stage with
  | ready | finished => simp [InFlight, hst, Stage.wait?] at hfly
  | sending w => exact ⟨.refl s, .inl rfl⟩
  | awaiting w d =>
    simp only
    rcases resume_overtaken hj (Ne.symm hg) w d with h | ⟨u', hk, hdone, h⟩
    · rw [h]
      exact ⟨.refl s, .inl rfl⟩
    · rw [h]
      refine ⟨hk.trans (.finish i _), .inr ?_⟩
      rw [after_finish, hdone]

/-- An overtaken switch whose send was handed over does not record its wait: it finds its
generation gone, takes the wait's key out and reports that it was superseded. -/
theorem proceed_overtaken (hj : t.job = .switchMode target timeout)
    (hg : u.generation ≠ t.generation) (w : Nat) :
    ∃ u', ModeKept u u' ∧ u'.done = u.done ∧
      after (proceed i t w) u = after (finish i (.switchFailed (.superseded target))) u' := by
  have htr : after (track t.generation (waitKeyOf .serviceChoice w)) u = u := by
    rw [after_track, if_neg hg]
  simp only [Session.proceed, hj, after_bind, answer_track, decide_eq_false hg, htr,
    Bool.false_eq_true, ↓reduceIte, after_discard]
  exact ⟨_, .of_coordinator (coordinator_forceRelease _), done_forceRelease _, rfl⟩

/-- The end of the send of a switch that a newer generation overtook changes neither the mode,
the generation nor the switch wait: refused or handed over, the switch does not record its wait,
and reports at most that it was superseded. -/
theorem endSend_overtaken (ht : s.tasks[i]? = some t) (hj : t.job = .switchMode target timeout)
    (hg : t.generation ≠ s.generation) (ended : Option String) :
    Overtaken s (after (endSend i ended) s) i target := by
  rcases after_endSend_of ht ended with he | ⟨w, -, ⟨msg, -, he⟩ | ⟨-, he⟩⟩ <;> rw [he]
  · exact ⟨.refl s, .inl rfl⟩
  · -- refused: the failure is taken up under a generation that is gone
    have hk := ModeKept.of_coordinator
      (coordinator_forceRelease (s := s) (waitKeyOf t.job.command w))
    simp only [Session.carry]
    rw [conclude_overtaken hj (by rw [hk.generation]; exact Ne.symm hg)]
    exact ⟨hk.trans (.finish i _), .inr (by rw [after_finish, done_forceRelease])⟩
  · -- handed over: the command is recorded as sent, and the switch does not track its wait
    have h₀ : ModeKept s { s with sent := s.sent ++ [⟨t.job.command, t.job.params⟩] } :=
      .of_coordinator rfl
    obtain ⟨u', hk, hdone, hu⟩ :=
      proceed_overtaken (i := i) (u := { s with sent := s.sent ++ [⟨t.job.command, t.job.params⟩] })
        hj (Ne.symm hg) w
    simp only [Session.carry]
    rw [hu]
    exact ⟨(h₀.trans hk).trans (.finish i _), .inr (by rw [after_finish, hdone])⟩

/-- Aborting a switch that a newer generation overtook releases its wait and finishes it, but
abandons nothing: the mode, the generation and the switch wait stay, and nothing is reported. -/
theorem abort_overtaken (ht : s.tasks[i]? = some t) (hj : t.job = .switchMode target timeout)
    (hg : t.generation ≠ s.generation) :
    ModeKept s (after (abort i) s) ∧ (after (abort i) s).done = s.done := by
  simp only [Session.abort, after_bind, after_task?, answer_task?, ht]
  cases hst : t.stage with
  | ready | finished => exact ⟨.refl s, rfl⟩
  | sending w | awaiting w _ =>
    have hstale : ∀ u : Session, ModeKept s u → after (abandonSwitch t.generation) u = u :=
      fun u hu => by rw [after_abandonSwitch, if_neg (by rw [hu.generation]; exact Ne.symm hg)]
    simp only [after_bind, after_wait?, answer_wait?, hj]
    cases hx : s.waits[w]? with
    | some x =>
      have hk := ModeKept.of_coordinator (coordinator_forceRelease (s := s) x.key)
      simp only [after_bind, after_discard, hstale _ hk]
      exact ⟨hk.trans (.setStage _ _), done_forceRelease _⟩
    | none =>
      simp only [after_bind, hstale s (.refl s)]
      exact ⟨.setStage _ _, rfl⟩

/-! ## The newest switch decides -/

/-- Switches in flight have generations of their own, so while one of them is current every
other one is overtaken. -/
theorem ModeSound.overtaken {j : Nat} {ti tj : Task} {a : ServiceMode} (h : ModeSound Flying s)
    (hi : s.tasks[i]? = some ti) (hj : s.tasks[j]? = some tj) (hij : i ≠ j)
    (hsi : Switching Flying i ti a) (hsj : Switching Flying j tj target)
    (hg : tj.generation = s.generation) : ti.generation ≠ s.generation := fun hgi =>
  hij (h.generation_unique i j ti tj a target hi hj hsi hsj (hgi.trans hg.symm))

/-- While the current switch, to `target`, is in flight, the mode is pending on `target`, and
polling or aborting any other switch in flight, or ending its send, leaves it so. -/
theorem ModeSound.newest {j : Nat} {ti tj : Task} {a : ServiceMode} (h : ModeSound Flying s)
    (hi : s.tasks[i]? = some ti) (hj : s.tasks[j]? = some tj) (hij : i ≠ j)
    (hsi : Switching Flying i ti a) (hsj : Switching Flying j tj target)
    (hg : tj.generation = s.generation) :
    s.mode.active = .pending (some target) ∧
      (after (Session.poll i) s).mode.active = .pending (some target) ∧
      (∀ ended, (after (Session.endSend i ended) s).mode.active = .pending (some target)) ∧
      (after (Session.abort i) s).mode.active = .pending (some target) := by
  have hpending := h.current_pending j tj target hj hsj hg
  have hold := h.overtaken hi hj hij hsi hsj hg
  obtain ⟨⟨timeout, hjob⟩, hfly⟩ := hsi
  refine ⟨hpending, ?_, fun ended => ?_, ?_⟩
  · rw [(poll_overtaken hi hjob hfly hold).1.mode]
    exact hpending
  · rw [(endSend_overtaken hi hjob hold ended).1.mode]
    exact hpending
  · rw [(abort_overtaken hi hjob hold).1.mode]
    exact hpending

/-! ## The last request wins -/

/-- Task `i`'s own commit to `target` shows in `s`, with the answer it was made on: the target is
the mode, the task's generation is still the session's, and a wait of the task holds a
`command_success` for `service_choice` that reports the target. -/
def CommittedOn (s : Session) (i : Nat) (target : ServiceMode) : Prop :=
  s.mode.active = .ofMode target ∧ (∃ t, s.tasks[i]? = some t ∧ t.generation = s.generation) ∧
    ∃ (w : Nat) (x : Wait) (e : Envelope), s.waits[w]? = some x ∧ x.owner = i ∧
      x.slot = .filled (.answer e) ∧ e.kind.wireName = EventKind.commandSuccess.wireName ∧
      e.command = some .serviceChoice ∧ reportedMode e = some target

/-- A switch's commit that shows after a move of a reachable session carries the answer it was
made on: the waits' answers stay sound, and the task keeps its job. -/
theorem CommittedBy.on (h : CommittedBy s' i target) (hs : Reachable s') (he : Evolves s s')
    (ht : s.tasks[i]? = some t) (hj : t.job = .switchMode target timeout) :
    CommittedOn s' i target := by
  obtain ⟨hmode, hgen, w, x, e, hx, hown, hslot⟩ := h
  obtain ⟨t', ht', hjob⟩ := he.jobs i t ht
  exact ⟨hmode, hgen, w, x, e, hx, hown, hslot,
    switch_reply_reports hs.repliesSound hs.waitsSound hx hslot (hown ▸ ht') (hjob.trans hj)⟩

/-- In a reachable session a switch task's poll reports success only for its target: at once,
when the target is already the stable mode, sending nothing and leaving the coordinator as it was;
or by its own commit, with the answer its wait holds a `command_success` for `service_choice`
that reports the target. -/
theorem Reachable.switched (hs : Reachable s) (ht : s.tasks[i]? = some t)
    (hj : t.job = .switchMode target timeout)
    (hd : (after (poll i) s).done = s.done ++ [(i, Outcome.switched m)]) :
    m = target ∧
      ((t.stage = .ready ∧ s.mode.stable = some target ∧ ModeKept s (after (poll i) s) ∧
          (after (poll i) s).sent = s.sent) ∨ CommittedOn (after (poll i) s) i target) := by
  obtain ⟨hm, hcases⟩ := poll_switched hs.waitsSound ht hj hd
  refine ⟨hm, ?_⟩
  rcases hcases with ⟨hst, hstable, heq⟩ | hc
  · left
    rw [heq]
    exact ⟨hst, hstable, .finish i _, rfl⟩
  · exact .inr (hc.on (hs.move (.poll i)) (Evolves.poll hs.waitsSound i) ht hj)

/-- In a reachable session the end of a switch's send reports success only when the send was
handed over, and then by the switch's own commit on an answer for its target. -/
theorem Reachable.switched_late {ended : Option String} (hs : Reachable s)
    (ht : s.tasks[i]? = some t) (hj : t.job = .switchMode target timeout)
    (hd : (after (endSend i ended) s).done = s.done ++ [(i, Outcome.switched m)]) :
    m = target ∧ ended = none ∧ CommittedOn (after (endSend i ended) s) i target := by
  obtain ⟨hm, hnone, hc⟩ := endSend_switched hs.waitsSound ht hj hd
  exact ⟨hm, hnone,
    hc.on (hs.move (.endSend i ended)) (Evolves.endSend hs.waitsSound i ended) ht hj⟩

/-- How the switch requests of a session decide its mode. -/
structure LastRequestWins (s : Session) : Prop where
  /-- Beginning a switch to a mode that is not the stable one, observing a mode, cancelling a
  pending switch and abandoning the current one each start a new generation. -/
  supersede : (∀ target, s.mode.stable ≠ some target →
      (after (beginSwitch target) s).generation = s.generation + 1) ∧
    (∀ m, (after (observe m) s).generation = s.generation + 1) ∧
    (∀ target, s.mode.active = .pending (some target) →
      (after cancelSwitch s).generation = s.generation + 1) ∧
    (after (abandonSwitch s.generation) s).generation = s.generation + 1
  /-- No run takes the generation back: a switch that finds its own generation current has seen
  no transition that supersedes it. -/
  monotone : ∀ s', Relation.ReflTransGen Move s s' → s.generation ≤ s'.generation
  /-- A switch's poll reports success only for its target: when the target was already the
  stable mode at its start, sending nothing and leaving the coordinator as it was; or by its own
  commit, which made the target the mode under the switch's own generation once its wait held a
  `command_success` for `service_choice` reporting the target. -/
  switched : ∀ (i : Nat) (t : Task) (target : ServiceMode) (timeout : Option Nat)
    (m : ServiceMode), s.tasks[i]? = some t → t.job = .switchMode target timeout →
    (after (poll i) s).done = s.done ++ [(i, .switched m)] → m = target ∧
      ((t.stage = .ready ∧ s.mode.stable = some target ∧ ModeKept s (after (poll i) s) ∧
          (after (poll i) s).sent = s.sent) ∨ CommittedOn (after (poll i) s) i target)
  /-- The end of a switch's send, however many moves after its start, reports success only when
  the send was handed over, and by the switch's own commit as above. -/
  switched_late : ∀ (i : Nat) (t : Task) (target : ServiceMode) (timeout : Option Nat)
    (ended : Option String) (m : ServiceMode), s.tasks[i]? = some t →
    t.job = .switchMode target timeout →
    (after (endSend i ended) s).done = s.done ++ [(i, Outcome.switched m)] →
    m = target ∧ ended = none ∧ CommittedOn (after (endSend i ended) s) i target
  /-- A switch in flight that a newer generation overtook, polled, ending its send or aborted,
  leaves the mode, the generation and the switch wait as they are, and reports nothing but that
  it was superseded: in particular it does not record its wait when its send ends. -/
  overtaken : ∀ (i : Nat) (t : Task) (target : ServiceMode) (timeout : Option Nat),
    s.tasks[i]? = some t → t.job = .switchMode target timeout → InFlight t →
    t.generation ≠ s.generation →
    Overtaken s (after (poll i) s) i target ∧
      (∀ ended, Overtaken s (after (endSend i ended) s) i target) ∧
      ModeKept s (after (abort i) s) ∧ (after (abort i) s).done = s.done
  /-- While the newest switch, to `target`, is in flight, the mode is pending on `target`, and
  polling, ending the send of or aborting any older switch in flight leaves it so. -/
  newest : ∀ (i j : Nat) (ti tj : Task) (a target : ServiceMode), s.tasks[i]? = some ti →
    s.tasks[j]? = some tj → i ≠ j → Switching Flying i ti a → Switching Flying j tj target →
    tj.generation = s.generation →
    s.mode.active = .pending (some target) ∧
      (after (poll i) s).mode.active = .pending (some target) ∧
      (∀ ended, (after (endSend i ended) s).mode.active = .pending (some target)) ∧
      (after (abort i) s).mode.active = .pending (some target)

/-- Whatever the interleaving of switch requests, the ends of their sends, snapshots,
`service_started` notifications, cancels, aborted tasks and the daemon's answers, the last switch
request decides the mode. -/
theorem last_request_wins (hs : Reachable s) : LastRequestWins s where
  supersede := ⟨fun _ h => by rw [generation_beginSwitch, if_neg h], generation_observe,
    fun _ h => generation_cancelSwitch_switching h, by rw [generation_abandonSwitch, if_pos rfl]⟩
  monotone _ hrun := generation_le_of_run hrun
  switched _ _ _ _ _ ht hj hd := hs.switched ht hj hd
  switched_late _ _ _ _ _ _ ht hj hd := hs.switched_late ht hj hd
  overtaken _ _ _ _ ht hj hfly hg :=
    ⟨poll_overtaken ht hj hfly hg, endSend_overtaken ht hj hg, abort_overtaken ht hj hg⟩
  newest _ _ _ _ _ _ hi hj hij hsi hsj hg := hs.modeSound.newest hi hj hij hsi hsj hg

/-- Two switches left in their sends, the older one to `client`, the newer one to `server`; the
older send is then handed over, and the older switch ends superseded, the mode still pending on
`server`. -/
theorem last_request_wins_overtaken_send :
    let u := after (endSend 0 none) (after (poll 1) (after (Step.run (.request .server none))
      (after (poll 0) (after (Step.run (.request .client none))
        (after (Step.run (.stall true)) (new ""))))))
    Reachable u ∧ LastRequestWins u ∧ u.mode.active = .pending (some .server) ∧
      u.done = [(0, .switchFailed (.superseded .client))] := by
  intro u
  have hs : Reachable u := (Reachable.new "").move (.step (.stall true) trivial)
    |>.move (.step (.request .client none) trivial) |>.move (.poll 0)
    |>.move (.step (.request .server none) trivial) |>.move (.poll 1) |>.move (.endSend 0 none)
  exact ⟨hs, last_request_wins hs, rfl, rfl⟩

end Session

end DaemonBridge
