import Mathlib
import DaemonBridge.Proofs.Session.Indicator

/-!
# The generation never goes down

The transitions of the mode coordinator that supersede a switch start a new generation: a begin
of a switch to a mode that is not the stable one, an observed mode, a cancel of a pending switch
and the abandonment of the current switch (`generation_beginSwitch`, `generation_observe`,
`generation_cancelSwitch_switching`, `generation_abandonSwitch`). Nothing takes the generation
back: every move keeps or raises it (`generation_le_move`), so along a run it only grows
(`generation_le_of_run`). A switch that still finds its own generation current has seen none of
those transitions since its begin.
-/

namespace DaemonBridge

namespace Session

variable {s s' : Session} {i : Nat} {t : Task}

/-! ## The transitions that start a generation -/

@[simp] theorem generation_superseded (m : ModeState) :
    (s.superseded m).generation = s.generation + 1 := rfl

theorem generation_beginSwitch (target : ServiceMode) :
    (after (beginSwitch target) s).generation =
      if s.mode.stable = some target then s.generation else s.generation + 1 := by
  rw [after_beginSwitch]
  split <;> simp [generation_releaseStale]

theorem generation_observe (m : ServiceMode) :
    (after (observe m) s).generation = s.generation + 1 := by
  obtain ⟨previous, h⟩ := after_observe (s := s) m
  rw [h, generation_releaseStale, generation_superseded]

theorem generation_abandonSwitch (g : Nat) :
    (after (abandonSwitch g) s).generation =
      if s.generation = g then s.generation + 1 else s.generation := by
  rw [after_abandonSwitch]
  split <;> simp [generation_releaseStale]

theorem generation_cancelSwitch_switching {target : ServiceMode}
    (h : s.mode.active = .pending (some target)) :
    (after cancelSwitch s).generation = s.generation + 1 := by
  rw [after_cancelSwitch_switching h, generation_releaseStale, generation_superseded]

/-! ## Nothing takes it back -/

theorem generation_le_of_coordinator (h : s'.coordinator = s.coordinator) :
    s.generation ≤ s'.generation :=
  (congrArg Coordinator.generation h).ge

theorem generation_le_beginSwitch (target : ServiceMode) :
    s.generation ≤ (after (beginSwitch target) s).generation := by
  rw [generation_beginSwitch]
  split <;> omega

theorem generation_le_observe (m : ServiceMode) :
    s.generation ≤ (after (observe m) s).generation := by
  rw [generation_observe]
  omega

theorem generation_le_abandonSwitch (g : Nat) :
    s.generation ≤ (after (abandonSwitch g) s).generation := by
  rw [generation_abandonSwitch]
  split <;> omega

theorem generation_le_cancelSwitch : s.generation ≤ (after cancelSwitch s).generation := by
  by_cases hs : ∃ target, s.mode.active = .pending (some target)
  · obtain ⟨target, ht⟩ := hs
    rw [generation_cancelSwitch_switching ht]
    omega
  · rw [after_cancelSwitch_other (fun target ht => hs ⟨target, ht⟩)]

theorem generation_le_applySnapshot (snap : StatusSnapshot) :
    s.generation ≤ (after (applySnapshot snap) s).generation := by
  rw [after_applySnapshot]
  cases snap.activeMode with
  | none => exact le_rfl
  | some m => exact generation_le_observe m

theorem generation_le_takeStatus (e : Envelope) :
    s.generation ≤ (after (takeStatus e) s).generation := by
  simp only [Session.takeStatus]
  split
  · split
    · simp only [after_bind, after_discard, after_pure]
      exact generation_le_applySnapshot _
    · exact le_rfl
  · simp only [after_bind, after_discard, after_pure]
    exact generation_le_applySnapshot _

theorem generation_le_handle (e : Envelope) (handler : Handler) :
    s.generation ≤ (after (handle e handler) s).generation := by
  cases handler with
  | waitSuccess w command target =>
    simp only [Session.handle, after_ite]
    split
    · exact generation_le_of_coordinator (coordinator_deliver w _)
    · exact le_rfl
  | waitError w command =>
    simp only [Session.handle, after_ite]
    split
    · exact generation_le_of_coordinator (coordinator_deliver w _)
    · exact le_rfl
  | errorWatch command label =>
    simp only [Session.handle, after_ite]
    split <;> exact le_rfl
  | listener label => exact le_rfl
  | serviceStarted =>
    -- the one handler that moves the coordinator: a reported mode is observed
    simp only [Session.handle]
    split
    · split
      · exact generation_le_observe _
      · exact le_rfl
    · exact le_rfl
  | rosterFeed online => exact generation_le_of_coordinator (coordinator_feedRoster e online)

theorem generation_le_publish (e : Envelope) :
    s.generation ≤ (after (publish e) s).generation := by
  simp only [Session.publish, after_bind, answer_get, after_get, after_pure]
  exact forM_keeps (P := fun t : Session => s.generation ≤ t.generation)
    (fun p _ t ht => ht.trans (generation_le_handle e p.2)) le_rfl

theorem generation_le_send (command : CommandKind) (params : Option Json.Value) :
    s.generation ≤ (after (send command params) s).generation := by
  by_cases hr : s.refusing = true
  · simp [Session.send, hr]
  · by_cases hs : s.stalling = true
    · simp [Session.send, hr, hs]
    · simp only [Session.send, hr, hs, after_bind, answer_get, after_get]
      exact forM_keeps (P := fun t : Session => s.generation ≤ t.generation)
        (fun e _ t ht => ht.trans (by simpa [after_discard] using generation_le_publish e)) le_rfl

theorem generation_le_dispatchFor (owner : Nat) (success failure : EventKind)
    (command : CommandKind) (params : Option Json.Value) (target : Option ServiceMode) :
    s.generation ≤ (after (dispatchFor owner success failure command params target) s).generation := by
  have h₁ : s.generation ≤ (after (send command params)
      (after (openWait owner success failure command target) s)).generation :=
    (generation_le_of_coordinator (coordinator_openWait owner success failure command target)).trans
      (generation_le_send command params)
  simp only [Session.dispatchFor, after_bind]
  generalize answer (Session.send command params) _ = r
  rcases after_sendEnded command _ r with he | he <;> rw [he]
  · exact h₁
  · exact h₁.trans (generation_le_of_coordinator (coordinator_forceRelease _))

theorem generation_le_dispatchJob (i : Nat) (j : Job) :
    s.generation ≤ (after (dispatchJob i j) s).generation :=
  generation_le_dispatchFor i j.success j.failure j.command j.params j.target?

/-! ## Tasks -/

@[simp] theorem generation_setStage (st : Stage) :
    (after (setStage i st) s).generation = s.generation := rfl

@[simp] theorem generation_finish (o : Outcome) :
    (after (finish i o) s).generation = s.generation := rfl

@[simp] theorem generation_commit (g : Nat) (target : ServiceMode) :
    (after (commit g target) s).generation = s.generation := by
  rw [after_commit]
  split <;> rfl

@[simp] theorem generation_failSwitch (g : Nat) (target : ServiceMode) (e : CommandError) :
    (after (failSwitch g target e) s).generation = s.generation := by
  rw [after_failSwitch]
  split <;> rfl

theorem generation_le_conclude (t : Task) (reply : Reply) :
    s.generation ≤ (after (conclude i t reply) s).generation := by
  simp only [Session.conclude]
  split
  · simp only [after_bind, after_ite]
    split <;> simp only [generation_finish, generation_commit, le_refl]
  · simp only [after_bind, generation_finish, generation_failSwitch, le_refl]
  · simp only [after_bind, generation_finish]
    exact generation_le_takeStatus _
  all_goals simp only [generation_finish, le_refl]

theorem generation_le_resume (t : Task) (w : Nat) (deadline : Option (Nat × Nat)) :
    s.generation ≤ (after (resume i t w deadline) s).generation := by
  simp only [Session.resume, after_bind, after_wait?, answer_wait?]
  cases hx : s.waits[w]? with
  | none => exact le_rfl
  | some x =>
    simp only
    cases hslot : x.slot with
    | filled reply => exact generation_le_conclude t reply
    | dropped => exact generation_le_conclude t _
    | empty =>
      cases deadline with
      | none => exact le_rfl
      | some d =>
        simp only [after_bind, answer_get, after_get]
        by_cases hd : d.1 ≤ s.clock
        · simp only [hd, ↓reduceIte, after_bind, after_discard]
          exact (generation_le_of_coordinator (coordinator_forceRelease _)).trans
            (generation_le_conclude t _)
        · simp only [hd, ↓reduceIte, after_pure]
          exact le_rfl

theorem generation_le_awaitSlot (w : Nat) (timeout : Option Nat) :
    s.generation ≤ (after (awaitSlot i w timeout) s).generation := by
  simp only [Session.awaitSlot, after_bind, answer_get, after_get, after_task?, answer_task?]
  split
  · exact generation_le_resume (s := after (setStage i _) s) _ _ _
  · exact le_rfl

/-- Following a command up records its wait under the task's generation, or finishes. -/
theorem generation_le_proceed (t : Task) (w : Nat) :
    s.generation ≤ (after (proceed i t w) s).generation := by
  obtain ⟨job, gen, stage⟩ := t
  cases job with
  | switchMode target timeout =>
    simp only [Session.proceed, after_bind]
    refine (generation_track gen (waitKeyOf .serviceChoice w)).ge.trans ?_
    split
    · exact generation_le_awaitSlot _ _
    · simp only [after_bind, after_discard, generation_finish]
      exact generation_le_of_coordinator (coordinator_forceRelease _)
  | refreshStatus timeout => exact generation_le_awaitSlot _ _
  | dispatch success failure command params timeout =>
    simp only [Session.proceed, after_bind, after_modify]
    exact generation_le_awaitSlot (s := { s with keys := s.keys ++ [(i, waitKeyOf command w)] }) _ _

theorem generation_le_carry (t : Task) (d : Dispatched) :
    s.generation ≤ (after (carry i t d) s).generation := by
  cases d with
  | refused e => exact generation_le_conclude t _
  | stalled w => exact le_rfl
  | sent w => exact generation_le_proceed t w

theorem generation_le_start (t : Task) : s.generation ≤ (after (start i t) s).generation := by
  obtain ⟨job, gen, stage⟩ := t
  cases job with
  | switchMode target timeout =>
    simp only [Session.start, after_bind]
    refine (generation_le_beginSwitch (s := s) target).trans ?_
    cases answer (Session.beginSwitch target) s with
    | none => simp only [generation_finish, le_refl]
    | some g =>
      simp only [after_bind, after_modify]
      exact (generation_le_dispatchJob (s := { after (beginSwitch target) s with
        tasks := (after (beginSwitch target) s).tasks.modify i fun t => { t with generation := g } })
        i _).trans (generation_le_carry _ _)
  | refreshStatus timeout | dispatch success failure command params timeout =>
    simp only [Session.start, after_bind]
    exact (generation_le_dispatchJob i _).trans (generation_le_carry _ _)

theorem generation_le_poll (i : Nat) : s.generation ≤ (after (poll i) s).generation := by
  simp only [Session.poll, after_bind, after_task?, answer_task?]
  split
  · split
    · exact generation_le_start _
    · exact generation_le_resume _ _ _
    all_goals exact le_rfl
  · exact le_rfl

theorem generation_le_endSend (i : Nat) (ended : Option String) :
    s.generation ≤ (after (endSend i ended) s).generation := by
  rcases after_endSend (s := s) i ended with he | ⟨t, w, -, -, ⟨m, -, he⟩ | ⟨-, he⟩⟩
  · rw [he]
  · rw [he]
    exact (generation_le_of_coordinator (coordinator_forceRelease _)).trans
      (generation_le_carry t _)
  · rw [he]
    exact generation_le_carry (s := { s with sent := s.sent ++ [⟨t.job.command, t.job.params⟩] }) t _

theorem generation_le_abort (i : Nat) : s.generation ≤ (after (abort i) s).generation := by
  simp only [Session.abort, after_bind, after_task?, answer_task?]
  cases ht : s.tasks[i]? with
  | none => exact le_rfl
  | some t =>
    simp only
    cases hst : t.stage with
    | ready | finished => exact le_rfl
    | sending w | awaiting w _ =>
      -- the wait's key is taken out, a switch abandoned, and the task finished
      simp only [after_bind, after_wait?, answer_wait?]
      cases hx : s.waits[w]? with
      | some x =>
        simp only [after_bind, after_discard]
        refine (generation_le_of_coordinator (coordinator_forceRelease x.key)).trans ?_
        split
        · exact generation_le_abandonSwitch _
        · exact le_rfl
      | none =>
        simp only
        split
        · exact generation_le_abandonSwitch _
        · exact le_rfl

theorem generation_le_advance (ms : Nat) : s.generation ≤ (after (advance ms) s).generation := by
  simp only [Session.advance, after_bind, after_modify, answer_get, after_get]
  exact forM_keeps (P := fun t : Session => s.generation ≤ t.generation)
    (fun _ _ t ht => ht.trans (generation_le_of_coordinator (coordinator_wake _))) le_rfl

/-! ## Every move -/

theorem generation_le_run (a : Step) : s.generation ≤ (after a.run s).generation := by
  cases a with
  | request | refresh | dispatch =>
    simp only [Step.run, after_bind, after_pure, after_spawn, after_wake]
    split <;> exact le_rfl
  | abort task =>
    simp only [Step.run, after_bind, after_pure]
    exact generation_le_abort task
  | publish e =>
    simp only [Step.run, after_bind, after_pure]
    exact generation_le_publish e
  | advance ms =>
    simp only [Step.run, after_bind, after_pure]
    exact generation_le_advance ms
  | cancel =>
    simp only [Step.run, after_bind, after_pure]
    exact generation_le_cancelSwitch
  | assume m =>
    simp only [Step.run, after_bind, after_pure, after_assume]
    split <;> exact le_rfl
  | snapshot value =>
    simp only [Step.run]
    split
    · simp only [after_bind, after_pure]
      exact generation_le_applySnapshot _
    · exact le_rfl
  -- the remaining steps subscribe, register or release keys, or touch no coordinator state
  | watchErrors | listen | releaseKey | forceReleaseKey | releaseAll | attach | detach
  | rosterAttach | rosterDetach =>
    exact generation_le_of_coordinator (by simp [Step.run, attachServiceStarted,
      detachServiceStarted, attachRoster, detachRoster, feeds, -after_subscribe])
  | rosterRemove key =>
    simp only [Step.run, after_bind, after_get]
    split <;> exact le_rfl
  | rosterReconcile o online =>
    simp only [Step.run, after_bind, after_get]
    split <;> exact le_rfl
  | refCount | respondNext | reject | stall | state | rosterAttached | roster | rosterGet
  | rosterReset => exact le_rfl

theorem generation_le_move (hm : Move s s') : s.generation ≤ s'.generation := by
  cases hm with
  | step a _ => exact generation_le_run a
  | poll i => exact generation_le_poll i
  | endSend i ended => exact generation_le_endSend i ended
  | dequeue | clearLogs => exact le_rfl

/-- Along a run the generation only grows. -/
theorem generation_le_of_run (hrun : Relation.ReflTransGen Move s s') :
    s.generation ≤ s'.generation := by
  induction hrun with
  | refl => exact le_rfl
  | tail _ hm ih => exact ih.trans (generation_le_move hm)

end Session

end DaemonBridge
