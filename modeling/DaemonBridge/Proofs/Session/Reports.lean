import Mathlib
import DaemonBridge.Proofs.Session.LastRequest

/-!
# Switch failures and their reports

A switch call that fails without being superseded ends with `Switch` or `Timeout` and reports
`ModeSwitchFailed` for its target; nothing else reports that diagnostic. `ReportsFailures s s'`
keeps the account of a stretch of a run: the calls it ends are logged after those of `s`, and the
switch failures it reports are, in order, the targets of the calls among them that ended with
`Switch` or `Timeout`.

Every primitive keeps the account: the plumbing ends no call and reports at most an unknown key
or a client it cannot place, and `failSwitch`, followed by the `finish` that logs its error, adds
one ended call and its report together, or neither's report when the switch was superseded. So
every move keeps it (`reportsFailures_move`), clearing the logs clears both sides, and in every
reachable session the switch failures reported since the logs were last cleared are exactly the
calls that failed since (`Reachable.reported`).
-/

namespace DaemonBridge

/-- The target of a switch that failed without being superseded. -/
def ModeError.failedSwitch? : ModeError → Option ServiceMode
  | .switch target _ | .timeout target _ => some target
  | .superseded _ | .status _ => none

namespace Session

/-- The target of a switch call that ended with `Switch` or `Timeout`. -/
def Outcome.failedSwitch? : Outcome → Option ServiceMode
  | .switchFailed e => e.failedSwitch?
  | _ => none

/-- The targets of the switch failures a diagnostics log reports, in order. -/
def switchReports (ds : List Diagnostic) : List ServiceMode :=
  ds.filterMap fun
    | .modeSwitchFailed target _ => some target
    | _ => none

/-- The targets of the switch calls a log of finished tasks shows failed, in order. -/
def switchFailures (done : List (Nat × Outcome)) : List ServiceMode :=
  done.filterMap fun p => p.2.failedSwitch?

@[simp] theorem switchReports_append (ds ds' : List Diagnostic) :
    switchReports (ds ++ ds') = switchReports ds ++ switchReports ds' :=
  List.filterMap_append

@[simp] theorem switchFailures_append (F F' : List (Nat × Outcome)) :
    switchFailures (F ++ F') = switchFailures F ++ switchFailures F' :=
  List.filterMap_append

/-- From `s` to `s'` the calls ended are logged after those of `s`, and the switch failures
reported after those of `s` are the targets of the calls among them that failed. -/
def ReportsFailures (s s' : Session) : Prop :=
  ∃ F, s'.done = s.done ++ F ∧
    switchReports s'.diagnostics = switchReports s.diagnostics ++ switchFailures F

variable {s s' s'' : Session} {i : Nat}

theorem ReportsFailures.refl (s : Session) : ReportsFailures s s :=
  ⟨[], by simp, by simp [switchFailures]⟩

theorem ReportsFailures.trans (h₁ : ReportsFailures s s') (h₂ : ReportsFailures s' s'') :
    ReportsFailures s s'' := by
  obtain ⟨F₁, hd₁, hr₁⟩ := h₁
  obtain ⟨F₂, hd₂, hr₂⟩ := h₂
  refine ⟨F₁ ++ F₂, by rw [hd₂, hd₁, List.append_assoc], ?_⟩
  rw [hr₂, hr₁, switchFailures_append, List.append_assoc]

/-- A stretch that ends no call and reports no switch failure. -/
theorem ReportsFailures.quiet (hd : s'.done = s.done)
    (hr : switchReports s'.diagnostics = switchReports s.diagnostics) : ReportsFailures s s' :=
  ⟨[], by rw [hd, List.append_nil], by simp [hr, switchFailures]⟩

theorem ReportsFailures.of_eq (hd : s'.done = s.done) (hr : s'.diagnostics = s.diagnostics) :
    ReportsFailures s s' :=
  .quiet hd (by rw [hr])

/-- Over a stretch that ends no call, no switch failure is reported. -/
theorem ReportsFailures.silent (h : ReportsFailures s s') (hd : s'.done = s.done) :
    switchReports s'.diagnostics = switchReports s.diagnostics := by
  obtain ⟨F, hF, hr⟩ := h
  have hnil : F = [] := by simpa [hd] using hF
  rw [hr, hnil]
  simp [switchFailures]

/-- Over a stretch that ends the one call `o`, the reports grow by that call's failed switch. -/
theorem ReportsFailures.single {o : Outcome} (h : ReportsFailures s s')
    (hd : s'.done = s.done ++ [(i, o)]) :
    switchReports s'.diagnostics = switchReports s.diagnostics ++ o.failedSwitch?.toList := by
  obtain ⟨F, hF, hr⟩ := h
  obtain rfl : F = [(i, o)] := (List.append_cancel_left (hF.symm.trans hd))
  rw [hr]
  simp only [switchFailures, List.filterMap_cons, List.filterMap_nil]
  cases o.failedSwitch? <;> rfl

/-! ## Releases -/

theorem reportsFailures_wake (j : Nat) : ReportsFailures s (after (wake j) s) := by
  obtain ⟨q, h⟩ := after_wake_eq (s := s) j
  rw [h]
  exact .of_eq rfl rfl

theorem reportsFailures_runRelease (r : Release) : ReportsFailures s (after (runRelease r) s) := by
  obtain ⟨_, _, _, h⟩ := after_runRelease_eq (s := s) r
  rw [h]
  exact .of_eq rfl rfl

theorem reportsFailures_foldl_runRelease (rs : List Release) (t : Session) :
    ReportsFailures t (rs.foldl (fun t r => after (runRelease r) t) t) := by
  obtain ⟨_, _, _, h⟩ := after_foldl_runRelease_eq rs t
  rw [h]
  exact .of_eq rfl rfl

theorem reportsFailures_forceRelease (key : String) :
    ReportsFailures s (after (forceRelease key) s) := by
  obtain ⟨_, _, _, h⟩ := after_forceRelease_eq (s := s) key
  rw [h]
  exact .of_eq rfl rfl

theorem reportsFailures_releaseStale (k : Option String) :
    ReportsFailures s (after (releaseStale k) s) := by
  cases k with
  | none => exact .refl s
  | some k => exact reportsFailures_forceRelease k

/-- Releasing a key reports at most that the key is unknown. -/
theorem reportsFailures_releaseKey (key : String) :
    ReportsFailures s (after (releaseKey key) s) := by
  cases hf : s.registry.find? key with
  | none =>
    rw [after_releaseKey_none hf]
    exact .quiet rfl (by simp [switchReports])
  | some e =>
    by_cases hn : 1 < e.holders
    · rw [after_releaseKey_held hf hn]
      exact .of_eq rfl rfl
    · rw [after_releaseKey_last hf hn]
      refine .trans ?_ (reportsFailures_runRelease _)
      exact .of_eq rfl rfl

theorem reportsFailures_releaseAll : ReportsFailures s (after releaseAll s) := by
  rw [after_releaseAll]
  refine .trans ?_ (reportsFailures_foldl_runRelease _ _)
  exact .of_eq rfl rfl

theorem reportsFailures_addOnce (key : String) (r : Release) :
    ReportsFailures s (after (addOnce key r) s) := by
  rw [after_addOnce]
  refine .trans ?_ (reportsFailures_foldl_runRelease _ _)
  exact .of_eq rfl rfl

theorem reportsFailures_addShared (key : String) (r : Release) :
    ReportsFailures s (after (addShared key r) s) := by
  rw [after_addShared]
  refine .trans ?_ (reportsFailures_foldl_runRelease _ _)
  exact .of_eq rfl rfl

/-- A fold of actions that each keep the account keeps it. -/
theorem reportsFailures_foldlM {β γ : Type} {f : γ → β → SessionM γ}
    (hf : ∀ c b t, ReportsFailures t (after (f c b) t)) (l : List β) (c : γ) (t : Session) :
    ReportsFailures t (after (l.foldlM f c) t) := by
  induction l generalizing c t with
  | nil => exact .refl t
  | cons b l ih =>
    rw [List.foldlM_cons, after_bind]
    exact (hf c b t).trans (ih _ _)

/-! ## The mode coordinator -/

theorem reportsFailures_beginSwitch (target : ServiceMode) :
    ReportsFailures s (after (beginSwitch target) s) := by
  rw [after_beginSwitch]
  split
  · exact .refl s
  · refine .trans ?_ (reportsFailures_releaseStale _)
    exact .of_eq rfl rfl

theorem reportsFailures_observe (m : ServiceMode) : ReportsFailures s (after (observe m) s) := by
  obtain ⟨previous, h⟩ := after_observe (s := s) m
  rw [h]
  refine .trans ?_ (reportsFailures_releaseStale _)
  exact .of_eq rfl rfl

theorem reportsFailures_abandonSwitch (g : Nat) :
    ReportsFailures s (after (abandonSwitch g) s) := by
  rw [after_abandonSwitch]
  split
  · refine .trans ?_ (reportsFailures_releaseStale _)
    exact .of_eq rfl rfl
  · exact .refl s

theorem reportsFailures_cancelSwitch : ReportsFailures s (after cancelSwitch s) := by
  by_cases hs : ∃ target, s.mode.active = .pending (some target)
  · obtain ⟨target, ht⟩ := hs
    rw [after_cancelSwitch_switching ht]
    refine .trans ?_ (reportsFailures_releaseStale _)
    exact .of_eq rfl rfl
  · rw [after_cancelSwitch_other (fun target ht => hs ⟨target, ht⟩)]
    exact .refl s

theorem reportsFailures_assume (m : ServiceMode) : ReportsFailures s (after (assume m) s) := by
  rw [after_assume]
  split
  · exact .of_eq rfl rfl
  · exact .refl s

theorem reportsFailures_applySnapshot (snap : StatusSnapshot) :
    ReportsFailures s (after (applySnapshot snap) s) := by
  rw [after_applySnapshot]
  cases snap.activeMode with
  | none => exact .refl s
  | some m => exact reportsFailures_observe m

theorem reportsFailures_takeStatus (e : Envelope) :
    ReportsFailures s (after (takeStatus e) s) := by
  simp only [Session.takeStatus]
  split
  · split
    · simp only [after_bind, after_discard, after_pure]
      exact reportsFailures_applySnapshot _
    · exact .refl s
  · simp only [after_bind, after_discard, after_pure]
    exact reportsFailures_applySnapshot _

theorem reportsFailures_track (g : Nat) (key : String) :
    ReportsFailures s (after (track g key) s) := by
  rw [after_track]
  split
  · exact .of_eq rfl rfl
  · exact .refl s

theorem reportsFailures_commit (g : Nat) (target : ServiceMode) :
    ReportsFailures s (after (commit g target) s) := by
  rw [after_commit]
  split
  · exact .of_eq rfl rfl
  · exact .refl s

/-! ## Notifications and sends -/

theorem reportsFailures_deliver (w : Nat) (reply : Reply) :
    ReportsFailures s (after (deliver w reply) s) := by
  cases hx : s.waits[w]? with
  | none =>
    simp only [deliver, after_bind, after_wait?, answer_wait?, hx]
    exact .refl s
  | some x =>
    by_cases hslot : x.slot = .empty
    · -- the slot is filled, its task woken and the wait's key released
      simp only [deliver, after_bind, after_wait?, answer_wait?, hx, hslot, beq_self_eq_true,
        ↓reduceIte, after_discard]
      refine .trans ?_ (reportsFailures_releaseKey _)
      refine .trans ?_ (reportsFailures_wake _)
      exact .of_eq rfl rfl
    · simp only [deliver, after_bind, after_wait?, answer_wait?, hx, beq_iff_eq, hslot,
        ↓reduceIte]
      exact .refl s

/-- Taking a client notification into the roster reports at most a client it cannot place. -/
theorem reportsFailures_feedRoster (e : Envelope) (online : Bool) :
    ReportsFailures s (after (feedRoster e online) s) := by
  simp only [feedRoster, after_bind, answer_get, after_get]
  split
  · exact .of_eq rfl rfl
  all_goals exact .quiet rfl (by simp [switchReports])

theorem reportsFailures_handle (e : Envelope) (handler : Handler) :
    ReportsFailures s (after (handle e handler) s) := by
  cases handler with
  | waitSuccess w command target =>
    simp only [handle, after_ite]
    split
    · exact reportsFailures_deliver w _
    · exact .refl s
  | waitError w command =>
    simp only [handle, after_ite]
    split
    · exact reportsFailures_deliver w _
    · exact .refl s
  | errorWatch command label =>
    simp only [handle, after_ite]
    split
    · exact .of_eq rfl rfl
    · exact .refl s
  | listener label => exact .of_eq rfl rfl
  | serviceStarted =>
    simp only [handle]
    split
    · split
      · exact reportsFailures_observe _
      · exact .refl s
    · exact .refl s
  | rosterFeed online => exact reportsFailures_feedRoster e online

theorem reportsFailures_publish (e : Envelope) : ReportsFailures s (after (publish e) s) := by
  simp only [publish, after_bind, answer_get, after_get, after_pure]
  exact forM_keeps (P := fun t : Session => ReportsFailures s t)
    (fun p _ t ht => ht.trans (reportsFailures_handle e p.2)) (.refl s)

theorem reportsFailures_send (command : CommandKind) (params : Option Json.Value) :
    ReportsFailures s (after (send command params) s) := by
  by_cases hr : s.refusing = true
  · simp only [send, hr, ↓reduceIte, after_bind, answer_get, after_get, after_pure]
    exact .refl s
  · by_cases hs : s.stalling = true
    · simp only [send, hr, hs, Bool.false_eq_true, ↓reduceIte, after_bind, answer_get, after_get,
        after_pure]
      exact .refl s
    · -- the command goes out, and the daemon's next batch of answers is published
      simp only [send, hr, hs, after_bind, answer_get, after_get]
      exact forM_keeps (P := fun t : Session => ReportsFailures s t)
        (fun e _ t ht => ht.trans (by simpa [after_discard] using reportsFailures_publish e))
        (.of_eq rfl rfl)

theorem reportsFailures_openWait (owner : Nat) (success failure : EventKind)
    (command : CommandKind) (target : Option ServiceMode) :
    ReportsFailures s (after (openWait owner success failure command target) s) := by
  obtain ⟨_, _, _, _, h⟩ := after_openWait_eq (u := s) owner success failure command target
  rw [h]
  exact .of_eq rfl rfl

theorem reportsFailures_sendEnded (command : CommandKind) (w : Nat) (r : Sending) :
    ReportsFailures s (after (sendEnded command w r) s) := by
  rcases after_sendEnded (s := s) command w r with he | he <;> rw [he]
  · exact .refl s
  · exact reportsFailures_forceRelease _

theorem reportsFailures_dispatchFor (owner : Nat) (success failure : EventKind)
    (command : CommandKind) (params : Option Json.Value) (target : Option ServiceMode) :
    ReportsFailures s (after (dispatchFor owner success failure command params target) s) := by
  simp only [dispatchFor, after_bind]
  exact (reportsFailures_openWait owner success failure command target).trans
    ((reportsFailures_send command params).trans (reportsFailures_sendEnded _ _ _))

theorem reportsFailures_dispatchJob (i : Nat) (j : Job) :
    ReportsFailures s (after (dispatchJob i j) s) :=
  reportsFailures_dispatchFor ..

theorem reportsFailures_subscribe (name : String) (h : Handler) :
    ReportsFailures s (after (subscribe name h) s) :=
  .of_eq rfl rfl

/-! ## Tasks -/

theorem reportsFailures_setStage (st : Stage) : ReportsFailures s (after (setStage i st) s) :=
  .of_eq rfl rfl

theorem reportsFailures_spawn (job : Job) : ReportsFailures s (after (spawn job) s) := by
  rw [after_spawn]
  refine .trans ?_ (reportsFailures_wake _)
  exact .of_eq rfl rfl

/-- Finishing a task with an outcome that is no failed switch reports nothing. -/
theorem reportsFailures_finish {o : Outcome} (ho : o.failedSwitch? = none) :
    ReportsFailures s (after (finish i o) s) :=
  ⟨[(i, o)], by rw [after_finish], by simp [after_finish, switchFailures, ho]⟩

/-- The error of a switch to `target` that takes up the failure `f` under its own generation. -/
def switchError (target : ServiceMode) : CommandError → ModeError
  | .timeout _ limit => .timeout target limit
  | f => .switch target f

@[simp] theorem failedSwitch?_switchError (target : ServiceMode) (f : CommandError) :
    (switchError target f).failedSwitch? = some target := by
  cases f <;> rfl

/-- A switch that takes up the failure `f` ends with it under its own generation, and superseded
under a newer one. -/
theorem answer_failSwitch {g : Nat} {target : ServiceMode} (f : CommandError) :
    answer (failSwitch g target f) s =
      if s.generation = g then switchError target f else .superseded target := by
  by_cases hg : s.generation = g
  · rw [if_pos hg]
    cases f <;> simp [failSwitch, answer_revert, after_revert, hg, switchError]
  · rw [if_neg hg, answer_failSwitch_stale hg]

theorem done_failSwitch {g : Nat} {target : ServiceMode} (f : CommandError) :
    (after (failSwitch g target f) s).done = s.done := by
  rw [after_failSwitch]
  split <;> rfl

/-- A switch that fails is a failed switch exactly when its generation is current. -/
theorem failedSwitch?_failSwitch (g : Nat) (target : ServiceMode) (e : CommandError) :
    (answer (failSwitch g target e) s).failedSwitch? =
      if s.generation = g then some target else none := by
  rw [answer_failSwitch]
  split
  · exact failedSwitch?_switchError target e
  · rfl

/-- A failed switch ends its call with the error `failSwitch` gives, and reports its target
exactly when that error is `Switch` or `Timeout`. -/
theorem reportsFailures_failSwitch (g : Nat) (target : ServiceMode) (e : CommandError) :
    ReportsFailures s (after (finish i (.switchFailed (answer (failSwitch g target e) s)))
      (after (failSwitch g target e) s)) := by
  refine ⟨[(i, .switchFailed (answer (failSwitch g target e) s))],
    by rw [after_finish, done_failSwitch], ?_⟩
  · have hf := failedSwitch?_failSwitch (s := s) g target e
    simp only [after_finish, switchFailures, List.filterMap_cons, List.filterMap_nil,
      Outcome.failedSwitch?, hf]
    rw [after_failSwitch]
    split <;> simp [switchReports, showing]

theorem reportsFailures_conclude (t : Task) (reply : Reply) :
    ReportsFailures s (after (conclude i t reply) s) := by
  simp only [Session.conclude]
  split
  · simp only [after_bind, after_ite]
    split <;> exact (reportsFailures_commit _ _).trans (reportsFailures_finish rfl)
  · simp only [after_bind]
    exact reportsFailures_failSwitch _ _ _
  · simp only [after_bind]
    refine (reportsFailures_takeStatus _).trans (reportsFailures_finish ?_)
    simp only [Session.takeStatus]
    split
    · split
      · simp only [answer_bind, answer_pure]
        rfl
      · rfl
    · simp only [answer_bind, answer_pure]
      rfl
  all_goals exact reportsFailures_finish rfl

theorem reportsFailures_resume (t : Task) (w : Nat) (deadline : Option (Nat × Nat)) :
    ReportsFailures s (after (resume i t w deadline) s) := by
  simp only [Session.resume, after_bind, after_wait?, answer_wait?]
  cases hx : s.waits[w]? with
  | none => exact .refl s
  | some x =>
    simp only
    cases hslot : x.slot with
    | filled reply => exact reportsFailures_conclude t reply
    | dropped => exact reportsFailures_conclude t _
    | empty =>
      cases deadline with
      | none => exact .refl s
      | some d =>
        simp only [after_bind, answer_get, after_get]
        by_cases hd : d.1 ≤ s.clock
        · simp only [hd, ↓reduceIte, after_bind, after_discard]
          exact (reportsFailures_forceRelease _).trans (reportsFailures_conclude t _)
        · simp only [hd, ↓reduceIte, after_pure]
          exact .refl s

theorem reportsFailures_awaitSlot (w : Nat) (timeout : Option Nat) :
    ReportsFailures s (after (awaitSlot i w timeout) s) := by
  simp only [Session.awaitSlot, after_bind, answer_get, after_get, after_task?, answer_task?]
  split
  · exact (reportsFailures_setStage _).trans (reportsFailures_resume _ _ _)
  · exact reportsFailures_setStage _

/-- Carrying on from a send handed over: a switch records its wait and waits on it, or finishes
superseded; other tasks wait at once. -/
theorem reportsFailures_proceed (t : Task) (w : Nat) :
    ReportsFailures s (after (proceed i t w) s) := by
  obtain ⟨job, gen, stage⟩ := t
  cases job with
  | switchMode target timeout =>
    simp only [Session.proceed, after_bind]
    refine (reportsFailures_track gen (waitKeyOf .serviceChoice w)).trans ?_
    split
    · exact reportsFailures_awaitSlot _ _
    · simp only [after_bind, after_discard]
      exact (reportsFailures_forceRelease _).trans (reportsFailures_finish rfl)
  | refreshStatus timeout => exact reportsFailures_awaitSlot _ _
  | dispatch success failure command params timeout =>
    simp only [Session.proceed, after_bind, after_modify]
    exact (ReportsFailures.of_eq (by rfl) (by rfl)).trans (reportsFailures_awaitSlot _ _)

theorem reportsFailures_carry (t : Task) (d : Dispatched) :
    ReportsFailures s (after (carry i t d) s) := by
  cases d with
  | refused e => exact reportsFailures_conclude t _
  | stalled w => exact reportsFailures_setStage _
  | sent w => exact reportsFailures_proceed t w

theorem reportsFailures_start (t : Task) : ReportsFailures s (after (start i t) s) := by
  obtain ⟨job, gen, stage⟩ := t
  cases job with
  | switchMode target timeout =>
    simp only [Session.start, after_bind]
    refine (reportsFailures_beginSwitch (s := s) target).trans ?_
    cases answer (Session.beginSwitch target) s with
    | none => exact reportsFailures_finish rfl
    | some g =>
      simp only [after_bind, after_modify]
      exact (ReportsFailures.of_eq (by rfl) (by rfl)).trans
        ((reportsFailures_dispatchJob _ _).trans (reportsFailures_carry _ _))
  | refreshStatus _ | dispatch _ _ _ _ _ =>
    simp only [Session.start, after_bind]
    exact (reportsFailures_dispatchJob _ _).trans (reportsFailures_carry _ _)

theorem reportsFailures_poll (i : Nat) : ReportsFailures s (after (poll i) s) := by
  simp only [Session.poll, after_bind, after_task?, answer_task?]
  split
  · split
    · exact reportsFailures_start _
    · exact reportsFailures_resume _ _ _
    all_goals exact .refl s
  · exact .refl s

/-- Aborting a task ends no call and reports nothing, whatever becomes of its switch. -/
theorem reportsFailures_endSend (i : Nat) (ended : Option String) :
    ReportsFailures s (after (endSend i ended) s) := by
  rcases after_endSend (s := s) i ended with he | ⟨t, w, -, -, ⟨m, -, he⟩ | ⟨-, he⟩⟩ <;> rw [he]
  · exact .refl s
  · exact (reportsFailures_forceRelease _).trans (reportsFailures_carry t _)
  · exact (ReportsFailures.of_eq (by rfl) (by rfl)).trans (reportsFailures_carry t _)

theorem reportsFailures_abort (i : Nat) : ReportsFailures s (after (abort i) s) := by
  simp only [Session.abort, after_bind, after_task?, answer_task?]
  cases ht : s.tasks[i]? with
  | none => exact .refl s
  | some t =>
    simp only
    cases hst : t.stage with
    | ready | finished => exact .refl s
    | sending w | awaiting w _ =>
      -- the wait's key is taken out, a switch abandoned, and the task finished
      simp only [after_bind, after_wait?, answer_wait?]
      cases hx : s.waits[w]? with
      | some x =>
        simp only [after_bind, after_discard]
        refine (reportsFailures_forceRelease x.key).trans ?_
        split <;> simp only [after_bind, after_pure]
        · exact (reportsFailures_abandonSwitch _).trans (reportsFailures_setStage _)
        · exact reportsFailures_setStage _
      | none =>
        simp only
        split <;> simp only [after_bind, after_pure]
        · exact (reportsFailures_abandonSwitch _).trans (reportsFailures_setStage _)
        · exact reportsFailures_setStage _

theorem reportsFailures_advance (ms : Nat) : ReportsFailures s (after (advance ms) s) := by
  simp only [Session.advance, after_bind, after_modify, answer_get, after_get]
  exact forM_keeps (P := fun t : Session => ReportsFailures s t)
    (fun _ _ t ht => ht.trans (reportsFailures_wake _)) (.of_eq rfl rfl)

/-! ## Every move -/

theorem reportsFailures_run (a : Step) : ReportsFailures s (after a.run s) := by
  cases a with
  | request | refresh | dispatch =>
    simp only [Step.run, after_bind, after_pure]
    exact reportsFailures_spawn _
  | watchErrors kind command label =>
    simp only [Step.run, after_bind, after_pure, after_discard]
    exact (reportsFailures_subscribe _ _).trans (reportsFailures_addOnce _ _)
  | listen event key label =>
    simp only [Step.run, after_bind, after_pure]
    exact (reportsFailures_subscribe _ _).trans (reportsFailures_addShared _ _)
  | releaseKey key =>
    simp only [Step.run, after_bind, after_pure]
    exact reportsFailures_releaseKey key
  | forceReleaseKey key =>
    simp only [Step.run, after_bind, after_pure]
    exact reportsFailures_forceRelease key
  | releaseAll =>
    simp only [Step.run, after_bind, after_pure]
    exact reportsFailures_releaseAll
  | abort task =>
    simp only [Step.run, after_bind, after_pure]
    exact reportsFailures_abort task
  | publish e =>
    simp only [Step.run, after_bind, after_pure]
    exact reportsFailures_publish e
  | advance ms =>
    simp only [Step.run, after_bind, after_pure]
    exact reportsFailures_advance ms
  | cancel =>
    simp only [Step.run, after_bind, after_pure]
    exact reportsFailures_cancelSwitch
  | assume m =>
    simp only [Step.run, after_bind, after_pure]
    exact reportsFailures_assume m
  | snapshot value =>
    simp only [Step.run]
    split
    · simp only [after_bind, after_pure]
      exact reportsFailures_applySnapshot _
    · exact .refl s
  | attach =>
    simp only [Step.run, attachServiceStarted, after_bind, after_pure]
    exact (reportsFailures_subscribe _ _).trans (reportsFailures_addOnce _ _)
  | detach =>
    simp only [Step.run, detachServiceStarted, after_bind, after_pure]
    exact reportsFailures_forceRelease _
  | rosterAttach =>
    simp only [Step.run, attachRoster, after_bind, after_pure]
    exact reportsFailures_foldlM (fun _ _ t => by
      simpa only [after_bind] using (reportsFailures_subscribe _ _).trans
        (reportsFailures_addShared _ _)) _ _ _
  | rosterDetach =>
    simp only [Step.run, detachRoster, after_bind, after_pure]
    exact reportsFailures_foldlM (fun _ _ t => by
      simpa only [after_bind, after_pure] using reportsFailures_releaseKey _) _ _ _
  | rosterRemove key =>
    simp only [Step.run, after_bind, after_get]
    split <;> exact .of_eq rfl rfl
  | rosterReconcile o online =>
    simp only [Step.run, after_bind, after_get]
    split <;> exact .of_eq rfl rfl
  | refCount | respondNext | reject | stall | state | rosterAttached | roster | rosterGet
  | rosterReset => exact .of_eq rfl rfl

/-- Every move keeps the account, but the one that clears the logs. -/
theorem reportsFailures_move (hm : Move s s') :
    ReportsFailures s s' ∨ (s'.done = [] ∧ s'.diagnostics = []) := by
  cases hm with
  | step a _ => exact .inl (reportsFailures_run a)
  | poll i => exact .inl (reportsFailures_poll i)
  | endSend i ended => exact .inl (reportsFailures_endSend i ended)
  | dequeue => exact .inl (.of_eq rfl rfl)
  | clearLogs => exact .inr ⟨rfl, rfl⟩

/-- In a reachable session the switch failures reported since the logs were last cleared are,
in order, the targets of the switch calls that ended since with `Switch` or `Timeout`. -/
theorem Reachable.reported (hs : Reachable s) :
    switchReports s.diagnostics = switchFailures s.done := by
  induction hs with
  | new refusal => rfl
  | move _ hm ih =>
    rcases reportsFailures_move hm with ⟨F, hd, hr⟩ | ⟨hd, hr⟩
    · rw [hr, hd, ih, switchFailures_append]
    · rw [hd, hr]
      rfl

end Session

end DaemonBridge
