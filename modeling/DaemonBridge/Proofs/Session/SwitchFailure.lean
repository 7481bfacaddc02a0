import Mathlib
import DaemonBridge.Proofs.Session.Reports

/-!
# A failed switch ends once, reverted and reported

A switch call fails when its wait does: its send is refused, the service's failure comes, its
deadline passes, or its key is taken out before any result. The call takes the failure up when it
next runs: as its refused send returns, at once inside its start or in the later move that ends a
send left under way, or when it is polled after the failure. It ends with `Switch` or `Timeout`
exactly when its own generation is still the session's at that moment; a transition that came in
between supersedes it, even one that came after the failure itself
(`failure_overtaken_before_taken_up`).

So a move that ends a switch call with an error, a poll (`poll_endedBy`) or the end of its send
(`endSend_endedBy`), leaves the session as `EndedBy` says: superseded under a newer generation, or
failed under its own with the last stable mode shown again (`Reverted`), the failure taken up as
`FailedBy` says: a refused send, which is the one dispatch failure, or a failed wait of its own.
A call waiting on a failed wait does end so when polled (`poll_takes_up`), and a call whose send
is refused ends at once (`poll_refused`, `endSend_refused`). The move reports one
`ModeSwitchFailed` for the target of a call it ends with `Switch` or `Timeout`, and none for a
call it ends otherwise or for an aborted one; all of it holds in every reachable session
(`switch_failure_reported_once`).
-/

namespace DaemonBridge

namespace Session

/-- The failure a call waiting on `x`, until `deadline`, takes up at `clock`: the service's
failure its slot holds, a cancellation once the slot was dropped, or a timeout once the deadline
passed with nothing come. -/
def Wait.failure? (x : Wait) (deadline : Option (Nat × Nat)) (clock : Nat) :
    Option CommandError :=
  match x.slot, deadline with
  | .filled (.failure f), _ => some f
  | .dropped, _ => some (.cancelled x.command)
  | .empty, some (due, limit) =>
    if due ≤ clock then some (.timeout x.command (.ofMillis limit)) else none
  | _, _ => none

/-- Task `i` still switches under the session's generation. -/
def Current (s : Session) (i : Nat) : Prop :=
  ∃ t, s.tasks[i]? = some t ∧ t.generation = s.generation

/-- A wait of task `i` failed: the service's failure came, or it was released before any
result. -/
def WaitFailed (s : Session) (i : Nat) : Prop :=
  ∃ (w : Nat) (x : Wait), s.waits[w]? = some x ∧ x.owner = i ∧
    (x.slot = .dropped ∨ ∃ f, x.slot = .filled (.failure f))

/-- The last state shown is the last stable mode shown before it, with no previous mode, or the
unknown mode when no stable mode was shown. -/
def Reverted (s : Session) : Prop :=
  s.shown.getLast? = some s.mode ∧
    s.mode = ⟨(lastStable s.shown.dropLast).elim (.pending none) ActiveService.ofMode, none⟩

/-- Why switch call `i` takes up the failure `f`, `refused` saying whether its send was refused:
it was, and `f` is a dispatch failure; or it was not, and a wait of the call's own holds `f` from
the service, or was released before any result, `f` being no dispatch failure. -/
def FailedBy (s : Session) (i : Nat) (refused : Prop) (f : CommandError) : Prop :=
  refused ∧ f.isDispatch = true ∨
    ¬ refused ∧ ∃ (w : Nat) (x : Wait), s.waits[w]? = some x ∧ x.owner = i ∧
      (x.slot = .filled (.failure f) ∨ x.slot = .dropped ∧ f.isDispatch = false)

/-- How a switch of task `i` to `target` that ended with the error `e` leaves the session:
superseded, a newer generation being current; or failed under its own generation with a failure
`f` taken up as `FailedBy` says, the last stable mode shown again. -/
def EndedBy (s : Session) (i : Nat) (target : ServiceMode) (refused : Prop) (e : ModeError) :
    Prop :=
  (e = .superseded target ∧ ¬ Current s i) ∨
    ∃ f : CommandError, e = switchError target f ∧ Current s i ∧ Reverted s ∧ FailedBy s i refused f

/-- How a move from `s` to `s'` that ends switch call `i`, to `target`, with the error `e` leaves
the session, `refused` saying whether it took up the refusal of the call's send: superseded, its
generation gone, nothing reported; or failed under its own generation, its wait failed (the send
refused, or a wait of its own failed), the last stable mode shown again, a dispatch failure
exactly when the send was refused, and one `ModeSwitchFailed` reported, for the target. -/
def FailedOnce (s s' : Session) (i : Nat) (target : ServiceMode) (refused : Prop)
    (e : ModeError) : Prop :=
  (e = .superseded target ∧ ¬ Current s' i ∧
      switchReports s'.diagnostics = switchReports s.diagnostics) ∨
    (e.failedSwitch? = some target ∧ Current s' i ∧ (refused ∨ WaitFailed s' i) ∧ Reverted s' ∧
      (e.isDispatchFailure = true ↔ refused) ∧
      switchReports s'.diagnostics = switchReports s.diagnostics ++ [target])

variable {F : Nat → Task → Prop} {s u u' : Session} {i : Nat} {t ti : Task}
  {target : ServiceMode} {timeout : Option Nat} {e : ModeError} {refused : Prop}
  {f : CommandError}

@[simp] theorem isDispatchFailure_switchError (f : CommandError) :
    (switchError target f).isDispatchFailure = f.isDispatch := by
  cases f <;> rfl

theorem current_finish (o : Outcome) : Current (after (finish i o) u) i ↔ Current u i := by
  simp [Current, after_finish]

theorem generation_eq_of_coordinator (h : u'.coordinator = u.coordinator) :
    u'.generation = u.generation :=
  congrArg Coordinator.generation h

/-- A task of an older generation than the session's is not current. -/
theorem not_current (hi : u.tasks[i]? = some t) (hg : u.generation ≠ t.generation) :
    ¬ Current u i := by
  rintro ⟨t', ht', hg'⟩
  rw [hi] at ht'
  cases ht'
  exact hg hg'.symm

/-! ## Taking a failure up -/

/-- A revert by the current switch shows the last stable mode shown, or the unknown mode. -/
theorem ModeSound.revert_reverted (h : ModeSound F u) (hi : u.tasks[i]? = some ti)
    (hsw : Switching F i ti target) (hg : ti.generation = u.generation) :
    Reverted ({ u with waitKey := none }.showing (revertedState u.mode)) := by
  have hprev := h.previous_last _ (h.current_pending i ti target hi hsw hg)
  refine ⟨by simp [showing], ?_⟩
  simp [showing, revertedState, hprev]

/-- A switch that takes up the failure `f` at `u` ends superseded when a newer generation is
current, and otherwise with `switchError target f`, the last stable mode shown again; the waits
stay as they were. -/
theorem failSwitch_ends (h : ModeSound F u) (hi : u.tasks[i]? = some ti)
    (hsw : Switching F i ti target) (f : CommandError)
    (he : answer (failSwitch ti.generation target f) u = e)
    (hu : after (finish i (.switchFailed e)) (after (failSwitch ti.generation target f) u) = u') :
    u'.waits = u.waits ∧ ((e = .superseded target ∧ ¬ Current u' i) ∨
      (e = switchError target f ∧ Current u' i ∧ Reverted u')) := by
  subst hu
  rw [answer_failSwitch] at he
  rw [after_failSwitch]
  by_cases hg : u.generation = ti.generation
  · rw [if_pos hg] at he ⊢
    refine ⟨rfl, .inr ⟨he.symm, (current_finish _).mpr ⟨ti, hi, hg.symm⟩, ?_⟩⟩
    exact h.revert_reverted hi hsw hg.symm
  · rw [if_neg hg] at he ⊢
    exact ⟨rfl, .inl ⟨he.symm, (current_finish _).not.mpr (not_current hi hg)⟩⟩

theorem FailedBy.of_waits (h : FailedBy u i refused f) (hw : u'.waits = u.waits) :
    FailedBy u' i refused f := by
  rw [FailedBy, hw]
  exact h

/-- A switch that takes up the failure `f` as `FailedBy` says ends as `EndedBy` says. -/
theorem failSwitch_endedBy (h : ModeSound F u) (hi : u.tasks[i]? = some ti)
    (hsw : Switching F i ti target) (hf : FailedBy u i refused f)
    (he : answer (failSwitch ti.generation target f) u = e) :
    EndedBy (after (finish i (.switchFailed e)) (after (failSwitch ti.generation target f) u)) i
      target refused e := by
  obtain ⟨hwaits, hcases⟩ := failSwitch_ends h hi hsw f he rfl
  rcases hcases with ⟨rfl, hnc⟩ | ⟨rfl, hcur, hrev⟩
  · exact .inl ⟨rfl, hnc⟩
  · exact .inr ⟨f, rfl, hcur, hrev, hf.of_waits hwaits⟩

/-- Concluding a switch with a failure takes the failure up and finishes with its error. -/
theorem after_conclude_failure (hj : t.job = .switchMode target timeout) (f : CommandError) :
    after (conclude i t (.failure f)) u = after (finish i (.switchFailed
      (answer (failSwitch t.generation target f) u))) (after (failSwitch t.generation target f) u) := by
  simp only [Session.conclude, hj, after_bind]

/-- A switch concluded with a failure takes it up where it concludes. -/
theorem conclude_failure {f : CommandError} (hj : t.job = .switchMode target timeout)
    (hd : (after (conclude i t (.failure f)) u).done = u.done ++ [(i, Outcome.switchFailed e)]) :
    answer (failSwitch t.generation target f) u = e ∧ after (conclude i t (.failure f)) u =
      after (finish i (.switchFailed e)) (after (failSwitch t.generation target f) u) := by
  have heq := after_conclude_failure (i := i) (u := u) hj f
  rw [heq] at hd
  have he := Outcome.switchFailed.inj (finish_reported hd)
  exact ⟨he, he ▸ heq⟩

/-- How a switch resumed at `u` ends with an error: superseded, when its wait had an answer but a
newer generation came first; or by taking up its wait's failure, at `u` or, on a timeout, once
the wait's key is taken out. -/
theorem resume_fails {c : Option (Nat × Nat)} {w : Nat} {d : Option (Nat × Nat)}
    (hw : WaitsSound c u) (hj : t.job = .switchMode target timeout)
    (hd : (after (resume i t w d) u).done = u.done ++ [(i, Outcome.switchFailed e)]) :
    (e = .superseded target ∧ u.generation ≠ t.generation ∧
        after (resume i t w d) u = after (finish i (.switchFailed e)) u) ∨
      ∃ f u₁ x₀ x, u₁.coordinator = u.coordinator ∧ u.waits[w]? = some x₀ ∧
        u₁.waits[w]? = some x ∧ x.owner = x₀.owner ∧
        (x.slot = .filled (.failure f) ∨ x.slot = .dropped ∧ f.isDispatch = false) ∧
        answer (failSwitch t.generation target f) u₁ = e ∧
        after (resume i t w d) u =
          after (finish i (.switchFailed e)) (after (failSwitch t.generation target f) u₁) := by
  have hquiet : ¬ u.done = u.done ++ [(i, Outcome.switchFailed e)] := by simp
  simp only [Session.resume, after_bind, after_wait?, answer_wait?] at hd ⊢
  cases hx : u.waits[w]? with
  | none =>
    rw [hx] at hd
    exact absurd hd hquiet
  | some x =>
    rw [hx] at hd
    simp only at hd ⊢
    cases hslot : x.slot with
    | filled reply =>
      rw [hslot] at hd
      cases reply with
      | answer a =>
        -- an answer commits the switch if it is current, so it came too late
        have hc : after (conclude i t (.answer a)) u =
            if u.generation = t.generation then
              after (finish i (.switched target)) (after (commit t.generation target) u)
            else after (finish i (.switchFailed (.superseded target)))
              (after (commit t.generation target) u) := by
          simp only [Session.conclude, hj, after_bind, answer_commit, after_ite, decide_eq_true_eq]
        by_cases hg : u.generation = t.generation
        · rw [hc, if_pos hg] at hd
          cases finish_reported hd
        · rw [hc, if_neg hg] at hd
          cases finish_reported hd
          refine .inl ⟨rfl, hg, ?_⟩
          rw [hc, if_neg hg, after_commit, if_neg hg]
      | failure f =>
        obtain ⟨he, heq⟩ := conclude_failure hj hd
        exact .inr ⟨f, u, x, x, rfl, rfl, hx, rfl, .inl hslot, he, heq⟩
    | dropped =>
      rw [hslot] at hd
      obtain ⟨he, heq⟩ := conclude_failure hj hd
      exact .inr ⟨_, u, x, x, rfl, rfl, hx, rfl, .inr ⟨hslot, rfl⟩, he, heq⟩
    | empty =>
      rw [hslot] at hd
      cases d with
      | none => exact absurd hd hquiet
      | some due =>
        simp only [after_bind, answer_get, after_get] at hd ⊢
        by_cases hdue : due.1 ≤ u.clock
        · -- timed out: the wait's key is taken out, dropping the slot, then the timeout is taken up
          simp only [hdue, ↓reduceIte, after_bind, after_discard] at hd ⊢
          have hd' : (after (conclude i t (.failure (.timeout x.command (.ofMillis due.2))))
              (after (forceRelease x.key) u)).done =
              (after (forceRelease x.key) u).done ++ [(i, Outcome.switchFailed e)] := by
            rw [done_forceRelease]
            exact hd
          obtain ⟨he, heq⟩ := conclude_failure hj hd'
          exact .inr ⟨_, _, x, _, coordinator_forceRelease x.key, rfl,
            forceRelease_drops hw hx hslot, rfl, .inr ⟨rfl, rfl⟩, he, heq⟩
        · simp only [hdue, ↓reduceIte, after_pure] at hd
          exact absurd hd hquiet

/-- A switch resumed at `u`, its generation past its begin and the wait its own, that ends with an
error. -/
theorem resume_endedBy {c : Option (Nat × Nat)} {w : Nat} {d : Option (Nat × Nat)}
    (h : ModeSound F u) (hw : WaitsSound c u) (hi : u.tasks[i]? = some t)
    (hsw : Switching F i t target) (hown : ∃ x, u.waits[w]? = some x ∧ x.owner = i)
    (hr : ¬ refused) (hd : (after (resume i t w d) u).done = u.done ++ [(i, Outcome.switchFailed e)]) :
    EndedBy (after (resume i t w d) u) i target refused e := by
  obtain ⟨timeout, hj⟩ := hsw.1
  rcases resume_fails hw hj hd with ⟨rfl, hg, heq⟩ |
    ⟨f, u₁, x₀, x, hc, hx₀, hx, hxo, hslot, he, heq⟩
  · rw [heq]
    exact Or.inl ⟨rfl, (current_finish _).not.mpr (not_current hi hg)⟩
  · rw [heq]
    have hi₁ : u₁.tasks[i]? = some t := by rw [tasks_eq_of_coordinator hc]; exact hi
    obtain ⟨y, hy, hyo⟩ := hown
    rw [hx₀] at hy
    cases hy
    exact failSwitch_endedBy (h.of_coordinator hc) hi₁ hsw
      (.inr ⟨hr, w, x, hx, hxo.trans hyo, hslot⟩) he

/-- A switch that waits on its wait, the one its start opened or the one its stage shows, and ends
with an error. -/
theorem awaitSlot_endedBy {c : Option (Nat × Nat)} {w : Nat} (h : ModeSound (Starting i) u)
    (hw : WaitsSound c u) (ht : u.tasks[i]? = some t) (hj : t.job = .switchMode target timeout)
    (ho : OnWait c i w t) (hr : ¬ refused)
    (hd : (after (awaitSlot i w timeout) u).done = u.done ++ [(i, Outcome.switchFailed e)]) :
    EndedBy (after (awaitSlot i w timeout) u) i target refused e := by
  simp only [Session.awaitSlot, after_bind, answer_get, after_get] at hd ⊢
  generalize timeout.map (fun ms => (u.clock + ms, ms)) = d at hd ⊢
  have ht₁ : (after (Session.setStage i (.awaiting w d)) u).tasks[i]? =
      some { t with stage := .awaiting w d } := by
    simp [ht]
  simp only [after_task?, answer_task?, ht₁] at hd ⊢
  -- once it waits, the task counts as a switch in flight like any other
  have h₁ : ModeSound Flying (after (Session.setStage i (.awaiting w d)) u) :=
    h.setStage _ (fun j t hj => (starting_other_iff hj).symm)
      fun _ _ _ => switching_congr rfl (iff_of_true (by simp [InFlight, Stage.wait?]) (Or.inr rfl))
  have hown : ∃ x, (after (Session.setStage i (.awaiting w d)) u).waits[w]? = some x ∧
      x.owner = i :=
    hw.wait_of_onWait ht ho
  exact resume_endedBy h₁ (hw.showWait ht ho (.awaiting w d) rfl) ht₁
    ⟨⟨timeout, hj⟩, by simp [InFlight, Stage.wait?]⟩ hown hr hd

/-- A switch that carries on from a send handed over and ends with an error: superseded when a
newer generation came during the send, or by taking up a failure of the wait it recorded. -/
theorem proceed_endedBy {c : Option (Nat × Nat)} {w : Nat} (h : ModeSound (Starting i) u)
    (hw : WaitsSound c u) (ht : u.tasks[i]? = some t) (hj : t.job = .switchMode target timeout)
    (ho : OnWait c i w t) (hr : ¬ refused)
    (hd : (after (proceed i t w) u).done = u.done ++ [(i, Outcome.switchFailed e)]) :
    EndedBy (after (proceed i t w) u) i target refused e := by
  have hsw : Switching (Starting i) i t target := ⟨⟨timeout, hj⟩, Or.inr rfl⟩
  simp only [Session.proceed, hj, after_bind, answer_track] at hd ⊢
  set key := waitKeyOf .serviceChoice w
  by_cases htr : u.generation = t.generation
  · -- still current: the wait is recorded, and the call waits on it and takes up what came
    have h₄ := h.track t.generation key fun hg =>
      ⟨target, h.current_pending i t target ht hsw hg.symm⟩
    have hw₄ := hw.track t.generation key
    rw [decide_eq_true htr, if_pos rfl] at hd ⊢
    rw [after_track, if_pos htr] at hd h₄ hw₄ ⊢
    exact awaitSlot_endedBy h₄ hw₄ ht hj ho hr hd
  · -- superseded during the send: the wait's key is taken out and the call ends superseded
    have hkeep : after (Session.track t.generation key) u = u := by rw [after_track, if_neg htr]
    rw [decide_eq_false htr] at hd ⊢
    simp only [Bool.false_eq_true, ↓reduceIte, after_bind, after_discard, hkeep] at hd ⊢
    cases Outcome.switchFailed.inj (finish_reported hd)
    have hstale : (after (forceRelease key) u).generation ≠ t.generation := by
      rw [generation_eq_of_coordinator (coordinator_forceRelease key)]
      exact htr
    exact Or.inl ⟨rfl, (current_finish _).not.mpr
      (not_current (by rw [tasks_forceRelease]; exact ht) hstale)⟩

/-- A switch that carries on from its send and ends with an error, `refused` saying whether the
send was refused: a refusal is taken up at once as a dispatch failure, a stalled send ends
nothing, and a send handed over goes on to the wait. -/
theorem carry_endedBy {c : Option (Nat × Nat)} {w : Nat} {d : Dispatched}
    (h : ModeSound (Starting i) u) (hw : WaitsSound c u) (ht : u.tasks[i]? = some t)
    (hj : t.job = .switchMode target timeout) (ho : OnWait c i w t) (hon : d.On t w u)
    (hr : refused ↔ ∃ f, d = .refused f) (hdisp : ∀ f, d = .refused f → f.isDispatch = true)
    (hd : (after (carry i t d) u).done = u.done ++ [(i, Outcome.switchFailed e)]) :
    EndedBy (after (carry i t d) u) i target refused e := by
  cases d with
  | refused f =>
    simp only [Session.carry] at hd ⊢
    obtain ⟨he, heq⟩ := conclude_failure hj hd
    rw [heq]
    exact failSwitch_endedBy h ht ⟨⟨timeout, hj⟩, Or.inr rfl⟩
      (.inl ⟨hr.mpr ⟨f, rfl⟩, hdisp f rfl⟩) he
  | stalled w' =>
    simp [Session.carry, after_setStage] at hd
  | sent w' =>
    obtain rfl : w' = w := hon
    refine proceed_endedBy h hw ht hj ho (fun hr' => ?_) hd
    obtain ⟨f, hf⟩ := hr.mp hr'
    cases hf

/-! ## Starting a switch -/

theorem refusing_forceRelease (key : String) :
    (after (forceRelease key) u).refusing = u.refusing ∧
      (after (forceRelease key) u).refusal = u.refusal := by
  obtain ⟨_, _, _, h⟩ := after_forceRelease_eq (s := u) key
  rw [h]
  exact ⟨rfl, rfl⟩

/-- Beginning a switch leaves the transport as it is. -/
theorem refusing_beginSwitch (target : ServiceMode) :
    (after (beginSwitch target) u).refusing = u.refusing ∧
      (after (beginSwitch target) u).refusal = u.refusal := by
  rw [after_beginSwitch]
  split
  · exact ⟨rfl, rfl⟩
  · cases u.waitKey with
    | none => exact ⟨rfl, rfl⟩
    | some k => exact refusing_forceRelease k

/-- A dispatch is refused exactly when the transport refuses, with the transport's text, and
otherwise stalls or goes out as the transport says. -/
theorem answer_dispatchFor (owner : Nat) (success failure : EventKind) (command : CommandKind)
    (params : Option Json.Value) (target' : Option ServiceMode) :
    answer (dispatchFor owner success failure command params target') u =
      if u.refusing then .refused (.dispatch command u.refusal)
      else if u.stalling then .stalled u.waits.length else .sent u.waits.length := by
  obtain ⟨bus, registry, waits, queue, hw⟩ :=
    after_openWait_eq (u := u) owner success failure command target'
  simp only [Session.dispatchFor, answer_bind, answer_openWait, hw]
  by_cases hr : u.refusing = true
  · simp [Session.send, hr]
  · by_cases hs : u.stalling = true
    · simp [Session.send, hr, hs]
    · simp [Session.send, hr, hs]

/-- A task's dispatch is refused exactly when the transport refuses, and then with a dispatch
failure. -/
theorem dispatchJob_refused (i : Nat) (j : Job) :
    ((∃ f, answer (dispatchJob i j) u = .refused f) ↔ u.refusing = true) ∧
      ∀ f, answer (dispatchJob i j) u = .refused f → f.isDispatch = true := by
  simp only [Session.dispatchJob, answer_dispatchFor]
  by_cases hr : u.refusing = true
  · simp [hr, CommandError.isDispatch]
  · by_cases hs : u.stalling = true
    · simp [hr, hs]
    · simp [hr, hs]

/-- A refused dispatch leaves the coordinator as it was. -/
theorem coordinator_dispatchFor_refused (hr : u.refusing = true) (owner : Nat)
    (success failure : EventKind) (command : CommandKind) (params : Option Json.Value)
    (target' : Option ServiceMode) :
    (after (dispatchFor owner success failure command params target') u).coordinator =
      u.coordinator := by
  obtain ⟨bus, registry, waits, queue, hw⟩ :=
    after_openWait_eq (u := u) owner success failure command target'
  -- the refused send changes nothing, and the wait's key is taken out again
  have hsend : after (send command params) (after (openWait owner success failure command
      target') u) = after (openWait owner success failure command target') u := by
    rw [hw]
    simp [Session.send, hr]
  have hans : answer (send command params) (after (openWait owner success failure command
      target') u) = .refused u.refusal := by
    rw [hw]
    simp [Session.send, hr]
  simp only [Session.dispatchFor, after_bind, answer_openWait, hans, hsend,
    after_sendEnded_refused, coordinator_forceRelease, coordinator_openWait]

/-- A switch started by a poll that ends with an error: superseded, or failed under its own
generation, where `refused` says the transport refused. -/
theorem start_endedBy (hw : WaitsSound none s) (h : ModeSound Flying s)
    (ht : s.tasks[i]? = some t) (hst : t.stage = .ready) (hj : t.job = .switchMode target timeout)
    (hr : refused ↔ s.refusing = true)
    (hd : (after (start i t) s).done = s.done ++ [(i, Outcome.switchFailed e)]) :
    EndedBy (after (start i t) s) i target refused e := by
  obtain ⟨job, gen, stage⟩ := t
  simp only at hst hj
  subst hst hj
  simp only [Session.start, after_bind] at hd ⊢
  cases hb : answer (Session.beginSwitch target) s with
  | none =>
    -- the target is already the stable mode: the call succeeds at once
    rw [hb] at hd
    cases finish_reported hd
  | some g =>
    rw [hb] at hd
    simp only [after_bind, after_modify] at hd ⊢
    -- the task takes the new generation, opens its wait and sends its command
    obtain ⟨hw₂, ht₂⟩ := hw.takeGeneration ht target g
    set u₂ : Session := { after (Session.beginSwitch target) s with
      tasks := (after (Session.beginSwitch target) s).tasks.modify i
        fun t => { t with generation := g } } with hu₂
    obtain ⟨hw₃, htd, hon⟩ := hw₂.dispatchJob ht₂
    set u₃ := after (Session.dispatchJob i (.switchMode target timeout)) u₂ with hu₃
    have ht₃ : u₃.tasks[i]? = some ⟨.switchMode target timeout, g, .ready⟩ := by
      rw [htd]
      exact ht₂
    have hdone : u₃.done = s.done := (done_dispatchJob i _).trans (done_beginSwitch target)
    -- the dispatch is refused exactly when the transport refuses, which the begin left as it was
    obtain ⟨hrefused, hdisp⟩ := dispatchJob_refused (u := u₂) i (.switchMode target timeout)
    have hrefusing : u₂.refusing = s.refusing := (refusing_beginSwitch target).1
    exact carry_endedBy ((h.begin ht hb).dispatchJob i _) hw₃ ht₃ rfl (.starting rfl) hon
      (hr.trans (hrefusing ▸ hrefused.symm)) hdisp (hd.trans (by rw [hdone]))

/-! ## Ending a switch call with an error -/

/-- A move that ends a switch call as `EndedBy` says, keeping the account of the reports, ends it
once: superseded with nothing reported, or failed with its wait failed, a dispatch failure
exactly when the send was refused, and one report of its target. -/
theorem EndedBy.failedOnce (h : EndedBy u' i target refused e) (hr : RepliesSound u')
    (hrep : ReportsFailures u u') (hd : u'.done = u.done ++ [(i, Outcome.switchFailed e)]) :
    FailedOnce u u' i target refused e := by
  have hreports := hrep.single hd
  rcases h with ⟨rfl, hnc⟩ | ⟨f, rfl, hcur, hrev, hf⟩
  · exact .inl ⟨rfl, hnc, by simpa [Outcome.failedSwitch?, ModeError.failedSwitch?] using hreports⟩
  refine .inr ⟨by simp, hcur, ?_, hrev, ?_, by simpa [Outcome.failedSwitch?] using hreports⟩
  · rcases hf with ⟨hr', -⟩ | ⟨-, w, x, hx, hown, hslot⟩
    · exact .inl hr'
    · refine .inr ⟨w, x, hx, hown, ?_⟩
      rcases hslot with hs | ⟨hs, -⟩
      · exact .inr ⟨f, hs⟩
      · exact .inl hs
  · rw [isDispatchFailure_switchError]
    rcases hf with ⟨hr', hdisp⟩ | ⟨hnr, w, x, hx, -, hs | ⟨-, hdisp⟩⟩
    · exact iff_of_true hdisp hr'
    · -- a failure a wait holds is the service's, never a dispatch failure
      obtain ⟨t, e', -, hrep'⟩ := hr.filled w x _ hx hs
      obtain ⟨-, -, -, rfl⟩ := hrep'
      simp [CommandError.isDispatch, hnr]
    · simp [hdisp, hnr]

/-- A poll that ends a switch call with an error leaves the session as `EndedBy` says; the send
was refused exactly when the call had not started and the transport refuses. -/
theorem poll_endedBy (hs : Reachable s) (ht : s.tasks[i]? = some t)
    (hj : t.job = .switchMode target timeout)
    (hd : (after (poll i) s).done = s.done ++ [(i, Outcome.switchFailed e)]) :
    EndedBy (after (poll i) s) i target (t.stage = .ready ∧ s.refusing = true) e := by
  have hquiet : ¬ s.done = s.done ++ [(i, Outcome.switchFailed e)] := by simp
  simp only [Session.poll, after_bind, after_task?, answer_task?, ht] at hd ⊢
  cases hst : t.stage with
  | ready =>
    rw [hst] at hd
    exact start_endedBy hs.waitsSound hs.modeSound ht hst hj (by simp) hd
  | awaiting w d =>
    rw [hst] at hd
    -- the call waits on a wait of its own
    have hsw : Switching Flying i t target := ⟨⟨timeout, hj⟩, by simp [InFlight, hst, Stage.wait?]⟩
    exact resume_endedBy hs.modeSound hs.waitsSound ht hsw
      (hs.waitsSound.stage_wait i t w ht (by simp [hst, Stage.wait?])) (by simp) hd
  | sending w =>
    rw [hst] at hd
    exact absurd hd hquiet
  | finished =>
    rw [hst] at hd
    exact absurd hd hquiet

/-- The end of a switch call's send that ends the call with an error leaves the session as
`EndedBy` says, the send refused exactly when the transport refused it: refused, the call takes
the dispatch failure up at once; handed over, it goes on to its wait as a start does. -/
theorem endSend_endedBy {ended : Option String} (hw : WaitsSound none s) (h : ModeSound Flying s)
    (ht : s.tasks[i]? = some t) (hj : t.job = .switchMode target timeout)
    (hd : (after (endSend i ended) s).done = s.done ++ [(i, Outcome.switchFailed e)]) :
    EndedBy (after (endSend i ended) s) i target (ended.isSome = true) e := by
  rcases after_endSend_of ht ended with he | ⟨w, hst, ⟨m, rfl, he⟩ | ⟨rfl, he⟩⟩ <;>
    rw [he] at hd ⊢
  · simp at hd
  · -- refused: the wait's key is taken out, and the call takes the dispatch failure up
    have h₁ := h.starting_flying ht (by simp [InFlight, hst, Stage.wait?])
    exact carry_endedBy (h₁.of_coordinator (coordinator_forceRelease _)) (hw.forceRelease _)
      (by rw [tasks_forceRelease]; exact ht) hj (.shown (by rw [hst]; rfl)) (keyOut_forceRelease _)
      (by simp) (fun f hf => by cases hf; rfl) (hd.trans (by rw [done_forceRelease]))
  · -- handed over: the command is recorded as sent, and the call goes on to its wait
    have h₁ := h.starting_flying ht (by simp [InFlight, hst, Stage.wait?])
    have hw₁ : WaitsSound none { s with sent := s.sent ++ [⟨t.job.command, t.job.params⟩] } :=
      hw.of_eq rfl rfl rfl rfl
    exact carry_endedBy (by exact h₁.of_coordinator rfl) hw₁ ht hj (.shown (by rw [hst]; rfl)) rfl
      (by simp) (fun f hf => by cases hf) hd

/-- A switch call that takes up the failure `f` ends with it under its own generation, and
superseded under a newer one. -/
theorem done_conclude_failure (hj : t.job = .switchMode target timeout) (f : CommandError) :
    (after (conclude i t (.failure f)) u).done = u.done ++ [(i, Outcome.switchFailed
      (if u.generation = t.generation then switchError target f else .superseded target))] := by
  rw [after_conclude_failure hj, after_finish, done_failSwitch, answer_failSwitch]

/-- A poll of a switch call waiting on a failed wait, or on one whose deadline has passed, ends
the call: with the failure under its own generation, superseded under a newer one. -/
theorem poll_takes_up {w : Nat} {d : Option (Nat × Nat)} {x : Wait} {f : CommandError}
    (ht : s.tasks[i]? = some t) (hj : t.job = .switchMode target timeout)
    (hst : t.stage = .awaiting w d) (hx : s.waits[w]? = some x)
    (hf : x.failure? d s.clock = some f) :
    (after (poll i) s).done = s.done ++ [(i, Outcome.switchFailed
      (if s.generation = t.generation then switchError target f else .superseded target))] := by
  obtain ⟨key, command, owner, slot⟩ := x
  simp only [Session.poll, after_bind, after_task?, answer_task?, ht, hst, Session.resume,
    after_wait?, answer_wait?, hx]
  cases slot with
  | empty =>
    -- only a passed deadline fails an empty wait, whose key is taken out first
    rcases d with _ | ⟨due, limit⟩
    · simp [Wait.failure?] at hf
    · by_cases hdue : due ≤ s.clock
      · simp only [Wait.failure?, if_pos hdue, Option.some.injEq] at hf
        subst hf
        simp only [after_bind, answer_get, after_get, hdue, ↓reduceIte, after_discard]
        rw [done_conclude_failure hj, done_forceRelease,
          generation_eq_of_coordinator (coordinator_forceRelease key)]
      · simp [Wait.failure?, hdue] at hf
  | dropped =>
    simp only [Wait.failure?, Option.some.injEq] at hf
    subst hf
    exact done_conclude_failure hj _
  | filled r =>
    cases r with
    | answer e => simp [Wait.failure?] at hf
    | failure f' =>
      simp only [Wait.failure?, Option.some.injEq] at hf
      subst hf
      exact done_conclude_failure hj _

/-- A poll that starts a switch call while the transport refuses ends the call at once with a
dispatch failure carrying the transport's text, unless its target is already the stable mode. -/
theorem poll_refused (ht : s.tasks[i]? = some t) (hj : t.job = .switchMode target timeout)
    (hst : t.stage = .ready) (hstable : s.mode.stable ≠ some target) (hr : s.refusing = true) :
    (after (poll i) s).done =
      s.done ++ [(i, Outcome.switchFailed (.switch target (.dispatch .serviceChoice s.refusal)))] := by
  obtain ⟨job, gen, stage⟩ := t
  simp only at hj hst
  subst hj hst
  have hb : answer (Session.beginSwitch target) s = some (s.generation + 1) := by
    rw [answer_beginSwitch, if_neg hstable]
  simp only [Session.poll, after_bind, after_task?, answer_task?, ht, Session.start, hb,
    after_modify]
  set u₂ : Session := { after (Session.beginSwitch target) s with
    tasks := (after (Session.beginSwitch target) s).tasks.modify i
      fun t => { t with generation := s.generation + 1 } } with hu₂
  obtain ⟨hr₂, hrefusal⟩ : u₂.refusing = s.refusing ∧ u₂.refusal = s.refusal :=
    refusing_beginSwitch target
  have hdone : u₂.done = s.done := done_beginSwitch target
  -- the dispatch is refused, and the coordinator keeps the generation the switch began
  have hans : answer (Session.dispatchJob i (.switchMode target timeout)) u₂ =
      .refused (.dispatch .serviceChoice s.refusal) := by
    simp only [Session.dispatchJob, answer_dispatchFor, hr₂, hr, hrefusal, if_true]
    rfl
  have hg₃ : (after (Session.dispatchJob i (.switchMode target timeout)) u₂).generation =
      s.generation + 1 := by
    refine (generation_eq_of_coordinator (coordinator_dispatchFor_refused (hr₂.trans hr) i
      .commandSuccess .commandError .serviceChoice (some (switchParams target)) (some target))).trans ?_
    show (after (Session.beginSwitch target) s).generation = _
    rw [generation_beginSwitch, if_neg hstable]
  rw [hans]
  simp only [Session.carry]
  rw [done_conclude_failure rfl, done_dispatchJob, hdone, hg₃, if_pos rfl]
  rfl

/-- The end of a switch call's send that the transport refuses ends the call at once with a
dispatch failure carrying the refusal's text under its own generation, and superseded under a
newer one, however many moves after its start the refusal comes. -/
theorem endSend_refused {w : Nat} (ht : s.tasks[i]? = some t)
    (hj : t.job = .switchMode target timeout) (hst : t.stage = .sending w) (m : String) :
    (after (endSend i (some m)) s).done = s.done ++ [(i, Outcome.switchFailed
      (if s.generation = t.generation then .switch target (.dispatch .serviceChoice m)
        else .superseded target))] := by
  have hcmd : t.job.command = .serviceChoice := by rw [hj]; rfl
  simp only [Session.endSend, after_bind, after_task?, answer_task?, ht, hst, after_sendEnd_refused,
    answer_sendEnd_refused, after_sendEnded_refused, answer_sendEnded_refused, Session.carry]
  rw [done_conclude_failure hj, done_forceRelease,
    generation_eq_of_coordinator (coordinator_forceRelease _), hcmd]
  rfl

theorem done_abandonSwitch (g : Nat) : (after (abandonSwitch g) u).done = u.done := by
  rw [after_abandonSwitch]
  split
  · rw [done_releaseStale]
    rfl
  · rfl

/-- Aborting a task ends no call. -/
theorem done_abort (i : Nat) : (after (abort i) s).done = s.done := by
  simp only [Session.abort, after_bind, after_task?, answer_task?]
  cases ht : s.tasks[i]? with
  | none => rfl
  | some t =>
    simp only
    cases hst : t.stage with
    | ready | finished => rfl
    | sending w | awaiting w _ =>
      -- the wait's key is taken out, a switch abandoned, and the task finished
      simp only [after_bind, after_wait?, answer_wait?]
      cases hx : s.waits[w]? with
      | some x =>
        simp only [after_bind, after_discard]
        split <;> simp [after_setStage, done_abandonSwitch, done_forceRelease]
      | none =>
        simp only
        split <;> simp [after_setStage, done_abandonSwitch]

/-! ## A failed switch is reported once -/

/-- How switch calls end with an error when a session is polled, when the send of one ends or
when one is aborted, and what is reported for them. -/
structure SwitchFailures (s : Session) : Prop where
  /-- A call waiting on a failed wait, or past its deadline, ends when polled: with the failure
  under its own generation, superseded under a newer one. -/
  takes_up : ∀ (i : Nat) (t : Task) (target : ServiceMode) (timeout : Option Nat) (w : Nat)
    (d : Option (Nat × Nat)) (x : Wait) (f : CommandError), s.tasks[i]? = some t →
    t.job = .switchMode target timeout → t.stage = .awaiting w d → s.waits[w]? = some x →
    x.failure? d s.clock = some f →
    (after (poll i) s).done = s.done ++ [(i, Outcome.switchFailed
      (if s.generation = t.generation then switchError target f else .superseded target))]
  /-- A call started while the transport refuses ends at once with a dispatch failure, unless
  its target is already the stable mode. -/
  refused : ∀ (i : Nat) (t : Task) (target : ServiceMode) (timeout : Option Nat),
    s.tasks[i]? = some t → t.job = .switchMode target timeout → t.stage = .ready →
    s.mode.stable ≠ some target → s.refusing = true →
    (after (poll i) s).done =
      s.done ++ [(i, Outcome.switchFailed (.switch target (.dispatch .serviceChoice s.refusal)))]
  /-- A call whose send, left under way, is refused ends at once with a dispatch failure under
  its own generation, and superseded under a newer one. -/
  refused_late : ∀ (i : Nat) (t : Task) (target : ServiceMode) (timeout : Option Nat) (w : Nat)
    (m : String), s.tasks[i]? = some t → t.job = .switchMode target timeout →
    t.stage = .sending w →
    (after (endSend i (some m)) s).done = s.done ++ [(i, Outcome.switchFailed
      (if s.generation = t.generation then .switch target (.dispatch .serviceChoice m)
        else .superseded target))]
  /-- A poll that ends a call with an error ends it once, the send refused when the call had not
  started and the transport refuses. -/
  ends : ∀ (i : Nat) (t : Task) (target : ServiceMode) (timeout : Option Nat) (e : ModeError),
    s.tasks[i]? = some t → t.job = .switchMode target timeout →
    (after (poll i) s).done = s.done ++ [(i, Outcome.switchFailed e)] →
    FailedOnce s (after (poll i) s) i target (t.stage = .ready ∧ s.refusing = true) e
  /-- The end of a call's send that ends the call with an error ends it once, the send refused
  when the transport refused it. -/
  ends_late : ∀ (i : Nat) (t : Task) (target : ServiceMode) (timeout : Option Nat)
    (ended : Option String) (e : ModeError), s.tasks[i]? = some t →
    t.job = .switchMode target timeout →
    (after (endSend i ended) s).done = s.done ++ [(i, Outcome.switchFailed e)] →
    FailedOnce s (after (endSend i ended) s) i target (ended.isSome = true) e
  /-- A poll or the end of a send that ends a call in success, superseded, or with any outcome
  but a failed switch reports no switch failure. -/
  quiet : ∀ (i : Nat) (o : Outcome), o.failedSwitch? = none →
    ((after (poll i) s).done = s.done ++ [(i, o)] →
      switchReports (after (poll i) s).diagnostics = switchReports s.diagnostics) ∧
    ∀ ended, (after (endSend i ended) s).done = s.done ++ [(i, o)] →
      switchReports (after (endSend i ended) s).diagnostics = switchReports s.diagnostics
  /-- Aborting a call ends no call and reports no switch failure. -/
  abandoned : ∀ i : Nat, (after (abort i) s).done = s.done ∧
    switchReports (after (abort i) s).diagnostics = switchReports s.diagnostics
  /-- The switch failures reported are those of the calls logged as failed switches. -/
  reported : switchReports s.diagnostics = switchFailures s.done

/-- In every reachable session a switch call ends with `Switch` or `Timeout` when, taking up a
failure of its wait, its generation is still current, and is then reported exactly once. -/
theorem switch_failure_reported_once (hs : Reachable s) : SwitchFailures s where
  takes_up _ _ _ _ _ _ _ _ ht hj hst hx hf := poll_takes_up ht hj hst hx hf
  refused _ _ _ _ ht hj hst hstable hr := poll_refused ht hj hst hstable hr
  refused_late _ _ _ _ _ m ht hj hst := endSend_refused ht hj hst m
  ends i _ _ _ _ ht hj hd := (poll_endedBy hs ht hj hd).failedOnce
    (hs.move (.poll i)).repliesSound (reportsFailures_poll i) hd
  ends_late i _ _ _ ended _ ht hj hd :=
    (endSend_endedBy hs.waitsSound hs.modeSound ht hj hd).failedOnce
      (hs.move (.endSend i ended)).repliesSound (reportsFailures_endSend i ended) hd
  quiet i _ ho := ⟨fun hd => by simpa [ho] using (reportsFailures_poll i).single hd,
    fun ended hd => by simpa [ho] using (reportsFailures_endSend i ended).single hd⟩
  abandoned i := ⟨done_abort i, (reportsFailures_abort i).silent (done_abort i)⟩
  reported := hs.reported

/-- A switch to `client` left in its send, whose send the transport then refuses: the call ends
with a dispatch failure, reverted to the unknown mode, and one failure is reported. -/
theorem switch_failure_reported_once_refused_send :
    let u := after (poll 0) (after (Step.run (.request .client none))
      (after (Step.run (.stall true)) (new "")))
    Reachable u ∧ SwitchFailures u ∧
      (after (endSend 0 (some "link closed")) u).done =
        [(0, .switchFailed (.switch .client (.dispatch .serviceChoice "link closed")))] ∧
      switchReports (after (endSend 0 (some "link closed")) u).diagnostics = [.client] := by
  intro u
  have hs : Reachable u := (Reachable.new "").move (.step (.stall true) trivial)
    |>.move (.step (.request .client none) trivial) |>.move (.poll 0)
  exact ⟨hs, switch_failure_reported_once hs, rfl, rfl⟩

/-- The service fails a switch to `client` while its generation is current, then reports
`server` started before the call runs again: the call ends superseded and nothing is reported
for it. -/
theorem failure_overtaken_before_taken_up :
    let u := after (Step.run (.publish (Envelope.commandError .serviceChoice "refused by daemon")))
      (after (poll 0) (after (Step.run (.request .client none)) (after (Step.run .attach)
        (new ""))))
    let u' := after (poll 0) (after (Step.run (.publish ((Envelope.new .serviceStarted).withPayload
      (.object [("service_name", .string "server")])))) u)
    Reachable u ∧ WaitFailed u 0 ∧ Current u 0 ∧
      u'.done = [(0, Outcome.switchFailed (.superseded .client))] ∧ switchReports u'.diagnostics = [] := by
  intro u u'
  have hs : Reachable u := (Reachable.new "").move (.step .attach trivial)
    |>.move (.step (.request .client none) trivial) |>.move (.poll 0)
    |>.move (.step (.publish (Envelope.commandError .serviceChoice "refused by daemon")) trivial)
  exact ⟨hs, ⟨0, _, rfl, rfl, .inr ⟨_, rfl⟩⟩, ⟨_, rfl, rfl⟩, rfl, rfl⟩

end Session

end DaemonBridge
