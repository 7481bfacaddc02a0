import Mathlib
import DaemonBridge.Proofs.Session.Coordinator
import DaemonBridge.Proofs.Session.Running
import DaemonBridge.Proofs.Session.Reachable

/-!
# The mode indicator is never stuck

Every session a fresh one reaches, by any interleaving of switch requests, status refreshes,
snapshots, `service_started` notifications, cancels, assumed modes, answers to any command,
timers and aborted tasks, keeps `ModeSound` with the tasks in flight as its switches
(`Reachable.modeSound`). So (`mode_never_stuck`):

* a switch wait is recorded only while a switch is pending;
* while a switch is pending, the previous mode is the last stable mode shown, and a revert shows
  that mode again, or an unknown mode if none was shown;
* once no switch task is in flight, no switch is pending and no switch wait is recorded.

A start runs in one move: it begins its switch (the task now counts as a switch by `Starting`),
then either leaves its command in flight, or closes its switch and finishes. A send left in flight
ends in a later move, and the task, counted as a switch all along, carries on from it as its start
would have (`ModeSound.carry`).
-/

namespace DaemonBridge

namespace Session

variable {F : Nat → Task → Prop} {s s' : Session} {i : Nat} {t : Task}

/-- The tasks that count as switches between moves: those with their command in flight. -/
abbrev Flying : Nat → Task → Prop := fun _ t => InFlight t

/-- The tasks that count as switches while task `i` starts, once it has begun its switch. -/
abbrev Starting (i : Nat) : Nat → Task → Prop := fun j t => InFlight t ∨ j = i

/-- The tasks that count as switches once task `i`'s switch is closed. -/
abbrev Closing (F : Nat → Task → Prop) (i : Nat) : Nat → Task → Prop := fun j t => F j t ∧ j ≠ i

/-! ## Counting tasks as switches -/

theorem switching_congr {F' : Nat → Task → Prop} {t' : Task} {a : ServiceMode}
    (hjob : t'.job = t.job) (hF : F' i t' ↔ F i t) : Switching F' i t' a ↔ Switching F i t a := by
  simp only [Switching, hjob, hF]

theorem not_switching (hjob : ∀ target timeout, t.job ≠ .switchMode target timeout)
    {a : ServiceMode} : ¬ Switching F i t a :=
  fun ⟨⟨timeout, hj⟩, _⟩ => hjob a timeout hj

/-- The invariant with other tasks counted as switches, when the tasks of the session count
alike. -/
theorem ModeSound.recount (h : ModeSound F s) {F' : Nat → Task → Prop}
    (hF : ∀ j t a, s.tasks[j]? = some t → (Switching F' j t a ↔ Switching F j t a)) :
    ModeSound F' s := by
  refine ⟨h.shown_last, h.previous_last, h.waitKey_pending, h.generation_le,
    fun j t a ht hs hg => h.current_pending j t a ht ((hF j t a ht).mp hs) hg, fun a ha => ?_,
    fun j k tj tk a b hj hk hsj hsk hg => h.generation_unique j k tj tk a b hj hk
      ((hF j tj a hj).mp hsj) ((hF k tk b hk).mp hsk) hg⟩
  obtain ⟨j, t, ht, hs, hg⟩ := h.pending_current a ha
  exact ⟨j, t, ht, (hF j t a ht).mpr hs, hg⟩

/-- A task that is no switch may be counted as one or not, the others counted alike. -/
theorem ModeSound.recount_other (h : ModeSound F s) {F' : Nat → Task → Prop}
    (ht : s.tasks[i]? = some t) (hjob : ∀ target timeout, t.job ≠ .switchMode target timeout)
    (hF : ∀ j t, j ≠ i → (F' j t ↔ F j t)) : ModeSound F' s := by
  refine h.recount fun j t' a ht' => ?_
  by_cases hji : j = i
  · subst hji
    rw [ht] at ht'
    cases ht'
    exact iff_of_false (not_switching hjob) (not_switching hjob)
  · exact switching_congr rfl (hF j t' hji)

/-- While a task that is no switch starts, it may count as one. -/
theorem ModeSound.starting_other (h : ModeSound Flying s) (ht : s.tasks[i]? = some t)
    (hjob : ∀ target timeout, t.job ≠ .switchMode target timeout) : ModeSound (Starting i) s :=
  h.recount_other ht hjob fun j _ hj => by simp [hj]

/-- A task in flight counts as a switch, if it is one, whether or not it is the one running. -/
theorem ModeSound.starting_flying (h : ModeSound Flying s) (ht : s.tasks[i]? = some t)
    (hfly : InFlight t) : ModeSound (Starting i) s := by
  refine h.recount fun j t' a ht' => ?_
  by_cases hji : j = i
  · subst hji
    rw [ht] at ht'
    cases ht'
    exact switching_congr rfl (iff_of_true (Or.inr rfl) hfly)
  · exact switching_congr rfl (by simp [hji])

/-! ## Changing the tasks -/

/-- Changing task `i` without touching its job or its generation: the invariant holds with `F'`,
which counts every task as a switch exactly when `F` did. -/
theorem ModeSound.modifyTask (h : ModeSound F s) (f : Task → Task) {F' : Nat → Task → Prop}
    (hgen : ∀ t, (f t).generation = t.generation)
    (hother : ∀ j t, j ≠ i → (F' j t ↔ F j t))
    (hi : ∀ t, s.tasks[i]? = some t → ∀ a, (Switching F' i (f t) a ↔ Switching F i t a)) :
    ModeSound F' { s with tasks := s.tasks.modify i f } := by
  have htask : ∀ j, (s.tasks.modify i f)[j]? = (s.tasks[j]?).map fun t => if i = j then f t else t :=
    fun j => List.getElem?_modify f i s.tasks j
  -- each task corresponds to the task at the same index before, with the same generation and
  -- counting as a switch alike
  have hcorr : ∀ j t, s.tasks[j]? = some t → ∃ t', (s.tasks.modify i f)[j]? = some t' ∧
      t'.generation = t.generation ∧ ∀ a, Switching F' j t' a ↔ Switching F j t a := by
    intro j t ht
    refine ⟨if i = j then f t else t, by rw [htask, ht]; rfl, by split <;> simp [hgen], fun a => ?_⟩
    by_cases hij : i = j
    · subst hij
      simp only [if_true, hi t ht a]
    · simp only [hij, if_false]
      exact switching_congr rfl (hother j t (Ne.symm hij))
  have hback : ∀ j t', (s.tasks.modify i f)[j]? = some t' → ∃ t, s.tasks[j]? = some t ∧
      t'.generation = t.generation ∧ ∀ a, Switching F' j t' a ↔ Switching F j t a := by
    intro j t' ht'
    cases ht : s.tasks[j]? with
    | none => rw [htask, ht] at ht'; cases ht'
    | some t =>
      obtain ⟨t'', ht'', hg, hs⟩ := hcorr j t ht
      rw [ht''] at ht'
      cases ht'
      exact ⟨t, rfl, hg, hs⟩
  refine ⟨h.shown_last, h.previous_last, h.waitKey_pending, fun t' ht' => ?_,
    fun j t' a ht' hs hg => ?_, fun a ha => ?_, fun j k tj tk a b hj hk hsj hsk hg => ?_⟩
  · obtain ⟨j, hj⟩ := List.getElem?_of_mem ht'
    obtain ⟨t, ht, hg, -⟩ := hback j t' hj
    exact hg ▸ h.generation_le t (List.mem_of_getElem? ht)
  · obtain ⟨t, ht, hg', hs'⟩ := hback j t' ht'
    exact h.current_pending j t a ht ((hs' a).mp hs) (hg'.symm.trans hg)
  · obtain ⟨j, t, ht, hs, hg⟩ := h.pending_current a ha
    obtain ⟨t', ht', hg', hs'⟩ := hcorr j t ht
    exact ⟨j, t', ht', (hs' a).mpr hs, hg'.trans hg⟩
  · obtain ⟨tj', hj', hgj, hsj'⟩ := hback j tj hj
    obtain ⟨tk', hk', hgk, hsk'⟩ := hback k tk hk
    exact h.generation_unique j k tj' tk' a b hj' hk' ((hsj' a).mp hsj) ((hsk' b).mp hsk)
      (hgj.symm.trans (hg.trans hgk))

theorem ModeSound.setStage (h : ModeSound F s) (st : Stage) {F' : Nat → Task → Prop}
    (hother : ∀ j t, j ≠ i → (F' j t ↔ F j t))
    (hi : ∀ t, s.tasks[i]? = some t → ∀ a,
      (Switching F' i { t with stage := st } a ↔ Switching F i t a)) :
    ModeSound F' (after (Session.setStage i st) s) :=
  h.modifyTask _ (fun _ => rfl) hother hi

/-- Task `i` stops once it no longer counts as a switch. -/
theorem ModeSound.stop (h : ModeSound F s) (hother : ∀ j t, j ≠ i → (InFlight t ↔ F j t))
    (hi : ∀ t, ¬ F i t) : ModeSound Flying (after (Session.setStage i .finished) s) :=
  h.setStage .finished hother fun t _ a => switching_congr rfl (by simp [InFlight, Stage.wait?, hi t])

theorem ModeSound.finish (h : ModeSound F s) (hother : ∀ j t, j ≠ i → (InFlight t ↔ F j t))
    (hi : ∀ t, ¬ F i t) (o : Outcome) : ModeSound Flying (after (Session.finish i o) s) := by
  rw [after_finish]
  exact (h.stop hother hi).of_coordinator rfl

/-- A task that counts as no switch stops. -/
theorem ModeSound.stop_unswitched (h : ModeSound Flying s) (ht : s.tasks[i]? = some t)
    (hq : ∀ a, ¬ Switching Flying i t a) :
    ModeSound Flying (after (Session.setStage i .finished) s) := by
  refine (h.exempt (i := i) fun t' a ht' hs _ => ?_).stop (fun j t hj => by simp [hj]) (by simp)
  rw [ht] at ht'
  cases ht'
  exact hq a hs

theorem ModeSound.finish_unswitched (h : ModeSound Flying s) (ht : s.tasks[i]? = some t)
    (hq : ∀ a, ¬ Switching Flying i t a) (o : Outcome) :
    ModeSound Flying (after (Session.finish i o) s) := by
  rw [after_finish]
  exact (h.stop_unswitched ht hq).of_coordinator rfl

/-- A task that is no switch finishes. -/
theorem ModeSound.finish_other (h : ModeSound Flying s) (ht : s.tasks[i]? = some t)
    (hjob : ∀ target timeout, t.job ≠ .switchMode target timeout) (o : Outcome) :
    ModeSound Flying (after (Session.finish i o) s) :=
  h.finish_unswitched ht (fun _ => not_switching hjob) o

/-- Spawning a task: it is ready, so no switch yet. -/
theorem ModeSound.spawn (h : ModeSound Flying s) (job : Job) :
    ModeSound Flying (after (Session.spawn job) s) := by
  rw [after_spawn]
  refine ModeSound.of_coordinator ?_ (coordinator_wake _)
  -- the old tasks keep their places; the new one, last, is not in flight
  have hcases : ∀ (j : Nat) (t : Task), (s.tasks ++ [({ job } : Task)])[j]? = some t →
      s.tasks[j]? = some t ∨ (t = { job } ∧ ¬ InFlight t) := by
    intro j t ht
    rcases Nat.lt_or_ge j s.tasks.length with hj | hj
    · rw [List.getElem?_append_left hj] at ht
      exact Or.inl ht
    · rw [List.getElem?_append_right hj] at ht
      have hz : j - s.tasks.length = 0 := by
        have := (List.getElem?_eq_some_iff.mp ht).1
        simp at this
        omega
      rw [hz] at ht
      simp only [List.getElem?_cons_zero, Option.some.injEq] at ht
      subst ht
      exact Or.inr ⟨rfl, by simp [InFlight, Stage.wait?]⟩
  have hold : ∀ (j : Nat) (t : Task), s.tasks[j]? = some t →
      (s.tasks ++ [({ job } : Task)])[j]? = some t :=
    fun j t ht => by rw [List.getElem?_append_left (List.getElem?_eq_some_iff.mp ht).1]; exact ht
  refine ⟨h.shown_last, h.previous_last, h.waitKey_pending, fun t ht => ?_,
    fun j t a ht hs hg => ?_, fun a ha => ?_, fun j k tj tk a b hj hk hsj hsk hg => ?_⟩
  · rcases List.mem_append.mp ht with ht | ht
    · exact h.generation_le t ht
    · rw [List.mem_singleton.mp ht]
      exact Nat.zero_le _
  · rcases hcases j t ht with ht | ⟨-, hf⟩
    · exact h.current_pending j t a ht hs hg
    · exact absurd hs.2 hf
  · obtain ⟨j, t, ht, hs, hg⟩ := h.pending_current a ha
    exact ⟨j, t, hold j t ht, hs, hg⟩
  · rcases hcases j tj hj with hj | ⟨-, hf⟩
    · rcases hcases k tk hk with hk | ⟨-, hf⟩
      · exact h.generation_unique j k tj tk a b hj hk hsj hsk hg
      · exact absurd hsk.2 hf
    · exact absurd hsj.2 hf

/-! ## Beginning a switch -/

/-- The last stable mode shown is the shown mode, if stable, or else the previous mode. -/
theorem ModeSound.lastStable_shown (h : ModeSound F s) :
    lastStable s.shown = s.mode.stable.orElse fun _ => s.mode.previous := by
  cases ha : s.mode.active with
  | pending target =>
    rw [h.previous_last target ha, stable_of_pending ha]
    rfl
  | client | server =>
    -- the shown mode is stable, so it is the last state shown
    have hm := h.shown_last
    obtain ⟨init, last, hsh⟩ : ∃ init last, s.shown = init ++ [last] := by
      rcases List.eq_nil_or_concat s.shown with hnil | ⟨init, last, hsh⟩
      · rw [hnil] at hm
        rw [hm] at ha
        cases ha
      · exact ⟨init, last, by rw [hsh, List.concat_eq_append]⟩
    rw [hsh, List.getLast?_concat, Option.getD_some] at hm
    rw [hsh, lastStable_append, ← hm]
    simp [ModeState.stable, ActiveService.stable, ha]

/-- A switch begun by task `i`: the mode pends on its target, under a new generation that the
task takes as its own. -/
theorem ModeSound.begin (h : ModeSound Flying s) {target : ServiceMode} {timeout : Option Nat}
    {gen : Nat} (ht : s.tasks[i]? = some ⟨.switchMode target timeout, gen, .ready⟩) {g : Nat}
    (hb : answer (Session.beginSwitch target) s = some g) :
    ModeSound (Starting i) { after (Session.beginSwitch target) s with
      tasks := (after (Session.beginSwitch target) s).tasks.modify i
        fun t => { t with generation := g } } := by
  rw [answer_beginSwitch] at hb
  split at hb
  · cases hb
  · next hst =>
    cases hb
    rw [after_beginSwitch, if_neg hst]
    set m : ModeState := ⟨.pending (some target), s.mode.stable.orElse fun _ => s.mode.previous⟩
    set S₀ := after (releaseStale s.waitKey) (s.superseded m)
    have hc : S₀.coordinator = (s.superseded m).coordinator := coordinator_releaseStale _
    simp only [coordinator, superseded, showing, Coordinator.mk.injEq] at hc
    obtain ⟨hm, hsh, hg, hw, hts⟩ := hc
    have htask : ∀ j, (S₀.tasks.modify i fun t => { t with generation := s.generation + 1 })[j]? =
        (s.tasks[j]?).map fun t => if i = j then { t with generation := s.generation + 1 } else t :=
      fun j => by rw [hts]; exact List.getElem?_modify _ i s.tasks j
    -- every task but `i` keeps a generation below the new one
    have hlow : ∀ j t, j ≠ i → (S₀.tasks.modify i fun t => { t with generation := s.generation + 1 })[j]? = some t →
        s.tasks[j]? = some t ∧ t.generation < s.generation + 1 := by
      intro j t hj ht'
      rw [htask] at ht'
      cases hj' : s.tasks[j]? with
      | none => rw [hj'] at ht'; cases ht'
      | some t₀ =>
        rw [hj'] at ht'
        simp only [Option.map_some, Ne.symm hj, if_false, Option.some.injEq] at ht'
        subst ht'
        exact ⟨rfl, Nat.lt_succ_of_le (h.generation_le _ (List.mem_of_getElem? hj'))⟩
    have hti : (S₀.tasks.modify i fun t => { t with generation := s.generation + 1 })[i]? =
        some ⟨.switchMode target timeout, s.generation + 1, .ready⟩ := by
      rw [htask, ht]
      simp
    -- so the new generation is task `i`'s alone
    have hnew : ∀ j t, (S₀.tasks.modify i fun t => { t with generation := s.generation + 1 })[j]? =
        some t → t.generation = s.generation + 1 → j = i := fun j t ht' hgen => by
      by_contra hji
      have := (hlow j t hji ht').2
      omega
    have hsi : Switching (Starting i) i ⟨.switchMode target timeout, s.generation + 1, .ready⟩ target :=
      ⟨⟨timeout, rfl⟩, Or.inr rfl⟩
    refine ⟨by rw [hm, hsh]; simp, fun a ha => ?_, fun hk => by simp [hw] at hk, fun t ht' => ?_,
      fun j t a ht' hs hg' => ?_, fun a ha => ?_, fun j k tj tk a b hj hk hsj hsk hg' => ?_⟩
    · rw [hm] at ha ⊢
      rw [hsh, lastStable_append, stable_of_pending ha, Option.none_or, h.lastStable_shown]
    · obtain ⟨j, hj⟩ := List.getElem?_of_mem ht'
      by_cases hji : j = i
      · subst hji
        rw [hti] at hj
        cases hj
        simp [hg]
      · simp only [hg]
        exact Nat.le_of_lt (hlow j t hji hj).2
    · -- only task `i` has the new generation
      rw [hg] at hg'
      obtain rfl := hnew j t ht' hg'
      rw [hti] at ht'
      cases ht'
      obtain ⟨timeout', hj⟩ := hs.1
      cases hj
      rw [hm]
    · rw [hm] at ha
      cases ha
      exact ⟨i, _, hti, hsi, hg.symm⟩
    · -- a task with the new generation is `i`, so two tasks sharing it are both `i`
      by_cases hji : j = i
      · subst hji
        rw [hti] at hj
        cases hj
        exact (hnew k tk hk hg'.symm).symm
      · by_cases hki : k = i
        · subst hki
          rw [hti] at hk
          cases hk
          exact absurd (hnew j tj hj hg') hji
        · -- two tasks in flight, both from before
          obtain ⟨hj', -⟩ := hlow j tj hji hj
          obtain ⟨hk', -⟩ := hlow k tk hki hk
          exact h.generation_unique j k tj tk a b hj' hk' ⟨hsj.1, hsj.2.resolve_right hji⟩
            ⟨hsk.1, hsk.2.resolve_right hki⟩ hg'

/-! ## Closing a switch and finishing -/

/-- A task whose switch is closed finishes. -/
theorem ModeSound.finish_closed (h : ModeSound (Closing F i) s)
    (hF : ∀ j t, j ≠ i → (F j t ↔ InFlight t)) (o : Outcome) :
    ModeSound Flying (after (Session.finish i o) s) :=
  h.finish (fun j t hj => by simp [Closing, hF j t hj, hj]) (fun _ ⟨_, hii⟩ => hii rfl) o

theorem starting_other_iff {j : Nat} {t : Task} (hj : j ≠ i) : Starting i j t ↔ InFlight t := by
  simp [hj]

/-- A task counted as a switch while it runs concludes with its reply: a switch commits on an
answer and reverts on a failure, each only if still current, and every task finishes. -/
theorem ModeSound.conclude (h : ModeSound (Starting i) s) (ht : s.tasks[i]? = some t)
    (reply : Reply) : ModeSound Flying (after (Session.conclude i t reply) s) := by
  cases hj : t.job with
  | switchMode target timeout =>
    have hsw : Switching (Starting i) i t target := ⟨⟨timeout, hj⟩, Or.inr rfl⟩
    cases reply with
    | answer e =>
      simp only [Session.conclude, hj, after_bind, after_ite]
      split <;> exact (h.commit ht hsw target).finish_closed (fun _ _ hj => starting_other_iff hj) _
    | failure e =>
      simp only [Session.conclude, hj, after_bind]
      exact (h.failSwitch ht hsw target e).finish_closed (fun _ _ hj => starting_other_iff hj) _
  | refreshStatus timeout =>
    have hother : ∀ target timeout, t.job ≠ .switchMode target timeout := by simp [hj]
    have hf : ModeSound Flying s := h.recount_other ht hother fun _ _ hj => (starting_other_iff hj).symm
    cases reply with
    | answer e =>
      simp only [Session.conclude, hj, after_bind]
      exact (hf.takeStatus e).finish_other (by rw [(closesOnly_takeStatus e).1]; exact ht) hother _
    | failure e =>
      simp only [Session.conclude, hj]
      exact hf.finish_other ht hother _
  | dispatch success failure command params timeout =>
    have hother : ∀ target timeout, t.job ≠ .switchMode target timeout := by simp [hj]
    have hf : ModeSound Flying s := h.recount_other ht hother fun _ _ hj => (starting_other_iff hj).symm
    cases reply <;> simp only [Session.conclude, hj] <;> exact hf.finish_other ht hother _

/-- A task in flight takes its slot's result, or times out, or waits on. -/
theorem ModeSound.resume (h : ModeSound Flying s) (ht : s.tasks[i]? = some t) (hfly : InFlight t)
    (w : Nat) (deadline : Option (Nat × Nat)) :
    ModeSound Flying (after (Session.resume i t w deadline) s) := by
  simp only [Session.resume, after_bind, after_wait?, answer_wait?]
  cases hx : s.waits[w]? with
  | none => exact h
  | some x =>
    simp only
    cases x.slot with
    | filled reply => exact (h.starting_flying ht hfly).conclude ht reply
    | dropped => exact (h.starting_flying ht hfly).conclude ht _
    | empty =>
      cases deadline with
      | none => exact h
      | some d =>
        simp only [after_bind, answer_get, after_get]
        by_cases hd : d.1 ≤ s.clock
        · simp only [hd, ↓reduceIte, after_bind, after_discard]
          exact ((h.starting_flying ht hfly).of_coordinator (coordinator_forceRelease _)).conclude
            (by rw [tasks_forceRelease]; exact ht) _
        · simp only [hd, ↓reduceIte, after_pure]
          exact h

/-- A task counted as a switch while it runs waits on its slot. -/
theorem ModeSound.awaitSlot (h : ModeSound (Starting i) s) (ht : s.tasks[i]? = some t) (w : Nat)
    (timeout : Option Nat) : ModeSound Flying (after (Session.awaitSlot i w timeout) s) := by
  simp only [Session.awaitSlot, after_bind, answer_get, after_get]
  generalize timeout.map (fun ms => (s.clock + ms, ms)) = d
  have hfly : InFlight { t with stage := .awaiting w d } := by simp [InFlight, Stage.wait?]
  have h₁ : ModeSound Flying (after (Session.setStage i (.awaiting w d)) s) :=
    h.setStage _ (fun j t hj => (starting_other_iff hj).symm)
      fun _ _ _ => switching_congr rfl (iff_of_true (by simp [InFlight, Stage.wait?]) (Or.inr rfl))
  have ht₁ : (after (Session.setStage i (.awaiting w d)) s).tasks[i]? =
      some { t with stage := .awaiting w d } := by
    simp [ht]
  simp only [after_task?, answer_task?, ht₁]
  exact h₁.resume ht₁ hfly w d

/-- A task counted as a switch while it runs is left sending. -/
theorem ModeSound.stall (h : ModeSound (Starting i) s) (w : Nat) :
    ModeSound Flying (after (Session.setStage i (.sending w)) s) :=
  h.setStage _ (fun j t hj => (starting_other_iff hj).symm)
    fun _ _ _ => switching_congr rfl (iff_of_true (by simp [InFlight, Stage.wait?]) (Or.inr rfl))

theorem tasks_dispatchFor (owner : Nat) (success failure : EventKind) (command : CommandKind)
    (params : Option Json.Value) (target : Option ServiceMode) :
    (after (dispatchFor owner success failure command params target) s).tasks = s.tasks := by
  simp only [Session.dispatchFor, after_bind]
  rw [tasks_sendEnded, tasks_send, tasks_openWait]

theorem tasks_dispatchJob (i : Nat) (j : Job) : (after (dispatchJob i j) s).tasks = s.tasks :=
  tasks_dispatchFor i j.success j.failure j.command j.params j.target?

/-! ## Starting, polling and aborting tasks -/

theorem generation_track (g : Nat) (key : String) :
    (after (Session.track g key) s).generation = s.generation := by
  rw [after_track]
  split <;> rfl

theorem generation_releaseStale (k : Option String) :
    (after (releaseStale k) s).generation = s.generation :=
  congrArg Coordinator.generation (coordinator_releaseStale k)

/-- A task counted as a switch while it runs follows up its command handed over under wait `w`.
A switch still current records its wait and waits on it; one superseded during its send, whose
generation is no longer current, takes its wait's key out and stops. -/
theorem ModeSound.proceed (h : ModeSound (Starting i) s) (ht : s.tasks[i]? = some t) (w : Nat) :
    ModeSound Flying (after (Session.proceed i t w) s) := by
  obtain ⟨job, gen, stage⟩ := t
  cases job with
  | switchMode target timeout =>
    have hsw : Switching (Starting i) i ⟨.switchMode target timeout, gen, stage⟩ target :=
      ⟨⟨timeout, rfl⟩, Or.inr rfl⟩
    have h₁ := h.track gen (waitKeyOf .serviceChoice w) fun hg =>
      ⟨target, h.current_pending i _ target ht hsw hg.symm⟩
    have ht₁ : (after (Session.track gen (waitKeyOf .serviceChoice w)) s).tasks[i]? =
        some ⟨.switchMode target timeout, gen, stage⟩ := by
      rw [tasks_track]
      exact ht
    simp only [Session.proceed, after_bind, answer_track]
    split
    · exact h₁.awaitSlot ht₁ _ _
    · next hstale =>
      simp only [after_bind, after_discard]
      exact ((h₁.exempt_stale ht₁ (by rw [generation_track]; exact Ne.symm (by simpa using hstale))
        ).of_coordinator (coordinator_forceRelease _)).finish_closed
        (fun _ _ hj => starting_other_iff hj) _
  | refreshStatus timeout => exact h.awaitSlot ht w timeout
  | dispatch success failure command params timeout =>
    -- the command's wait key is noted for the task first
    simp only [Session.proceed, after_bind, after_modify]
    exact ModeSound.awaitSlot (by exact h.of_coordinator rfl) (by exact ht) _ _

/-- A task counted as a switch while it runs carries on from its send: a refusal concludes it,
a send under way leaves it in flight, and a command handed over is followed up. -/
theorem ModeSound.carry (h : ModeSound (Starting i) s) (ht : s.tasks[i]? = some t)
    (d : Dispatched) : ModeSound Flying (after (Session.carry i t d) s) := by
  cases d with
  | refused e => exact h.conclude ht _
  | stalled w => exact h.stall w
  | sent w => exact h.proceed ht w

/-- A task started by a poll. A switch begins, unless its target is already the stable mode, and
counts as a switch from then on; every task dispatches its command and carries on from the
send. -/
theorem ModeSound.start (h : ModeSound Flying s) (ht : s.tasks[i]? = some t)
    (hready : t.stage = .ready) : ModeSound Flying (after (Session.start i t) s) := by
  obtain ⟨job, gen, stage⟩ := t
  simp only at hready
  subst hready
  cases job with
  | switchMode target timeout =>
    simp only [Session.start, after_bind]
    cases hb : answer (Session.beginSwitch target) s with
    | none =>
      -- the target is the stable mode already: nothing changes and the task finishes
      have hst : s.mode.stable = some target := by
        rw [answer_beginSwitch] at hb
        by_contra hst
        rw [if_neg hst] at hb
        cases hb
      simp only [after_beginSwitch, if_pos hst]
      exact h.finish_unswitched ht (fun _ hs => absurd hs.2 (by simp [InFlight, Stage.wait?])) _
    | some g =>
      simp only [after_bind, after_modify]
      have ht₁ : ((after (Session.beginSwitch target) s).tasks.modify i
          fun t => { t with generation := g })[i]? = some ⟨.switchMode target timeout, g, .ready⟩ := by
        simp [tasks_beginSwitch, ht]
      exact ((h.begin ht hb).dispatchJob i _).carry (by rw [tasks_dispatchJob]; exact ht₁) _
  | refreshStatus timeout =>
    simp only [Session.start, after_bind]
    exact ((h.starting_other ht (by simp)).dispatchJob i _).carry
      (by rw [tasks_dispatchJob]; exact ht) _
  | dispatch success failure command params timeout =>
    simp only [Session.start, after_bind]
    exact ((h.starting_other ht (by simp)).dispatchJob i _).carry
      (by rw [tasks_dispatchJob]; exact ht) _

/-- Polling a task: a ready one starts, one awaiting its slot resumes. -/
theorem ModeSound.poll (h : ModeSound Flying s) (i : Nat) :
    ModeSound Flying (after (Session.poll i) s) := by
  simp only [Session.poll, after_bind, after_task?, answer_task?]
  cases ht : s.tasks[i]? with
  | none => exact h
  | some t =>
    simp only
    cases hst : t.stage with
    | ready => exact h.start ht hst
    | awaiting w d => exact h.resume ht (by simp [InFlight, hst, Stage.wait?]) w d
    | sending _ | finished => exact h

/-- The end of a send under way touches no coordinator state; its task, in flight, carries on
from it. -/
theorem ModeSound.endSend (h : ModeSound Flying s) (i : Nat) (ended : Option String) :
    ModeSound Flying (after (Session.endSend i ended) s) := by
  rcases after_endSend (s := s) i ended with he | ⟨t, w, ht, hst, ⟨m, -, he⟩ | ⟨-, he⟩⟩ <;> rw [he]
  · exact h
  · have h₁ := h.starting_flying ht (by simp [InFlight, hst, Stage.wait?])
    exact (h₁.of_coordinator (coordinator_forceRelease _)).carry
      (by rw [tasks_forceRelease]; exact ht) _
  · have h₁ := h.starting_flying ht (by simp [InFlight, hst, Stage.wait?])
    exact ModeSound.carry (by exact h₁.of_coordinator rfl) (by exact ht) _

/-- A switch in flight abandoned by its caller stops: if it was current, a newer generation puts
the last stable mode back. -/
theorem ModeSound.abandon (h : ModeSound Flying s) (ht : s.tasks[i]? = some t)
    {target : ServiceMode} {timeout : Option Nat} (hj : t.job = .switchMode target timeout)
    (hfly : InFlight t) :
    ModeSound Flying (after (Session.setStage i .finished) (after (Session.abandonSwitch t.generation) s)) := by
  have hsw : Switching Flying i t target := ⟨⟨timeout, hj⟩, hfly⟩
  have h₁ := h.abandonSwitch t.generation fun hg =>
    ⟨target, h.current_pending i t target ht hsw hg.symm⟩
  -- the switch's generation is no longer current: another one was, or a newer one now is
  have hstale : t.generation ≠ (after (Session.abandonSwitch t.generation) s).generation := by
    rw [after_abandonSwitch]
    split
    · next hcur =>
      rw [generation_releaseStale]
      simp only [superseded, showing]
      omega
    · next hne => exact Ne.symm hne
  exact (h₁.exempt_stale (by rw [tasks_abandonSwitch]; exact ht) hstale).stop
    (fun j t hj => by simp [hj]) (by simp)

/-- Aborting a task: its wait is released and a switch still current abandoned, so the task
stops without leaving its switch pending. -/
theorem ModeSound.abort (h : ModeSound Flying s) (i : Nat) :
    ModeSound Flying (after (Session.abort i) s) := by
  simp only [Session.abort, after_bind, after_task?, answer_task?]
  cases ht : s.tasks[i]? with
  | none => exact h
  | some t =>
    simp only
    cases hst : t.stage with
    | ready | finished => exact h
    | sending w | awaiting w _ =>
      have hfly : InFlight t := by simp [InFlight, hst, Stage.wait?]
      -- releasing the wait, if it exists, changes neither the invariant nor the tasks
      have hrel : ∀ key, ModeSound Flying (after (Session.forceRelease key) s) ∧
          (after (Session.forceRelease key) s).tasks[i]? = some t := fun key =>
        ⟨h.of_coordinator (coordinator_forceRelease key), by rw [tasks_forceRelease]; exact ht⟩
      simp only [after_bind, after_wait?, answer_wait?]
      cases hj : t.job with
      | switchMode target timeout =>
        simp only
        split
        · exact (hrel _).1.abandon (hrel _).2 hj hfly
        · exact h.abandon ht hj hfly
      | refreshStatus _ | dispatch _ _ _ _ _ =>
        have hq : ∀ a, ¬ Switching Flying i t a := fun _ => not_switching (by simp [hj])
        simp only
        split
        · exact (hrel _).1.stop_unswitched (hrel _).2 hq
        · exact h.stop_unswitched ht hq

theorem ModeSound.advance (h : ModeSound F s) (ms : Nat) :
    ModeSound F (after (Session.advance ms) s) := by
  simp only [Session.advance, after_bind, after_modify, answer_get, after_get]
  exact forM_keeps (fun _ _ t ht => ht.of_coordinator (coordinator_wake _)) (h.of_coordinator rfl)

/-! ## Every move keeps the invariant -/

/-- Every script step keeps the invariant. -/
theorem ModeSound.run (h : ModeSound Flying s) (a : Step) : ModeSound Flying (after a.run s) := by
  cases a with
  | request target timeout =>
    simp only [Step.run, after_bind, after_pure]
    exact h.spawn _
  | refresh timeout =>
    simp only [Step.run, after_bind, after_pure]
    exact h.spawn _
  | dispatch success failure command params timeout =>
    simp only [Step.run, after_bind, after_pure]
    exact h.spawn _
  | abort task =>
    simp only [Step.run, after_bind, after_pure]
    exact h.abort task
  | publish e =>
    simp only [Step.run, after_bind, after_pure]
    exact h.publish e
  | advance ms =>
    simp only [Step.run, after_bind, after_pure]
    exact h.advance ms
  | cancel =>
    simp only [Step.run, after_bind, after_pure]
    exact h.cancelSwitch
  | assume m =>
    simp only [Step.run, after_bind, after_pure]
    exact h.assume m
  | snapshot value =>
    simp only [Step.run]
    split
    · simp only [after_bind, after_pure]
      exact h.applySnapshot _
    · exact h
  -- the remaining steps subscribe, register or release keys, or touch no coordinator state
  | watchErrors | listen | releaseKey | forceReleaseKey | releaseAll | attach | detach
  | rosterAttach | rosterDetach =>
    exact h.of_coordinator (by simp [Step.run, attachServiceStarted, detachServiceStarted,
      attachRoster, detachRoster, feeds, -after_subscribe])
  | rosterRemove key =>
    simp only [Step.run, after_bind, after_get]
    split <;> exact h.of_coordinator rfl
  | rosterReconcile o online =>
    simp only [Step.run, after_bind, after_get]
    split <;> exact h.of_coordinator rfl
  | refCount | respondNext | reject | stall | state | rosterAttached | roster | rosterGet
  | rosterReset => exact h.of_coordinator rfl

theorem ModeSound.move (h : ModeSound Flying s) (hm : Move s s') : ModeSound Flying s' := by
  cases hm with
  | step a _ => exact h.run a
  | poll i => exact h.poll i
  | endSend i ended => exact h.endSend i ended
  | dequeue | clearLogs => exact h.of_coordinator rfl

/-- A fresh session shows nothing and runs no task. -/
theorem ModeSound.initial (refusal : String) : ModeSound Flying (new refusal) := by
  constructor <;> simp [Session.new, lastStable]

theorem Reachable.modeSound (hs : Reachable s) : ModeSound Flying s := by
  induction hs with
  | new refusal => exact ModeSound.initial refusal
  | move _ hm ih => exact ih.move hm

/-! ## The indicator is never stuck -/

/-- The mode indicator of `s` is never stuck on a switch, and a revert shows the last stable
mode shown. -/
structure IndicatorSound (s : Session) : Prop where
  waitKey_pending : s.waitKey.isSome → ∃ target, s.mode.active = .pending (some target)
  previous_last : ∀ target, s.mode.active = .pending (some target) →
    s.mode.previous = lastStable s.shown
  revert_last : ∀ target, s.mode.active = .pending (some target) →
    revertedState s.mode = ⟨(lastStable s.shown).elim (.pending none) ActiveService.ofMode, none⟩
  /-- With no switch in flight, no switch is pending and no switch wait is recorded. -/
  idle : (∀ t ∈ s.tasks, ∀ target timeout, t.job = .switchMode target timeout → ¬ InFlight t) →
    (∀ target, s.mode.active ≠ .pending (some target)) ∧ s.waitKey = none

theorem ModeSound.indicatorSound (h : ModeSound Flying s) : IndicatorSound s where
  waitKey_pending := h.waitKey_pending
  previous_last target := h.previous_last (some target)
  revert_last target ha := by rw [revertedState, h.previous_last (some target) ha]
  idle hidle := by
    -- a pending switch has its task in flight
    have hnone : ∀ target, s.mode.active ≠ .pending (some target) := fun target ha => by
      obtain ⟨j, t, ht, ⟨⟨timeout, hj⟩, hfly⟩, -⟩ := h.pending_current target ha
      exact hidle t (List.mem_of_getElem? ht) target timeout hj hfly
    refine ⟨hnone, ?_⟩
    cases hw : s.waitKey with
    | none => rfl
    | some key =>
      obtain ⟨target, ha⟩ := h.waitKey_pending (by simp [hw])
      exact absurd ha (hnone target)

/-- Whatever the interleaving of switch requests, status refreshes, snapshots, `service_started`
notifications, cancels, assumed modes, answers to any command, timers and aborted tasks, the
mode indicator is never stuck on a switch, and a revert shows the last stable mode. -/
theorem mode_never_stuck (hs : Reachable s) : IndicatorSound s :=
  hs.modeSound.indicatorSound

/-- With sends stalled, a switch to `client` starts, then one to `server`; the older send is then
handed over and the newer one refused. The older switch resumes after the newer one began and
records nothing; the newer one takes its refusal up and shows the unknown mode again. -/
theorem mode_never_stuck_sends_ended :
    let u := after (endSend 1 (some "link closed")) (after (endSend 0 none)
      (after (poll 1) (after (Step.run (.request .server none)) (after (poll 0)
        (after (Step.run (.request .client none)) (after (Step.run (.stall true)) (new "")))))))
    Reachable u ∧ IndicatorSound u ∧ u.mode = ⟨.pending none, none⟩ ∧ u.waitKey = none := by
  intro u
  have hs : Reachable u := (Reachable.new "").move (.step (.stall true) trivial)
    |>.move (.step (.request .client none) trivial) |>.move (.poll 0)
    |>.move (.step (.request .server none) trivial) |>.move (.poll 1)
    |>.move (.endSend 0 none) |>.move (.endSend 1 (some "link closed"))
  exact ⟨hs, mode_never_stuck hs, rfl, rfl⟩

/-! ## The watchers see the mode -/

/-- The state the coordinator's watchers hold: the last one shown to them, or the initial state
while none has been. -/
def watched (s : Session) : ModeState := s.shown.getLast?.getD {}

/-- In every reachable session the coordinator's watchers hold its state, and every move changes
what they hold exactly when it changes the state. -/
theorem watchers_never_lag (hs : Reachable s) (hm : Move s s') :
    s.watched = s.mode ∧ s'.watched = s'.mode ∧ (s'.watched = s.watched ↔ s'.mode = s.mode) := by
  have h := hs.modeSound.shown_last
  have h' := (hs.move hm).modeSound.shown_last
  refine ⟨h.symm, h'.symm, ?_⟩
  rw [watched, watched, ← h, ← h']

/-- A switch to the server mode, begun once its task is polled. -/
theorem watchers_never_lag_switch_begun :
    let u := after (Step.run (.request .server none)) (new "refused")
    let u' := after (poll 0) u
    Reachable u ∧ Move u u' ∧ u.watched = u.mode ∧ u'.watched = u'.mode ∧
      (u'.watched = u.watched ↔ u'.mode = u.mode) := by
  intro u u'
  have hs : Reachable u := (Reachable.new "refused").move (.step (.request .server none) trivial)
  exact ⟨hs, .poll 0, watchers_never_lag hs (.poll 0)⟩

end Session

end DaemonBridge
