import Mathlib
import DaemonBridge.Proofs.Session.LeakFreedom

/-!
# How waits are resolved

A command's wait is resolved by filling its slot: with the first notification that answers it,
with the service's failure, or with nothing when its key is released first (the slot is then
dropped). This module says once what any stretch of a run can do to waits (`Evolves`):

* a wait keeps its key, its command and its task, and its slot is set at most once: a filled or
  dropped slot never changes again (`Wait.Settles`);
* a slot is filled only with a reply that some notification gives a wait of its task's job
  (`Job.Replies`): the notification itself, when it comes on the job's success kind about the
  command, reporting the switch's target if the job is a switch; or the service's failure with
  the notification's error text, when it comes on the job's failure kind, distinct from its
  success kind, about the command;
* tasks keep their jobs, the coordinator records no key but that of a switch's wait, and
  `service_started` observers are subscribed to `service_started` only.

Every move of a session keeps `WaitsSound` (`Reachable.waitsSound`), and every move from a
session that keeps it `Evolves` (`Evolves.move`). Publishing is the one step that fills slots;
its handlers are read off the bus when it starts, and `WaitsSound` says which wait, command and
kind each success or failure handler stands for (`WaitsSound.answers`).
-/

namespace DaemonBridge

namespace Session

/-- The reply a notification `e` gives a wait of job `j` for `command`: `e` itself when it comes
on the success kind's wire name about the command, with the target reported if `j` is a switch;
or the service's failure, with `e`'s error text or the fallback, when it comes on the failure
kind's wire name, that kind differing from the success kind, about the command. -/
def Job.Replies (j : Job) (command : CommandKind) (e : Envelope) : Reply → Prop
  | .answer e' => e' = e ∧ e.kind.wireName = j.success.wireName ∧ e.command = some command ∧
      ∀ m ∈ j.target?, reportedMode e = some m
  | .failure f => j.failure ≠ j.success ∧ e.kind.wireName = j.failure.wireName ∧
      e.command = some command ∧ f = .service command (e.errorMessage?.getD silentFailure)

/-- Reply `r` answers wait `x` in session `s`: some notification gives `r` to a wait of the job
of `x`'s task. -/
def Answered (s : Session) (x : Wait) (r : Reply) : Prop :=
  ∃ t e, s.tasks[x.owner]? = some t ∧ t.job.Replies x.command e r

/-- Key `k` is the key of a switch task's wait. -/
def SwitchKey (s : Session) (k : String) : Prop :=
  ∃ (w : Nat) (x : Wait) (t : Task), s.waits[w]? = some x ∧ x.key = k ∧ s.tasks[x.owner]? = some t ∧
    t.job.target?.isSome

/-- How a wait may change: in its slot only, and only while the slot is empty. -/
def Wait.Settles (x x' : Wait) : Prop :=
  x' = { x with slot := x'.slot } ∧ (x.slot = .empty ∨ x'.slot = x.slot)

/-- What a stretch of a run from `s` to `s'` can do to waits, tasks, the coordinator's wait key
and the `service_started` observers. -/
structure Evolves (s s' : Session) : Prop where
  waits : ∀ (w : Nat) (x : Wait), s.waits[w]? = some x → ∃ x', s'.waits[w]? = some x' ∧ x.Settles x'
  jobs : ∀ (i : Nat) (t : Task), s.tasks[i]? = some t → ∃ t', s'.tasks[i]? = some t' ∧ t'.job = t.job
  filled : ∀ (w : Nat) (x' : Wait) (r : Reply), s'.waits[w]? = some x' → x'.slot = .filled r →
    (∃ x, s.waits[w]? = some x ∧ x.slot = .filled r) ∨ s'.Answered x' r
  waitKey : ∀ k, s'.waitKey = some k → s.waitKey = some k ∨ s'.SwitchKey k
  observers : ∀ sub ∈ s'.bus.subscriptions, sub.handler = .serviceStarted →
    sub ∈ s.bus.subscriptions ∨ sub.name = EventKind.serviceStarted.wireName

/-- Every filled slot holds a reply that answers its wait, the coordinator's key is a switch
wait's, and `service_started` observers listen to `service_started` only. -/
structure RepliesSound (s : Session) : Prop where
  filled : ∀ (w : Nat) (x : Wait) (r : Reply), s.waits[w]? = some x → x.slot = .filled r →
    s.Answered x r
  waitKey : ∀ k, s.waitKey = some k → s.SwitchKey k
  observers : ∀ sub ∈ s.bus.subscriptions, sub.handler = .serviceStarted →
    sub.name = EventKind.serviceStarted.wireName

variable {s s' s'' : Session} {w i : Nat} {x x' x'' : Wait}

/-! ## Settling waits -/

theorem Wait.Settles.refl (x : Wait) : x.Settles x := ⟨rfl, Or.inr rfl⟩

theorem Wait.Settles.trans (h₁ : x.Settles x') (h₂ : x'.Settles x'') : x.Settles x'' := by
  obtain ⟨he₁, hs₁⟩ := h₁
  obtain ⟨he₂, hs₂⟩ := h₂
  refine ⟨by rw [he₂, he₁], ?_⟩
  -- a slot that was not empty stays as it was through both stretches
  rcases hs₁ with hs₁ | hs₁
  · exact Or.inl hs₁
  · rcases hs₂ with hs₂ | hs₂
    · exact Or.inl (hs₁ ▸ hs₂)
    · exact Or.inr (hs₂.trans hs₁)

theorem Wait.Settles.owner (h : x.Settles x') : x'.owner = x.owner := by
  rw [h.1]

theorem Wait.Settles.command (h : x.Settles x') : x'.command = x.command := by
  rw [h.1]

theorem Wait.Settles.key (h : x.Settles x') : x'.key = x.key := by
  rw [h.1]

/-- A slot that is filled stays filled with the same reply. -/
theorem Wait.Settles.filled {r : Reply} (h : x.Settles x') (hr : x.slot = .filled r) :
    x'.slot = .filled r := by
  rcases h.2 with he | he
  · rw [hr] at he
    cases he
  · rw [he, hr]

/-! ## The relation is a preorder -/

theorem Evolves.refl (s : Session) : Evolves s s where
  waits _ x hx := ⟨x, hx, .refl x⟩
  jobs _ t ht := ⟨t, ht, rfl⟩
  filled _ x _ hx hr := .inl ⟨x, hx, hr⟩
  waitKey _ hk := .inl hk
  observers _ hsub _ := .inl hsub

theorem Answered.evolve {r : Reply} (h : s.Answered x r) (he : Evolves s s') (hx : x.Settles x') :
    s'.Answered x' r := by
  obtain ⟨t, e, ht, hrep⟩ := h
  obtain ⟨t', ht', hjob⟩ := he.jobs _ t ht
  exact ⟨t', e, by rw [hx.owner]; exact ht', by rw [hjob, hx.command]; exact hrep⟩

theorem SwitchKey.evolve {k : String} (h : s.SwitchKey k) (he : Evolves s s') : s'.SwitchKey k := by
  obtain ⟨w, x, t, hx, hk, ht, hsw⟩ := h
  obtain ⟨x', hx', hxx⟩ := he.waits w x hx
  obtain ⟨t', ht', hjob⟩ := he.jobs _ t ht
  exact ⟨w, x', t', hx', by rw [hxx.key, hk], by rw [hxx.owner]; exact ht', by rw [hjob]; exact hsw⟩

theorem Evolves.trans (h₁ : Evolves s s') (h₂ : Evolves s' s'') : Evolves s s'' where
  waits w x hx := by
    obtain ⟨x', hx', hs₁⟩ := h₁.waits w x hx
    obtain ⟨x'', hx'', hs₂⟩ := h₂.waits w x' hx'
    exact ⟨x'', hx'', hs₁.trans hs₂⟩
  jobs i t ht := by
    obtain ⟨t', ht', hj₁⟩ := h₁.jobs i t ht
    obtain ⟨t'', ht'', hj₂⟩ := h₂.jobs i t' ht'
    exact ⟨t'', ht'', hj₂.trans hj₁⟩
  filled w x'' r hx'' hr := by
    rcases h₂.filled w x'' r hx'' hr with ⟨x', hx', hr'⟩ | hans
    · rcases h₁.filled w x' r hx' hr' with hold | hans
      · exact .inl hold
      · -- answered in the middle: the answer carries over to the wait as it ends up
        obtain ⟨y, hy, hs₂⟩ := h₂.waits w x' hx'
        rw [hx''] at hy
        cases hy
        exact .inr (hans.evolve h₂ hs₂)
    · exact .inr hans
  waitKey k hk := by
    rcases h₂.waitKey k hk with hk' | hsw
    · rcases h₁.waitKey k hk' with hk'' | hsw
      · exact .inl hk''
      · exact .inr (hsw.evolve h₂)
    · exact .inr hsw
  observers sub hsub hobs := by
    rcases h₂.observers sub hsub hobs with hsub' | hname
    · exact h₁.observers sub hsub' hobs
    · exact .inr hname

theorem RepliesSound.evolve (h : RepliesSound s) (he : Evolves s s') : RepliesSound s' where
  filled w x' r hx' hr := by
    rcases he.filled w x' r hx' hr with ⟨x, hx, hxr⟩ | hans
    · obtain ⟨y, hy, hs⟩ := he.waits w x hx
      rw [hx'] at hy
      cases hy
      exact (h.filled w x r hx hxr).evolve he hs
    · exact hans
  waitKey k hk := by
    rcases he.waitKey k hk with hk' | hsw
    · exact (h.waitKey k hk').evolve he
    · exact hsw
  observers sub hsub hobs := by
    rcases he.observers sub hsub hobs with hsub' | hname
    · exact h.observers sub hsub' hobs
    · exact hname

/-! ## Steps that leave waits and tasks alone -/

/-- A step that changes no wait, keeps every task's job, records no wait key but a switch
wait's, and subscribes nothing. -/
theorem Evolves.of_jobs (hw : s'.waits = s.waits)
    (hj : ∀ (i : Nat) (t : Task), s.tasks[i]? = some t → ∃ t', s'.tasks[i]? = some t' ∧ t'.job = t.job)
    (hk : ∀ k, s'.waitKey = some k → s.waitKey = some k ∨ s'.SwitchKey k)
    (hb : s'.bus.subscriptions ⊆ s.bus.subscriptions) : Evolves s s' where
  waits _ x hx := ⟨x, hw ▸ hx, .refl x⟩
  jobs := hj
  filled _ x _ hx hr := .inl ⟨x, hw ▸ hx, hr⟩
  waitKey := hk
  observers _ hsub _ := .inl (hb hsub)

/-- A step that changes neither waits nor tasks, records no new wait key and subscribes
nothing. -/
theorem Evolves.of_eq (hw : s'.waits = s.waits) (ht : s'.tasks = s.tasks)
    (hk : ∀ k, s'.waitKey = some k → s.waitKey = some k)
    (hb : s'.bus.subscriptions ⊆ s.bus.subscriptions) : Evolves s s' :=
  .of_jobs hw (fun _ t h => ⟨t, ht ▸ h, rfl⟩) (fun k h => .inl (hk k h)) hb

/-- Dropping the wait key is one such step. -/
theorem Evolves.of_eq_none (hw : s'.waits = s.waits) (ht : s'.tasks = s.tasks)
    (hk : s'.waitKey = none) (hb : s'.bus.subscriptions ⊆ s.bus.subscriptions) : Evolves s s' :=
  .of_eq hw ht (fun _ h => by rw [hk] at h; cases h) hb

theorem Evolves.wake (i : Nat) : Evolves s (after (wake i) s) := by
  obtain ⟨q, h⟩ := after_wake_eq (s := s) i
  rw [h]
  exact .of_eq rfl rfl (fun _ h => h) (List.Subset.refl _)

theorem Evolves.unsubscribeAll (hs : List (String × Nat)) :
    Evolves s { s with bus := hs.foldl (fun b (p : String × Nat) => b.unsubscribe p.1 p.2) s.bus } :=
  .of_eq rfl rfl (fun _ h => h) (by
    rw [EventBus.unsubscribeAll]
    exact fun _ ha => List.mem_of_mem_filter ha)

/-! ## Filling and dropping slots -/

/-- Setting an empty slot, to nothing or to a reply that answers its wait. -/
theorem Evolves.setSlot {v : Slot} (hx : s.waits[w]? = some x) (hempty : x.slot = .empty)
    (hv : ∀ r, v = .filled r → s.Answered x r) :
    Evolves s { s with waits := s.waits.modify w fun x => { x with slot := v } } where
  waits w' y hy := by
    rw [List.getElem?_modify, hy]
    by_cases hw : w = w'
    · subst hw
      rw [hx] at hy
      cases hy
      exact ⟨{ x with slot := v }, by simp, rfl, .inl hempty⟩
    · exact ⟨y, by simp [hw], .refl y⟩
  jobs _ t ht := ⟨t, ht, rfl⟩
  filled w' y r hy hr := by
    rw [List.getElem?_modify] at hy
    by_cases hw : w = w'
    · subst hw
      rw [hx] at hy
      obtain rfl : { x with slot := v } = y := by simpa using hy
      exact .inr (hv r hr)
    · exact .inl ⟨y, by simpa [hw] using hy, hr⟩
  waitKey _ h := .inl h
  observers _ hsub _ := .inl hsub

theorem Evolves.dropSlot (w : Nat) : Evolves s (after (dropSlot w) s) := by
  cases hx : s.waits[w]? with
  | none =>
    rw [after_dropSlot_none hx]
    exact .refl s
  | some x =>
    by_cases hslot : x.slot = .empty
    · rw [after_dropSlot_empty hx hslot]
      exact (Evolves.setSlot hx hslot fun _ h => by cases h).trans (.wake _)
    · rw [after_dropSlot_taken hx hslot]
      exact .refl s

/-! ## Releases -/

theorem Evolves.runRelease (r : Release) : Evolves s (after (runRelease r) s) := by
  cases r with
  | wait w hs =>
    rw [after_runRelease_wait]
    exact (Evolves.unsubscribeAll hs).trans (.dropSlot w)
  | unsubscribe n id =>
    exact .of_eq rfl rfl (fun _ h => h) (by simp)

theorem Evolves.foldl_runRelease (rs : List Release) (t : Session) :
    Evolves t (rs.foldl (fun t r => after (Session.runRelease r) t) t) := by
  induction rs generalizing t with
  | nil => exact .refl t
  | cons r rs ih => exact (Evolves.runRelease r).trans (ih _)

/-- Changing the registry alone. -/
theorem Evolves.registry (R : Registry Release) : Evolves s { s with registry := R } :=
  .of_eq rfl rfl (fun _ h => h) (List.Subset.refl _)

theorem Evolves.forceRelease (key : String) : Evolves s (after (forceRelease key) s) := by
  cases hf : s.registry.find? key with
  | none =>
    rw [after_forceRelease_none hf]
    exact .refl s
  | some e =>
    rw [after_forceRelease_some hf]
    exact (Evolves.registry _).trans (.runRelease _)

theorem Evolves.releaseKey (key : String) : Evolves s (after (releaseKey key) s) := by
  cases hf : s.registry.find? key with
  | none =>
    rw [after_releaseKey_none hf]
    exact .of_eq rfl rfl (fun _ h => h) (List.Subset.refl _)
  | some e =>
    by_cases hn : 1 < e.holders
    · rw [after_releaseKey_held hf hn]
      exact .registry _
    · rw [after_releaseKey_last hf hn]
      exact (Evolves.registry _).trans (.runRelease _)

theorem Evolves.releaseAll : Evolves s (after releaseAll s) := by
  rw [after_releaseAll]
  exact (Evolves.registry _).trans (.foldl_runRelease _ _)

theorem Evolves.addOnce (key : String) (r : Release) : Evolves s (after (addOnce key r) s) := by
  rw [after_addOnce]
  exact (Evolves.registry _).trans (.foldl_runRelease _ _)

theorem Evolves.addShared (key : String) (r : Release) : Evolves s (after (addShared key r) s) := by
  rw [after_addShared]
  exact (Evolves.registry _).trans (.foldl_runRelease _ _)

theorem Evolves.releaseStale (k : Option String) : Evolves s (after (releaseStale k) s) := by
  cases k with
  | none => exact .refl s
  | some k => exact .forceRelease k

/-! ## The mode coordinator -/

theorem Evolves.showing (m : ModeState) : Evolves s (s.showing m) :=
  .of_eq rfl rfl (fun _ h => h) (List.Subset.refl _)

theorem Evolves.superseded (m : ModeState) : Evolves s (s.superseded m) :=
  .of_eq_none rfl rfl rfl (List.Subset.refl _)

theorem Evolves.beginSwitch (target : ServiceMode) : Evolves s (after (beginSwitch target) s) := by
  rw [after_beginSwitch]
  split
  · exact .refl s
  · exact (Evolves.superseded _).trans (.releaseStale _)

/-- Recording a switch's wait key, which must be the key of a switch task's wait. -/
theorem Evolves.track (g : Nat) {key : String} (hk : s.SwitchKey key) :
    Evolves s (after (track g key) s) := by
  rw [after_track]
  split
  · refine .of_jobs rfl (fun _ t ht => ⟨t, ht, rfl⟩) (fun k h => ?_) (List.Subset.refl _)
    cases h
    exact .inr hk
  · exact .refl s

theorem Evolves.commit (g : Nat) (target : ServiceMode) : Evolves s (after (commit g target) s) := by
  rw [after_commit]
  split
  · exact .of_eq_none rfl rfl rfl (List.Subset.refl _)
  · exact .refl s

theorem Evolves.failSwitch (g : Nat) (target : ServiceMode) (e : CommandError) :
    Evolves s (after (failSwitch g target e) s) := by
  rw [after_failSwitch]
  split
  · exact .of_eq_none rfl rfl rfl (List.Subset.refl _)
  · exact .refl s

theorem Evolves.abandonSwitch (g : Nat) : Evolves s (after (abandonSwitch g) s) := by
  rw [after_abandonSwitch]
  split
  · exact (Evolves.superseded _).trans (.releaseStale _)
  · exact .refl s

theorem Evolves.observe (m : ServiceMode) : Evolves s (after (observe m) s) := by
  obtain ⟨previous, hm⟩ := after_observe (s := s) m
  rw [hm]
  exact (Evolves.superseded _).trans (.releaseStale _)

theorem Evolves.cancelSwitch : Evolves s (after cancelSwitch s) := by
  by_cases hs : ∃ target, s.mode.active = .pending (some target)
  · obtain ⟨target, ht⟩ := hs
    rw [after_cancelSwitch_switching ht]
    exact (Evolves.superseded _).trans (.releaseStale _)
  · rw [after_cancelSwitch_other (fun target ht => hs ⟨target, ht⟩)]
    exact .refl s

theorem Evolves.assume (m : ServiceMode) : Evolves s (after (assume m) s) := by
  rw [after_assume]
  split
  · exact .showing _
  · exact .refl s

theorem Evolves.applySnapshot (snap : StatusSnapshot) :
    Evolves s (after (applySnapshot snap) s) := by
  rw [after_applySnapshot]
  cases snap.activeMode with
  | none => exact .refl s
  | some m => exact .observe m

theorem Evolves.takeStatus (e : Envelope) : Evolves s (after (takeStatus e) s) := by
  simp only [Session.takeStatus]
  split
  · split
    · simp only [after_bind, after_discard, after_pure]
      exact .applySnapshot _
    · exact .refl s
  · simp only [after_bind, after_discard, after_pure]
    exact .applySnapshot _

/-! ## Handlers and publishing -/

/-- What a handler subscribed under wire name `name` stands for: a success handler answers a wait
of a task whose job has `name` as its success kind's wire name, for the wait's command and with
the job's target; a failure handler answers one on the job's failure kind, distinct from its
success kind. -/
def Handler.Answers (s : Session) (name : String) : Handler → Prop
  | .waitSuccess w command target => ∃ x t, s.waits[w]? = some x ∧ s.tasks[x.owner]? = some t ∧
      command = x.command ∧ target = t.job.target? ∧ name = t.job.success.wireName
  | .waitError w command => ∃ x t, s.waits[w]? = some x ∧ s.tasks[x.owner]? = some t ∧
      command = x.command ∧ t.job.failure ≠ t.job.success ∧ name = t.job.failure.wireName
  | _ => True

theorem Handler.Answers.evolve {name : String} {h : Handler} (hans : h.Answers s name)
    (he : Evolves s s') : h.Answers s' name := by
  cases h with
  | waitSuccess w command target =>
    obtain ⟨x, t, hx, ht, hc, htarget, hname⟩ := hans
    obtain ⟨x', hx', hxx⟩ := he.waits w x hx
    obtain ⟨t', ht', hjob⟩ := he.jobs _ t ht
    exact ⟨x', t', hx', by rw [hxx.owner]; exact ht', by rw [hxx.command]; exact hc,
      by rw [hjob]; exact htarget, by rw [hjob]; exact hname⟩
  | waitError w command =>
    obtain ⟨x, t, hx, ht, hc, hfs, hname⟩ := hans
    obtain ⟨x', hx', hxx⟩ := he.waits w x hx
    obtain ⟨t', ht', hjob⟩ := he.jobs _ t ht
    exact ⟨x', t', hx', by rw [hxx.owner]; exact ht', by rw [hxx.command]; exact hc,
      by rw [hjob]; exact hfs, by rw [hjob]; exact hname⟩
  | errorWatch | listener | serviceStarted | rosterFeed => trivial

/-- A subscription of a wait is one its task's job makes for it. -/
theorem WaitsSound.mem_job_waitHandlers {c : Option (Nat × Nat)} (h : WaitsSound c s)
    {sub : EventBus.Subscription Handler} (hsub : sub ∈ s.bus.subscriptions)
    (hw : sub.handler.wait? = some w) :
    ∃ x t, s.waits[w]? = some x ∧ s.tasks[x.owner]? = some t ∧ x.command = t.job.command ∧
      (sub.name, sub.handler) ∈ t.job.waitHandlers w := by
  have hlt := h.handler_lt sub hsub w hw
  obtain ⟨x, hx⟩ : ∃ x, s.waits[w]? = some x := ⟨_, List.getElem?_eq_getElem hlt⟩
  obtain ⟨t, ht, hc, hopen, hclosed⟩ := h.wait_task w x hx
  have hmem : (sub.name, sub.handler) ∈ s.waitHandlers w :=
    List.mem_map.mpr ⟨sub, List.mem_filter.mpr ⟨hsub, by simp [hw]⟩, rfl⟩
  -- a closed wait has no subscriptions left, so the wait is open
  by_cases ho : s.Open w
  · exact ⟨x, t, hx, ht, hc, hopen ho ▸ hmem⟩
  · rw [hclosed ho] at hmem
    cases hmem

theorem WaitsSound.answers {c : Option (Nat × Nat)} (h : WaitsSound c s)
    {sub : EventBus.Subscription Handler} (hsub : sub ∈ s.bus.subscriptions) :
    sub.handler.Answers s sub.name := by
  obtain ⟨id, name, handler⟩ := sub
  cases handler with
  | waitSuccess w command target =>
    obtain ⟨x, t, hx, ht, hc, hmem⟩ := h.mem_job_waitHandlers hsub rfl
    simp only [Job.waitHandlers, List.mem_cons, Prod.mk.injEq, Handler.waitSuccess.injEq] at hmem
    rcases hmem with ⟨hname, -, hcmd, htarget⟩ | hmem
    · exact ⟨x, t, hx, ht, hcmd.trans hc.symm, htarget, hname⟩
    · split at hmem <;> simp at hmem
  | waitError w command =>
    obtain ⟨x, t, hx, ht, hc, hmem⟩ := h.mem_job_waitHandlers hsub rfl
    simp only [Job.waitHandlers, List.mem_cons, Prod.mk.injEq, reduceCtorEq, and_false,
      false_or] at hmem
    split at hmem
    · simp at hmem
    · rename_i hfs
      simp only [List.mem_singleton, Prod.mk.injEq, Handler.waitError.injEq] at hmem
      exact ⟨x, t, hx, ht, hmem.2.2.trans hc.symm, hfs, hmem.1⟩
  | errorWatch | listener | serviceStarted | rosterFeed => trivial

/-- Delivering a reply that answers the wait, if its slot is still empty. -/
theorem Evolves.deliver (w : Nat) (reply : Reply)
    (hfit : ∀ x, s.waits[w]? = some x → x.slot = .empty → s.Answered x reply) :
    Evolves s (after (deliver w reply) s) := by
  cases hx : s.waits[w]? with
  | none =>
    have hs : after (Session.deliver w reply) s = s := by simp [Session.deliver, hx]
    rw [hs]
    exact .refl s
  | some x =>
    by_cases hslot : x.slot = .empty
    · simp only [Session.deliver, after_bind, after_wait?, answer_wait?, hx, hslot, after_setSlot,
        after_discard, beq_self_eq_true, if_true]
      exact ((Evolves.setSlot hx hslot fun r hr => by
        cases hr
        exact hfit x hx hslot).trans (.wake _)).trans (.releaseKey _)
    · have hs : after (Session.deliver w reply) s = s := by simp [Session.deliver, hx, hslot]
      rw [hs]
      exact .refl s

theorem Evolves.feedRoster (e : Envelope) (online : Bool) :
    Evolves s (after (feedRoster e online) s) := by
  simp only [Session.feedRoster, after_bind, answer_get, after_get]
  split <;> exact .of_eq rfl rfl (fun _ h => h) (List.Subset.refl _)

/-- A handler run on a notification published under its wire name: a wait's handler fills the
wait with the reply the notification gives it. -/
theorem Evolves.handle (e : Envelope) {handler : Handler}
    (hans : handler.Answers s e.kind.wireName) : Evolves s (after (handle e handler) s) := by
  cases handler with
  | waitSuccess w command target =>
    obtain ⟨x, t, hx, ht, hc, htarget, hname⟩ := hans
    simp only [Session.handle, after_ite]
    split
    · rename_i hguard
      simp only [Bool.and_eq_true, beq_iff_eq] at hguard
      obtain ⟨hcmd, hall⟩ := hguard
      refine .deliver w _ fun x' hx' _ => ?_
      rw [hx] at hx'
      cases hx'
      -- the guard checked the command and, for a switch, the reported target
      refine ⟨t, e, ht, rfl, hname, hc ▸ hcmd, fun m hm => ?_⟩
      rw [← htarget] at hm
      subst hm
      simpa using hall
    · exact .refl s
  | waitError w command =>
    obtain ⟨x, t, hx, ht, hc, hfs, hname⟩ := hans
    simp only [Session.handle, after_ite]
    split
    · rename_i hguard
      refine .deliver w _ fun x' hx' _ => ?_
      rw [hx] at hx'
      cases hx'
      exact ⟨t, e, ht, hfs, hname, hc ▸ beq_iff_eq.mp hguard, by rw [hc]⟩
    · exact .refl s
  | errorWatch command label =>
    simp only [Session.handle, after_ite]
    split
    · exact .of_eq rfl rfl (fun _ h => h) (List.Subset.refl _)
    · exact .refl s
  | listener label => exact .of_eq rfl rfl (fun _ h => h) (List.Subset.refl _)
  | serviceStarted =>
    simp only [Session.handle]
    split
    · split
      · exact .observe _
      · exact .refl s
    · exact .refl s
  | rosterFeed online => exact .feedRoster e online

theorem EventBus.mem_handlersOf {name : String} {p : Nat × Handler} {bus : EventBus Handler} :
    p ∈ bus.handlersOf name ↔ ∃ sub ∈ bus.subscriptions, sub.name = name ∧ (sub.id, sub.handler) = p := by
  simp only [EventBus.handlersOf, List.mem_map, List.mem_filter, beq_iff_eq]
  constructor
  · rintro ⟨sub, ⟨hsub, hname⟩, rfl⟩
    exact ⟨sub, hsub, hname, rfl⟩
  · rintro ⟨sub, hsub, hname, rfl⟩
    exact ⟨sub, ⟨hsub, hname⟩, rfl⟩

/-- A handler read off the bus of `s₀` when a publish starts answers, when its turn comes, what
`WaitsSound` says it answered then. -/
theorem Evolves.snapshot {c : Option (Nat × Nat)} {s₀ : Session} (h₀ : WaitsSound c s₀)
    {e : Envelope} {p : Nat × Handler} (hp : p ∈ s₀.bus.handlersOf e.kind.wireName)
    (he : Evolves s₀ s) : Evolves s (after (Session.handle e p.2) s) := by
  obtain ⟨sub, hsub, hname, rfl⟩ := EventBus.mem_handlersOf.mp hp
  exact .handle e ((hname ▸ h₀.answers hsub).evolve he)

/-- Publishing runs the handlers subscribed when it starts. -/
theorem Evolves.publish {c : Option (Nat × Nat)} (h : WaitsSound c s) (e : Envelope) :
    Evolves s (after (publish e) s) := by
  simp only [Session.publish, after_bind, answer_get, after_get, after_pure]
  exact (forM_keeps (P := fun t => WaitsSound c t ∧ Evolves s t)
    (fun p hp t ht => ⟨ht.1.handle e p.2, ht.2.trans (.snapshot h hp ht.2)⟩) ⟨h, .refl s⟩).2

/-- Actions run one after another, each keeping `WaitsSound c` and evolving the session. -/
theorem Evolves.forM {c : Option (Nat × Nat)} {β : Type} {xs : List β} {f : β → SessionM PUnit}
    (hf : ∀ y ∈ xs, ∀ t, WaitsSound c t → WaitsSound c (after (f y) t) ∧ Evolves t (after (f y) t))
    (h : WaitsSound c s) : Evolves s (after (xs.forM f) s) :=
  (forM_keeps (P := fun t => WaitsSound c t ∧ Evolves s t)
    (fun y hy t ht => ⟨(hf y hy t ht.1).1, ht.2.trans (hf y hy t ht.1).2⟩) ⟨h, .refl s⟩).2

theorem Evolves.send {c : Option (Nat × Nat)} (h : WaitsSound c s) (command : CommandKind)
    (params : Option Json.Value) : Evolves s (after (send command params) s) := by
  by_cases hr : s.refusing = true
  · have hs : after (Session.send command params) s = s := by simp [Session.send, hr]
    rw [hs]
    exact .refl s
  · by_cases hst : s.stalling = true
    · have hs : after (Session.send command params) s = s := by simp [Session.send, hr, hst]
      rw [hs]
      exact .refl s
    · -- the command goes out, and the daemon's next batch of answers is published
      simp only [Session.send, hr, hst, Bool.false_eq_true, ↓reduceIte, after_bind, answer_get,
        after_get, after_set, after_pure]
      refine Evolves.trans ?_
        (.forM (fun e _ t ht => ⟨ht.publish e, .publish ht e⟩) (h.of_eq rfl rfl rfl rfl))
      exact .of_eq rfl rfl (fun _ h => h) (List.Subset.refl _)

/-! ## Opening waits and dispatching -/

/-- Subscribing anything but a `service_started` observer, or one to `service_started`. -/
theorem Evolves.subscribe (name : String) {handler : Handler}
    (hh : handler = .serviceStarted → name = EventKind.serviceStarted.wireName) :
    Evolves s (after (subscribe name handler) s) where
  waits _ x hx := ⟨x, hx, .refl x⟩
  jobs _ t ht := ⟨t, ht, rfl⟩
  filled _ x _ hx hr := .inl ⟨x, hx, hr⟩
  waitKey _ h := .inl h
  observers sub hsub hobs := by
    simp only [after_subscribe, EventBus.subscriptions_subscribe, List.mem_append,
      List.mem_singleton] at hsub
    rcases hsub with hsub | rfl
    · exact .inl hsub
    · exact .inr (hh hobs)

/-- Appending a wait with an empty slot. -/
theorem Evolves.appendWait {y : Wait} (hy : y.slot = .empty) :
    Evolves s { s with waits := s.waits ++ [y] } where
  waits w x hx := ⟨x, by rw [List.getElem?_append_left (List.getElem?_eq_some_iff.mp hx).1]; exact hx,
    .refl x⟩
  jobs _ t ht := ⟨t, ht, rfl⟩
  filled w x' r hx' hr := by
    rcases Nat.lt_or_ge w s.waits.length with hlt | hge
    · rw [List.getElem?_append_left hlt] at hx'
      exact .inl ⟨x', hx', hr⟩
    · rw [List.getElem?_append_right hge, List.getElem?_singleton] at hx'
      split at hx'
      · cases hx'
        rw [hy] at hr
        cases hr
      · cases hx'
  waitKey _ h := .inl h
  observers _ hsub _ := .inl hsub

theorem Evolves.openWait (owner : Nat) (success failure : EventKind) (command : CommandKind)
    (target : Option ServiceMode) :
    Evolves s (after (openWait owner success failure command target) s) := by
  have hne : ∀ w c t, Handler.waitSuccess w c t ≠ .serviceStarted := fun _ _ _ h => by cases h
  by_cases hfs : failure = success
  · simp only [Session.openWait, after_bind, answer_get, after_get, after_modify, hfs,
      beq_self_eq_true, if_true, after_pure, after_discard]
    exact ((Evolves.appendWait rfl).trans (.subscribe _ fun h => absurd h (hne _ _ _))).trans
      (.addOnce _ _)
  · simp only [Session.openWait, after_bind, answer_get, after_get, after_modify, hfs, beq_iff_eq,
      if_false, after_pure, after_discard]
    exact (((Evolves.appendWait rfl).trans (.subscribe _ fun h => absurd h (hne _ _ _))).trans
      (.subscribe _ fun h => by cases h)).trans (.addOnce _ _)

/-- A dispatch of task `i`'s command. -/
theorem Evolves.dispatchJob (h : WaitsSound none s) {t : Task} (ht : s.tasks[i]? = some t) :
    Evolves s (after (dispatchJob i t.job) s) := by
  have he := (Evolves.openWait (s := s) i t.job.success t.job.failure t.job.command
    t.job.target?).trans (.send (h.openWait ht) t.job.command t.job.params)
  rw [Session.dispatchJob]
  rcases dispatchFor_cases (s := s) i t.job.success t.job.failure t.job.command t.job.params
    t.job.target? with ⟨e, -, hs⟩ | ⟨-, hs⟩ | ⟨-, hs⟩
  · rw [hs]
    exact he.trans (.forceRelease _)
  · rw [hs]
    exact he
  · rw [hs]
    exact he

/-! ## Tasks -/

theorem Evolves.modifyTask (f : Task → Task) (hjob : ∀ t, (f t).job = t.job) :
    Evolves s { s with tasks := s.tasks.modify i f } :=
  .of_jobs rfl (fun j t ht => ⟨if i = j then f t else t, by rw [List.getElem?_modify, ht]; rfl,
    by split <;> simp [hjob]⟩) (fun _ h => .inl h) (List.Subset.refl _)

theorem Evolves.setStage (i : Nat) (st : Stage) : Evolves s (after (setStage i st) s) :=
  .modifyTask _ fun _ => rfl

theorem Evolves.finish (i : Nat) (o : Outcome) : Evolves s (after (finish i o) s) := by
  rw [after_finish]
  exact (Evolves.setStage i .finished).trans (.of_eq rfl rfl (fun _ h => h) (List.Subset.refl _))

theorem Evolves.spawn (job : Job) : Evolves s (after (spawn job) s) := by
  rw [after_spawn]
  have hjobs : Evolves s { s with tasks := s.tasks ++ [{ job }] } :=
    .of_jobs rfl (fun j t ht => ⟨t, ?_, rfl⟩) (fun _ h => .inl h) (List.Subset.refl _)
  · exact hjobs.trans (.wake _)
  rw [List.getElem?_append_left (List.getElem?_eq_some_iff.mp ht).1]
  exact ht

theorem Evolves.conclude (i : Nat) (t : Task) (reply : Reply) :
    Evolves s (after (conclude i t reply) s) := by
  simp only [Session.conclude]
  split
  · simp only [after_bind, after_ite]
    split <;> exact (Evolves.commit _ _).trans (.finish _ _)
  · simp only [after_bind]
    exact (Evolves.failSwitch _ _ _).trans (.finish _ _)
  · simp only [after_bind]
    exact (Evolves.takeStatus _).trans (.finish _ _)
  all_goals exact .finish _ _

theorem Evolves.resume (i : Nat) (t : Task) (w : Nat) (deadline : Option (Nat × Nat)) :
    Evolves s (after (resume i t w deadline) s) := by
  simp only [Session.resume, after_bind, after_wait?, answer_wait?]
  cases hx : s.waits[w]? with
  | none => exact .refl s
  | some x =>
    simp only
    cases hslot : x.slot with
    | filled reply => exact .conclude _ _ _
    | dropped => exact .conclude _ _ _
    | empty =>
      cases deadline with
      | none => exact .refl s
      | some d =>
        simp only [after_bind, answer_get, after_get]
        by_cases hd : d.1 ≤ s.clock
        · simp only [hd, ↓reduceIte, after_bind, after_discard]
          exact (Evolves.forceRelease _).trans (.conclude _ _ _)
        · simp only [hd, ↓reduceIte, after_pure]
          exact .refl s

theorem Evolves.awaitSlot (i w : Nat) (timeout : Option Nat) :
    Evolves s (after (awaitSlot i w timeout) s) := by
  simp only [Session.awaitSlot, after_bind, answer_get, after_get]
  generalize timeout.map (fun ms => (s.clock + ms, ms)) = d
  refine (Evolves.setStage i (.awaiting w d)).trans ?_
  simp only [after_task?, answer_task?]
  split
  · exact .resume _ _ _ _
  · exact .refl _

/-- The key a switch records once its command is handed over is that of the wait it is on. -/
theorem WaitsSound.switchKey {c : Option (Nat × Nat)} (h : WaitsSound c s) {t : Task}
    (ht : s.tasks[i]? = some t) (ho : OnWait c i w t) (hsw : t.job.target?.isSome) :
    s.SwitchKey (waitKeyOf t.job.command w) := by
  obtain ⟨x, hx, hown⟩ := h.wait_of_onWait ht ho
  obtain ⟨t', ht', hc, -⟩ := h.wait_task w x hx
  rw [hown, ht] at ht'
  cases ht'
  exact ⟨w, x, t, hx, by rw [h.wait_key w x hx, hc], hown ▸ ht, hsw⟩

/-- A task following up its command records its wait's key if it is a switch, and waits on its
slot, or, superseded meanwhile, takes the key out and finishes. -/
theorem Evolves.proceed {c : Option (Nat × Nat)} (h : WaitsSound c s) {t : Task}
    (ht : s.tasks[i]? = some t) (ho : OnWait c i w t) :
    Evolves s (after (Session.proceed i t w) s) := by
  obtain ⟨job, gen, stage⟩ := t
  cases job with
  | switchMode target timeout =>
    have hk := h.switchKey ht ho rfl
    simp only [Session.proceed, after_bind]
    refine (Evolves.track gen hk).trans ?_
    split
    · exact .awaitSlot _ _ _
    · simp only [after_bind, after_discard]
      exact (Evolves.forceRelease _).trans (.finish _ _)
  | refreshStatus timeout => exact .awaitSlot _ _ _
  | dispatch success failure command params timeout =>
    simp only [Session.proceed, after_bind, after_modify]
    have he : Evolves s { s with keys := s.keys ++ [(i, waitKeyOf command w)] } :=
      .of_eq rfl rfl (fun _ h => h) (List.Subset.refl _)
    exact he.trans (.awaitSlot _ _ _)

/-- A task carrying on from its send: concluded, left sending, or following its command up. -/
theorem Evolves.carry {c : Option (Nat × Nat)} (h : WaitsSound c s) {t : Task}
    (ht : s.tasks[i]? = some t) (ho : OnWait c i w t) {d : Dispatched} (hd : d.On t w s) :
    Evolves s (after (Session.carry i t d) s) := by
  cases d with
  | refused e => exact .conclude _ _ _
  | stalled w' => exact .setStage _ _
  | sent w' =>
    obtain rfl : w' = w := hd
    exact .proceed h ht ho

/-- A ready task dispatches its command and carries on from the send. -/
theorem Evolves.dispatchCarry (h : WaitsSound none s) {t : Task} (ht : s.tasks[i]? = some t)
    (hst : t.stage = .ready) :
    Evolves s (after (Session.carry i t (answer (Session.dispatchJob i t.job) s))
      (after (Session.dispatchJob i t.job) s)) := by
  obtain ⟨hd, htd, hon⟩ := h.dispatchJob ht
  exact (Evolves.dispatchJob h ht).trans (.carry hd (htd ▸ ht) (.starting (by rw [hst]; rfl)) hon)

/-- Starting a ready task. -/
theorem Evolves.start (h : WaitsSound none s) {t : Task} (ht : s.tasks[i]? = some t)
    (hst : t.stage = .ready) : Evolves s (after (start i t) s) := by
  obtain ⟨job, gen, stage⟩ := t
  simp only at hst
  subst hst
  cases job with
  | switchMode target timeout =>
    simp only [Session.start, after_bind]
    cases hb : answer (Session.beginSwitch target) s with
    | none => exact (Evolves.beginSwitch target).trans (.finish _ _)
    | some g =>
      simp only [after_bind, after_modify]
      -- the task records the generation it switches under, then dispatches its command
      obtain ⟨h₂, ht₂⟩ := h.takeGeneration ht target g
      exact ((Evolves.beginSwitch (s := s) target).trans
        (.modifyTask (i := i) (fun t => { t with generation := g }) fun _ => rfl)).trans
        (.dispatchCarry h₂ ht₂ rfl)
  | refreshStatus timeout =>
    simp only [Session.start, after_bind]
    exact .dispatchCarry h ht rfl
  | dispatch success failure command params timeout =>
    simp only [Session.start, after_bind]
    exact .dispatchCarry h ht rfl

theorem Evolves.poll (h : WaitsSound none s) (i : Nat) : Evolves s (after (poll i) s) := by
  simp only [Session.poll, after_bind, after_task?, answer_task?]
  cases ht : s.tasks[i]? with
  | none => exact .refl s
  | some t =>
    simp only
    cases hst : t.stage with
    | ready => exact .start h ht hst
    | sending w => exact .refl s
    | awaiting w d => exact .resume _ _ _ _
    | finished => exact .refl s

/-- The end of a send: the task carries on from it, refused once its wait's key is out, or with
its command handed over and recorded. -/
theorem Evolves.endSend (h : WaitsSound none s) (i : Nat) (ended : Option String) :
    Evolves s (after (endSend i ended) s) := by
  rcases after_endSend (s := s) i ended with he | ⟨t, w, ht, hst, ⟨m, -, he⟩ | ⟨-, he⟩⟩ <;> rw [he]
  · exact .refl s
  · exact (Evolves.forceRelease _).trans (.carry (h.forceRelease _)
      (by rw [tasks_forceRelease]; exact ht) (.shown (by rw [hst]; rfl)) (keyOut_forceRelease _))
  · have h' : WaitsSound none { s with sent := s.sent ++ [⟨t.job.command, t.job.params⟩] } :=
      h.of_eq rfl rfl rfl rfl
    have he' : Evolves s { s with sent := s.sent ++ [⟨t.job.command, t.job.params⟩] } :=
      .of_eq rfl rfl (fun _ h => h) (List.Subset.refl _)
    exact he'.trans (.carry (d := .sent w) h' ht (.shown (by rw [hst]; rfl)) rfl)

theorem Evolves.abort (i : Nat) : Evolves s (after (abort i) s) := by
  simp only [Session.abort, after_bind, after_task?, answer_task?]
  cases ht : s.tasks[i]? with
  | none => exact .refl s
  | some t =>
    simp only
    cases hst : t.stage with
    | ready => exact .refl s
    | finished => exact .refl s
    | sending w | awaiting w _ =>
      -- the wait's key is taken out, a switch abandoned, and the task finished
      simp only [after_bind, after_wait?, answer_wait?]
      cases hx : s.waits[w]? with
      | some x =>
        simp only [after_bind, after_discard]
        split
        · simp only [after_bind, after_pure]
          exact ((Evolves.forceRelease _).trans (.abandonSwitch _)).trans (.setStage _ _)
        · simp only [after_bind, after_pure]
          exact (Evolves.forceRelease _).trans (.setStage _ _)
      | none =>
        simp only
        split
        · simp only [after_bind, after_pure]
          exact (Evolves.abandonSwitch _).trans (.setStage _ _)
        · simp only [after_bind, after_pure]
          exact .setStage _ _

theorem Evolves.advance (ms : Nat) : Evolves s (after (advance ms) s) := by
  simp only [Session.advance, after_bind, after_modify, answer_get, after_get]
  exact forM_keeps (P := fun t => Evolves s t) (fun _ _ t ht => ht.trans (.wake _))
    (.of_eq rfl rfl (fun _ h => h) (List.Subset.refl _))

/-! ## Every move -/

/-- Every script step from a session that keeps `WaitsSound`. -/
theorem Evolves.run (h : WaitsSound none s) (a : Step) : Evolves s (after a.run s) := by
  have hne : ∀ {h : Handler}, h ≠ .serviceStarted → ∀ {name : String},
      h = .serviceStarted → name = EventKind.serviceStarted.wireName := fun hne _ h => absurd h hne
  cases a with
  | request target timeout =>
    simp only [Step.run, after_bind, after_pure]
    exact .spawn _
  | refresh timeout =>
    simp only [Step.run, after_bind, after_pure]
    exact .spawn _
  | dispatch success failure command params timeout =>
    simp only [Step.run, after_bind, after_pure]
    exact .spawn _
  | watchErrors kind command label =>
    simp only [Step.run, after_bind, after_pure, after_discard, answer_subscribe]
    exact (Evolves.subscribe _ (hne (by simp))).trans (.addOnce _ _)
  | listen event key label =>
    simp only [Step.run, after_bind, after_pure, answer_subscribe]
    exact (Evolves.subscribe _ (hne (by simp))).trans (.addShared _ _)
  | releaseKey key =>
    simp only [Step.run, after_bind, after_pure]
    exact .releaseKey key
  | forceReleaseKey key =>
    simp only [Step.run, after_bind, after_pure]
    exact .forceRelease key
  | releaseAll =>
    simp only [Step.run, after_bind, after_pure]
    exact .releaseAll
  | abort task =>
    simp only [Step.run, after_bind, after_pure]
    exact .abort task
  | publish e =>
    simp only [Step.run, after_bind, after_pure]
    exact .publish h e
  | advance ms =>
    simp only [Step.run, after_bind, after_pure]
    exact .advance ms
  | cancel =>
    simp only [Step.run, after_bind, after_pure]
    exact .cancelSwitch
  | assume m =>
    simp only [Step.run, after_bind, after_pure]
    exact .assume m
  | snapshot value =>
    simp only [Step.run]
    split
    · simp only [after_bind, after_pure]
      exact .applySnapshot _
    · exact .refl s
  | attach =>
    -- the one observer of `service_started`, subscribed to it
    simp only [Step.run, attachServiceStarted, after_bind, after_pure, answer_subscribe]
    exact (Evolves.subscribe _ fun _ => rfl).trans (.addOnce _ _)
  | detach =>
    simp only [Step.run, detachServiceStarted, after_bind, after_pure]
    exact .forceRelease _
  | rosterAttach =>
    simp only [Step.run, attachRoster, feeds, List.foldlM_cons, List.foldlM_nil, after_bind,
      after_pure, answer_subscribe]
    exact (((Evolves.subscribe _ (hne (by simp))).trans (.addShared _ _)).trans
      (.subscribe _ (hne (by simp)))).trans (.addShared _ _)
  | rosterDetach =>
    simp only [Step.run, detachRoster, feeds, List.foldlM_cons, List.foldlM_nil, after_bind,
      after_pure]
    exact (Evolves.releaseKey _).trans (.releaseKey _)
  | rosterRemove key =>
    simp only [Step.run, after_bind, after_get]
    split <;> exact .of_eq rfl rfl (fun _ h => h) (List.Subset.refl _)
  | rosterReconcile o online =>
    simp only [Step.run, after_bind, after_get]
    split <;> exact .of_eq rfl rfl (fun _ h => h) (List.Subset.refl _)
  | refCount | respondNext | reject | stall | state | rosterAttached | roster | rosterGet
  | rosterReset => exact .of_eq rfl rfl (fun _ h => h) (List.Subset.refl _)

theorem Evolves.move (h : WaitsSound none s) (hm : Move s s') : Evolves s s' := by
  cases hm with
  | step a _ => exact .run h a
  | poll i => exact .poll h i
  | endSend i ended => exact .endSend h i ended
  | dequeue | clearLogs => exact .of_eq rfl rfl (fun _ h => h) (List.Subset.refl _)

/-! ## Reachable sessions -/

theorem RepliesSound.initial (refusal : String) : RepliesSound (new refusal) where
  filled _ _ _ hx := by simp [Session.new] at hx
  waitKey _ hk := by simp [Session.new] at hk
  observers _ hsub := by simp [Session.new] at hsub

theorem Reachable.repliesSound (hs : Reachable s) : RepliesSound s := by
  induction hs with
  | new refusal => exact .initial refusal
  | move hs hm ih => exact ih.evolve (.move hs.waitsSound hm)

/-- Moves from a reachable session lead to reachable sessions. -/
theorem Reachable.run (hs : Reachable s) (hrun : Relation.ReflTransGen Move s s') : Reachable s' := by
  induction hrun with
  | refl => exact hs
  | tail _ hm ih => exact .move ih hm

end Session

end DaemonBridge
