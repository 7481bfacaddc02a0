import Mathlib
import DaemonBridge.Proofs.Session.Delivery

/-!
# Running tasks keeps open waits sound

A task opens its wait when it starts, and shows the wait in its stage once its send is under
way. In between, while the start is still running, the wait is the one the start owns (`cur`).
Spawning, starting, resuming, ending a send and aborting tasks keep `WaitsSound`, and each of
them ends with `cur` back to `none`:

* a task is on one wait alone (`OnWait`): the one its start owns, or the one its stage shows;
  everything a task does after its send, when the send ends at once and when it ends in a later
  move, is said once for such a task (`WaitsSound.carry`);
* a task finishes only once none of its waits is open (`Quiet`), which holds as soon as its
  wait's key is out of the registry (`WaitsSound.quiet_keyOut`);
* what a task does between taking its wait's key out and finishing (the coordinator's commit or
  revert, taking a status in) only takes entries out (`ClosesOnly`);
* opening a wait appends it, with fresh subscriptions under a fresh key (`WaitsSound.opened`).
-/

namespace DaemonBridge

namespace Session

variable {c : Option (Nat × Nat)} {s s' : Session} {i : Nat}

/-- Task `i` holds no open wait. -/
def Quiet (i : Nat) (s : Session) : Prop :=
  ∀ w x, s.waits[w]? = some x → x.owner = i → ¬ s.Open w

/-- From `s` to `s'` the tasks stay as they were, and the registry only loses entries. -/
def ClosesOnly (s s' : Session) : Prop :=
  s'.tasks = s.tasks ∧ s'.registry.entries ⊆ s.registry.entries

/-- Task `t`, number `i`, is on wait `w` alone: its stage shows no other wait, and the start `c`
names, if any, is its own, on `w`. -/
structure OnWait (c : Option (Nat × Nat)) (i w : Nat) (t : Task) : Prop where
  cur : ∀ j w', c = some (j, w') → j = i ∧ w' = w
  stage : ∀ w', t.stage.wait? = some w' → w' = w
  shows : c = some (i, w) ∨ t.stage.wait? = some w

/-- A task being started, whose stage shows no wait yet, is on the wait its start opened. -/
theorem OnWait.starting {w : Nat} {t : Task} (hst : t.stage.wait? = none) :
    OnWait (some (i, w)) i w t where
  cur _ _ hc := by cases hc; exact ⟨rfl, rfl⟩
  stage _ hw := by rw [hst] at hw; cases hw
  shows := .inl rfl

/-- Between moves, a task is on the wait its stage shows. -/
theorem OnWait.shown {w : Nat} {t : Task} (hst : t.stage.wait? = some w) : OnWait none i w t where
  cur _ _ hc := by cases hc
  stage _ hw := by rw [hst] at hw; exact (Option.some.inj hw).symm
  shows := .inr hst

@[simp] theorem after_task? : after (task? i) s = s := rfl

@[simp] theorem answer_task? : answer (task? i) s = s.tasks[i]? := rfl

@[simp] theorem after_setStage (st : Stage) :
    after (setStage i st) s = { s with tasks := s.tasks.modify i fun t => { t with stage := st } } :=
  rfl

theorem after_finish (o : Outcome) :
    after (finish i o) s = { after (setStage i .finished) s with done := s.done ++ [(i, o)] } := rfl

/-! ## Changing a task -/

/-- Changing task `i` without changing its job: the waits it owns must be shown by its new stage,
or be the one `cur` now names, and its new stage shows a wait of its own. -/
theorem WaitsSound.modifyTask {c' : Option (Nat × Nat)} (h : WaitsSound c s) (f : Task → Task)
    (hjob : ∀ t, (f t).job = t.job)
    (hown : ∀ w x t, s.waits[w]? = some x → x.owner = i → s.Open w → s.tasks[i]? = some t →
      (f t).stage.wait? = some w ∨ c' = some (i, w))
    (hcur : ∀ j w, j ≠ i → c = some (j, w) → c' = some (j, w))
    (hcw : ∀ j w, c' = some (j, w) → ∃ x, s.waits[w]? = some x ∧ x.owner = j)
    (hsw : ∀ t w, s.tasks[i]? = some t → (f t).stage.wait? = some w →
      ∃ x, s.waits[w]? = some x ∧ x.owner = i) :
    WaitsSound c' { s with tasks := s.tasks.modify i f } := by
  have htask : ∀ j, (s.tasks.modify i f)[j]? = (s.tasks[j]?).map fun t => if i = j then f t else t :=
    fun j => List.getElem?_modify f i s.tasks j
  refine ⟨h.keys_nodup, h.ids_nodup, h.ids_lt, h.handler_lt, h.open_entry, h.other_entry,
    h.wait_key, fun w x hx => ?_, fun w x hx ho => ?_, h.slot_open, hcw, fun j t' w ht' hw => ?_⟩
  · obtain ⟨t, ht, hc, hop, hcl⟩ := h.wait_task w x hx
    have hj : (if i = x.owner then f t else t).job = t.job := by split <;> simp [hjob]
    refine ⟨if i = x.owner then f t else t, by rw [htask, ht]; rfl, by rw [hj]; exact hc,
      fun ho => by rw [hj]; exact hop ho, hcl⟩
  · by_cases hxi : x.owner = i
    · obtain ⟨t, ht, -⟩ := h.wait_task w x hx
      rcases hown w x t hx hxi ho (hxi ▸ ht) with hs | hc
      · exact Or.inl ⟨f t, by rw [htask, ht]; simp [hxi], hs⟩
      · exact Or.inr (hxi ▸ hc)
    · rcases h.wait_stage w x hx ho with ⟨t, ht, hs⟩ | hc
      · exact Or.inl ⟨t, by rw [htask, ht]; simp [Ne.symm hxi], hs⟩
      · exact Or.inr (hcur _ _ hxi hc)
  · rw [htask] at ht'
    obtain ⟨t, ht, rfl⟩ := Option.map_eq_some_iff.mp ht'
    by_cases hij : i = j
    · subst hij
      rw [if_pos rfl] at hw
      exact hsw t w ht hw
    · rw [if_neg hij] at hw
      exact h.stage_wait j t w ht hw

/-- A new stage for task `i`, which shows every open wait the task owns, and no wait but one of
its own. `cur`, if any, is the start of task `i` now over. -/
theorem WaitsSound.setStage (h : WaitsSound c s) (st : Stage) (hc : ∀ j w, c = some (j, w) → j = i)
    (hst : ∀ w x, s.waits[w]? = some x → x.owner = i → s.Open w → st.wait? = some w)
    (hsw : ∀ w, st.wait? = some w → ∃ x, s.waits[w]? = some x ∧ x.owner = i) :
    WaitsSound none (after (Session.setStage i st) s) := by
  rw [after_setStage]
  exact h.modifyTask _ (fun _ => rfl) (fun w x _ hx hown ho _ => Or.inl (hst w x hx hown ho))
    (fun j w hj hcj => absurd (hc j w hcj) hj) (fun _ _ hn => by cases hn)
    (fun _ w _ hw => hsw w hw)

/-- A task finishes once it holds no open wait. -/
theorem WaitsSound.finish (h : WaitsSound c s) (hc : ∀ j w, c = some (j, w) → j = i)
    (hq : Quiet i s) (o : Outcome) : WaitsSound none (after (Session.finish i o) s) := by
  rw [after_finish]
  exact (h.setStage .finished hc (fun w x hx hown ho => absurd ho (hq w x hx hown))
    (fun _ hw => by cases hw)).of_eq rfl rfl rfl rfl

/-- A task holds no open wait when the wait its stage shows, and the wait its start owns, are
closed. -/
theorem WaitsSound.quiet (h : WaitsSound c s) {t : Task} (ht : s.tasks[i]? = some t)
    (hst : ∀ w, t.stage.wait? = some w → ¬ s.Open w) (hc : ∀ w, c = some (i, w) → ¬ s.Open w) :
    Quiet i s := by
  intro w x hx hown ho
  rcases h.wait_stage w x hx ho with ⟨t', ht', hs⟩ | hcw
  · rw [hown, ht] at ht'
    cases ht'
    exact hst w hs ho
  · rw [hown] at hcw
    exact hc w hcw ho

/-- A task on wait `w` alone holds no open wait but `w`. -/
theorem WaitsSound.owned {w : Nat} {t : Task} (h : WaitsSound c s) (ht : s.tasks[i]? = some t)
    (ho : OnWait c i w t) : ∀ w' x, s.waits[w']? = some x → x.owner = i → s.Open w' → w' = w := by
  intro w' x hx hown hop
  rcases h.wait_stage w' x hx hop with ⟨t', ht', hs⟩ | hc
  · rw [hown, ht] at ht'
    cases ht'
    exact ho.stage w' hs
  · rw [hown] at hc
    exact (ho.cur i w' hc).2

/-- The wait a task is on alone is one it opened. -/
theorem WaitsSound.wait_of_onWait {w : Nat} {t : Task} (h : WaitsSound c s)
    (ht : s.tasks[i]? = some t) (ho : OnWait c i w t) : ∃ x, s.waits[w]? = some x ∧ x.owner = i := by
  rcases ho.shows with hc | hst
  · exact h.cur_wait i w hc
  · exact h.stage_wait i t w ht hst

/-- An open wait of task `i` sits under the key its command and its number give. -/
theorem WaitsSound.key_mem_of_open {w : Nat} {t : Task} {x : Wait} (h : WaitsSound c s)
    (ht : s.tasks[i]? = some t) (hx : s.waits[w]? = some x) (hown : x.owner = i)
    (hop : s.Open w) : waitKeyOf t.job.command w ∈ s.registry.keys := by
  obtain ⟨p, hp, hpw⟩ := hop
  obtain ⟨x', hx', hk, -⟩ := h.wait_entry hp hpw
  rw [hx] at hx'
  cases hx'
  obtain ⟨t', ht', hc, -⟩ := h.wait_task w x hx
  rw [hown, ht] at ht'
  cases ht'
  have hp₁ : p.1 = waitKeyOf t.job.command w := by rw [hk, h.wait_key w x hx, hc]
  exact Registry.mem_keys.mpr ⟨p.2, by rw [← hp₁]; exact hp⟩

/-- A task on wait `w` alone holds no open wait once the wait's key is out of the registry. -/
theorem WaitsSound.quiet_keyOut {w : Nat} {t : Task} (h : WaitsSound c s) (ht : s.tasks[i]? = some t)
    (ho : OnWait c i w t) (hk : waitKeyOf t.job.command w ∉ s.registry.keys) : Quiet i s := by
  intro w' x hx hown hop
  obtain rfl := h.owned ht ho w' x hx hown hop
  exact hk (h.key_mem_of_open ht hx hown hop)

/-- No entry sits under the key of a closed wait: an entry under a wait key is that wait's. -/
theorem WaitsSound.keyOut_of_closed {w : Nat} (h : WaitsSound c s) (hw : ¬ s.Open w)
    (command : CommandKind) : waitKeyOf command w ∉ s.registry.keys := by
  rw [Registry.mem_keys]
  rintro ⟨e, hp⟩
  cases ht : e.token with
  | wait w' hs =>
    obtain ⟨x, hx, hk, -⟩ := h.open_entry _ hp w' hs ht
    have hw' : w = w' := waitKeyOf_inj (hk.trans (h.wait_key w' x hx))
    subst hw'
    exact hw ⟨_, hp, by simp [ht, Release.wait?]⟩
  | unsubscribe n id => exact (h.other_entry _ hp n id ht).1 ⟨command, w, rfl⟩

/-! ## Closing waits -/

/-- A wait whose slot is no longer empty is closed. -/
theorem WaitsSound.not_open_of_slot {w : Nat} {x : Wait} (h : WaitsSound c s)
    (hx : s.waits[w]? = some x) (hs : x.slot ≠ .empty) : ¬ s.Open w := by
  rintro ⟨p, hp, hpw⟩
  obtain ⟨x', hx', -, -, hslot⟩ := h.wait_entry hp hpw
  rw [hx] at hx'
  cases hx'
  exact hs hslot

/-- Taking a wait's key out closes the wait. -/
theorem WaitsSound.not_open_forceRelease {w : Nat} {x : Wait} (h : WaitsSound c s)
    (hx : s.waits[w]? = some x) : ¬ (after (Session.forceRelease x.key) s).Open w := by
  obtain ⟨bus, waits, queue, he⟩ := after_forceRelease_eq (s := s) x.key
  rw [he]
  rintro ⟨p, hp, hpw⟩
  rw [Registry.mem_erase] at hp
  obtain ⟨x', hx', hk, -⟩ := h.wait_entry hp.1 hpw
  rw [hx] at hx'
  cases hx'
  exact hp.2 hk

theorem ClosesOnly.refl (s : Session) : ClosesOnly s s := ⟨rfl, List.Subset.refl _⟩

theorem ClosesOnly.trans {s'' : Session} (h₁ : ClosesOnly s s') (h₂ : ClosesOnly s' s'') :
    ClosesOnly s s'' :=
  ⟨h₂.1.trans h₁.1, List.Subset.trans h₂.2 h₁.2⟩

theorem ClosesOnly.of_eq (ht : s'.tasks = s.tasks) (hr : s'.registry = s.registry) :
    ClosesOnly s s' :=
  ⟨ht, hr ▸ List.Subset.refl _⟩

/-- Waits open after are open before. -/
theorem ClosesOnly.open (h : ClosesOnly s s') {w : Nat} (hop : s'.Open w) : s.Open w :=
  let ⟨p, hp, hpw⟩ := hop
  ⟨p, h.2 hp, hpw⟩

/-- A key out of the registry stays out. -/
theorem ClosesOnly.keyOut (h : ClosesOnly s s') {key : String} (hk : key ∉ s.registry.keys) :
    key ∉ s'.registry.keys := fun hk' =>
  let ⟨e, he⟩ := Registry.mem_keys.mp hk'
  hk (Registry.mem_keys.mpr ⟨e, h.2 he⟩)

theorem closesOnly_forceRelease (key : String) : ClosesOnly s (after (forceRelease key) s) := by
  obtain ⟨bus, waits, queue, he⟩ := after_forceRelease_eq (s := s) key
  rw [he]
  exact ⟨rfl, fun p hp => List.mem_of_mem_filter hp⟩

/-- Taking a key out leaves no entry under it. -/
theorem keyOut_forceRelease (key : String) : key ∉ (after (forceRelease key) s).registry.keys := by
  obtain ⟨bus, waits, queue, he⟩ := after_forceRelease_eq (s := s) key
  rw [he]
  exact Registry.not_mem_keys_erase

theorem closesOnly_releaseStale (k : Option String) : ClosesOnly s (after (releaseStale k) s) := by
  cases k with
  | none => exact ClosesOnly.refl s
  | some k => exact closesOnly_forceRelease k

theorem closesOnly_observe (m : ServiceMode) : ClosesOnly s (after (observe m) s) := by
  obtain ⟨previous, he⟩ := after_observe (s := s) m
  rw [he]
  exact (ClosesOnly.of_eq rfl rfl).trans (closesOnly_releaseStale _)

theorem closesOnly_applySnapshot (snap : StatusSnapshot) :
    ClosesOnly s (after (applySnapshot snap) s) := by
  rw [after_applySnapshot]
  cases snap.activeMode with
  | none => exact ClosesOnly.refl s
  | some m => exact closesOnly_observe m

theorem closesOnly_commit (g : Nat) (target : ServiceMode) :
    ClosesOnly s (after (commit g target) s) := by
  rw [after_commit]
  split
  · exact ClosesOnly.of_eq rfl rfl
  · exact ClosesOnly.refl s

theorem closesOnly_failSwitch (g : Nat) (target : ServiceMode) (e : CommandError) :
    ClosesOnly s (after (failSwitch g target e) s) := by
  rw [after_failSwitch]
  split
  · exact ClosesOnly.of_eq rfl rfl
  · exact ClosesOnly.refl s

theorem closesOnly_abandonSwitch (g : Nat) : ClosesOnly s (after (abandonSwitch g) s) := by
  rw [after_abandonSwitch]
  split
  · exact (ClosesOnly.of_eq rfl rfl).trans (closesOnly_releaseStale _)
  · exact ClosesOnly.refl s

theorem closesOnly_takeStatus (e : Envelope) : ClosesOnly s (after (takeStatus e) s) := by
  simp only [takeStatus]
  split
  · split
    · simp only [after_bind, after_discard, after_pure]
      exact closesOnly_applySnapshot _
    · exact ClosesOnly.refl s
  · simp only [after_bind, after_discard, after_pure]
    exact closesOnly_applySnapshot _

theorem WaitsSound.takeStatus (h : WaitsSound c s) (e : Envelope) :
    WaitsSound c (after (Session.takeStatus e) s) := by
  simp only [Session.takeStatus]
  split
  · split
    · simp only [after_bind, after_discard, after_pure]
      exact h.applySnapshot _
    · exact h
  · simp only [after_bind, after_discard, after_pure]
    exact h.applySnapshot _

/-! ## Spawning a task -/

theorem after_spawn (job : Job) :
    after (spawn job) s = after (wake s.tasks.length) { s with tasks := s.tasks ++ [{ job }] } := rfl

theorem WaitsSound.spawn (h : WaitsSound c s) (job : Job) :
    WaitsSound c (after (Session.spawn job) s) := by
  rw [after_spawn]
  apply WaitsSound.wake
  -- every task a wait names is already there, and keeps its place
  have htask : ∀ j t, s.tasks[j]? = some t → (s.tasks ++ [({ job } : Task)])[j]? = some t :=
    fun j t ht => by
    rw [List.getElem?_append_left (List.getElem?_eq_some_iff.mp ht).1]
    exact ht
  refine ⟨h.keys_nodup, h.ids_nodup, h.ids_lt, h.handler_lt, h.open_entry, h.other_entry,
    h.wait_key, fun w x hx => ?_, fun w x hx ho => ?_, h.slot_open, h.cur_wait,
    fun j t w ht hw => ?_⟩
  · obtain ⟨t, ht, rest⟩ := h.wait_task w x hx
    exact ⟨t, htask _ t ht, rest⟩
  · rcases h.wait_stage w x hx ho with ⟨t, ht, hs⟩ | hc
    · exact Or.inl ⟨t, htask _ t ht, hs⟩
    · exact Or.inr hc
  · rcases Nat.lt_or_ge j s.tasks.length with hj | hj
    · rw [List.getElem?_append_left hj] at ht
      exact h.stage_wait j t w ht hw
    · -- the new task is ready, and shows no wait
      rw [List.getElem?_append_right hj] at ht
      rw [List.mem_singleton.mp (List.mem_of_getElem? ht)] at hw
      cases hw

/-! ## Opening a wait -/

/-- Every handler a task's wait subscribes answers that wait. -/
theorem Job.wait?_of_mem_waitHandlers {j : Job} {w : Nat} {p : String × Handler}
    (hp : p ∈ j.waitHandlers w) : p.2.wait? = some w := by
  simp only [Job.waitHandlers, List.mem_cons] at hp
  rcases hp with rfl | hp
  · rfl
  · split at hp
    · simp at hp
    · rw [List.mem_singleton] at hp
      subst hp
      rfl

/-- The key of the next wait is held by no entry. -/
theorem WaitsSound.fresh_key (h : WaitsSound c s) (cmd : CommandKind) :
    s.registry.find? (waitKeyOf cmd s.waits.length) = none := by
  rw [Registry.find?_eq_none_iff, Registry.mem_keys]
  rintro ⟨e, hp⟩
  cases ht : e.token with
  | wait w hs =>
    -- an entry that ends a wait sits under that wait's key, and the wait is older
    obtain ⟨x, hx, hk, -⟩ := h.open_entry _ hp w hs ht
    have hw := waitKeyOf_inj (hk.trans (h.wait_key w x hx))
    have hlt : w < s.waits.length := (List.getElem?_eq_some_iff.mp hx).1
    omega
  | unsubscribe n id => exact (h.other_entry _ hp n id ht).1 ⟨cmd, _, rfl⟩

variable {t : Task}

/-- A wait just opened by task `i`: appended with an empty slot, its subscriptions appended to
the bus with fresh ids, and its entry appended to the registry under its key. -/
theorem WaitsSound.opened (h : WaitsSound none s) (ht : s.tasks[i]? = some t)
    (subs : List (EventBus.Subscription Handler))
    (hh : subs.map (fun sub => (sub.name, sub.handler)) = t.job.waitHandlers s.waits.length)
    (hfresh : ∀ sub ∈ subs, s.bus.nextId ≤ sub.id) (hnd : (subs.map (·.id)).Nodup)
    {S : Session} (hsub : S.bus.subscriptions = s.bus.subscriptions ++ subs)
    (hle : s.bus.nextId ≤ S.bus.nextId) (hlt : ∀ sub ∈ subs, sub.id < S.bus.nextId)
    (hreg : S.registry = ⟨s.registry.entries ++ [(waitKeyOf t.job.command s.waits.length,
      ⟨.wait s.waits.length (subs.map fun sub => (sub.name, sub.id)), 1⟩)]⟩)
    (hwaits : S.waits =
      s.waits ++ [⟨waitKeyOf t.job.command s.waits.length, t.job.command, i, .empty⟩])
    (htasks : S.tasks = s.tasks) : WaitsSound (some (i, s.waits.length)) S := by
  set w := s.waits.length with hw
  set x₀ : Wait := ⟨waitKeyOf t.job.command w, t.job.command, i, .empty⟩
  -- the new subscriptions answer `w`, and no old one does
  have hnew : ∀ sub ∈ subs, sub.handler.wait? = some w := fun sub hs =>
    Job.wait?_of_mem_waitHandlers (p := (sub.name, sub.handler)) (hh ▸ List.mem_map_of_mem hs)
  have hold : ∀ sub ∈ s.bus.subscriptions, sub.handler.wait? ≠ some w := fun sub hs hsw =>
    absurd (h.handler_lt sub hs w hsw) (lt_irrefl _)
  have hlen : ∀ w' y, s.waits[w']? = some y → w' < w := fun w' y hy =>
    (List.getElem?_eq_some_iff.mp hy).1
  have hx_old : ∀ w' y, s.waits[w']? = some y → S.waits[w']? = some y := fun w' y hy => by
    rw [hwaits, List.getElem?_append_left (hlen w' y hy)]
    exact hy
  have hSlen : S.waits.length = w + 1 := by simp [hwaits, hw]
  have hx_new : S.waits[w]? = some x₀ := by
    rw [hwaits]
    exact List.getElem?_concat_length
  have hx_cases : ∀ w' y, S.waits[w']? = some y → s.waits[w']? = some y ∨ (w' = w ∧ y = x₀) := by
    intro w' y hy
    rcases Nat.lt_trichotomy w' w with hlt' | rfl | hgt
    · rw [hwaits, List.getElem?_append_left hlt'] at hy
      exact Or.inl hy
    · rw [hx_new] at hy
      exact Or.inr ⟨rfl, (Option.some.inj hy).symm⟩
    · have := (List.getElem?_eq_some_iff.mp hy).1
      omega
  -- the subscriptions of every other wait are as they were
  have hother : ∀ w', w' ≠ w → S.waitHandlers w' = s.waitHandlers w' ∧
      S.waitHandles w' = s.waitHandles w' := by
    intro w' hne
    have hf : subs.filter (·.handler.wait? == some w') = [] :=
      List.filter_eq_nil_iff.mpr fun sub hs => by simp [hnew sub hs, Ne.symm hne]
    simp only [waitHandlers, waitHandles, hsub, List.filter_append, hf, List.append_nil]
    exact ⟨trivial, trivial⟩
  have hmine : S.waitHandlers w = t.job.waitHandlers w ∧
      S.waitHandles w = subs.map fun sub => (sub.name, sub.id) := by
    have h₁ : s.bus.subscriptions.filter (·.handler.wait? == some w) = [] :=
      List.filter_eq_nil_iff.mpr fun sub hs => by simpa using hold sub hs
    have h₂ : subs.filter (·.handler.wait? == some w) = subs :=
      List.filter_eq_self.mpr fun sub hs => by simp [hnew sub hs]
    simp only [waitHandlers, waitHandles, hsub, List.filter_append, h₁, h₂, List.nil_append]
    exact ⟨hh, trivial⟩
  have ho : ∀ w', S.Open w' ↔ s.Open w' ∨ w' = w := by
    intro w'
    simp only [Open, hreg, List.mem_append, List.mem_singleton]
    constructor
    · rintro ⟨p, hp | rfl, hpw⟩
      · exact Or.inl ⟨p, hp, hpw⟩
      · exact Or.inr (by simpa [Release.wait?] using hpw.symm)
    · rintro (⟨p, hp, hpw⟩ | rfl)
      · exact ⟨p, Or.inl hp, hpw⟩
      · exact ⟨_, Or.inr rfl, rfl⟩
  refine ⟨?keys, ?ids, ?idslt, ?hlt, ?openEntry, ?otherEntry, ?waitKey, ?waitTask, ?waitStage,
    ?slotOpen, ?curWait, ?stageWait⟩
  case keys =>
    rw [hreg]
    exact Registry.keys_create_nodup h.keys_nodup (h.fresh_key _) _
  case ids =>
    rw [hsub, List.map_append]
    refine h.ids_nodup.append hnd (List.disjoint_left.mpr fun a ha hb => ?_)
    obtain ⟨sub, hs, rfl⟩ := List.mem_map.mp ha
    obtain ⟨sub', hs', he⟩ := List.mem_map.mp hb
    have := h.ids_lt sub hs
    have := hfresh sub' hs'
    omega
  case idslt =>
    intro sub hs
    rw [hsub, List.mem_append] at hs
    rcases hs with hs | hs
    · exact lt_of_lt_of_le (h.ids_lt sub hs) hle
    · exact hlt sub hs
  case hlt =>
    intro sub hs w' hw'
    rw [hSlen]
    rw [hsub, List.mem_append] at hs
    rcases hs with hs | hs
    · exact Nat.lt_succ_of_lt (h.handler_lt sub hs w' hw')
    · rw [hnew sub hs] at hw'
      cases hw'
      exact Nat.lt_succ_self _
  case openEntry =>
    intro p hp w' hs' hpt
    rw [hreg, List.mem_append, List.mem_singleton] at hp
    rcases hp with hp | rfl
    · obtain ⟨y, hy, hk, h1, hslot, hhs⟩ := h.open_entry p hp w' hs' hpt
      have hne : w' ≠ w := Nat.ne_of_lt (hlen w' y hy)
      exact ⟨y, hx_old w' y hy, hk, h1, hslot, hhs.trans (hother w' hne).2.symm⟩
    · cases hpt
      exact ⟨x₀, hx_new, rfl, rfl, rfl, hmine.2.symm⟩
  case otherEntry =>
    intro p hp n id hpt
    rw [hreg, List.mem_append, List.mem_singleton] at hp
    rcases hp with hp | rfl
    · obtain ⟨hk, hid, hs⟩ := h.other_entry p hp n id hpt
      refine ⟨hk, lt_of_lt_of_le hid hle, fun sub hsub' hsid => ?_⟩
      rw [hsub, List.mem_append] at hsub'
      rcases hsub' with hsub' | hsub'
      · exact hs sub hsub' hsid
      · have := hfresh sub hsub'
        omega
    · cases hpt
  case waitKey =>
    intro w' y hy
    rcases hx_cases w' y hy with hy | ⟨rfl, rfl⟩
    · exact h.wait_key w' y hy
    · rfl
  case waitTask =>
    intro w' y hy
    rw [htasks]
    rcases hx_cases w' y hy with hy | ⟨rfl, rfl⟩
    · have hne : w' ≠ w := Nat.ne_of_lt (hlen w' y hy)
      obtain ⟨t', ht', hc, hop, hcl⟩ := h.wait_task w' y hy
      refine ⟨t', ht', hc, fun hS => ?_, fun hS => ?_⟩
      · rw [(hother w' hne).1]
        exact hop (((ho w').mp hS).resolve_right hne)
      · rw [(hother w' hne).1]
        exact hcl fun hs => hS ((ho w').mpr (Or.inl hs))
    · exact ⟨t, ht, rfl, fun _ => hmine.1, fun hS => absurd ((ho _).mpr (Or.inr rfl)) hS⟩
  case waitStage =>
    intro w' y hy hS
    rw [htasks]
    rcases hx_cases w' y hy with hy | ⟨rfl, rfl⟩
    · have hne : w' ≠ w := Nat.ne_of_lt (hlen w' y hy)
      rcases h.wait_stage w' y hy (((ho w').mp hS).resolve_right hne) with hs | hc
      · exact Or.inl hs
      · cases hc
    · exact Or.inr rfl
  case slotOpen =>
    intro w' y hy hempty
    rcases hx_cases w' y hy with hy | ⟨rfl, rfl⟩
    · exact (ho w').mpr (Or.inl (h.slot_open w' y hy hempty))
    · exact (ho _).mpr (Or.inr rfl)
  case curWait =>
    intro j w' hc
    obtain ⟨rfl, rfl⟩ := Prod.mk.inj (Option.some.inj hc)
    exact ⟨x₀, hx_new, rfl⟩
  case stageWait =>
    intro j t' w' ht' hw'
    obtain ⟨y, hy, hown⟩ := h.stage_wait j t' w' (htasks ▸ ht') hw'
    exact ⟨y, hx_old w' y hy, hown⟩

theorem answer_openWait (i : Nat) (success failure : EventKind) (command : CommandKind)
    (target : Option ServiceMode) :
    answer (openWait i success failure command target) s = s.waits.length := by
  by_cases hfs : failure = success <;> simp [Session.openWait, hfs]

theorem tasks_openWait (i : Nat) (success failure : EventKind) (command : CommandKind)
    (target : Option ServiceMode) :
    (after (openWait i success failure command target) s).tasks = s.tasks := by
  by_cases hfs : failure = success <;>
    simp [Session.openWait, hfs]

/-- Opening a task's wait: one subscription on its success kind, one on its failure kind if
that differs, and the entry that releases them under the wait's fresh key. -/
theorem WaitsSound.openWait (h : WaitsSound none s) (ht : s.tasks[i]? = some t) :
    WaitsSound (some (i, s.waits.length))
      (after (Session.openWait i t.job.success t.job.failure t.job.command t.job.target?) s) := by
  have hf := h.fresh_key t.job.command
  by_cases hfs : t.job.failure = t.job.success
  · simp only [Session.openWait, after_bind, answer_get, after_get, after_modify, after_subscribe,
      answer_subscribe, hfs, beq_self_eq_true, if_true, after_pure, answer_pure, after_discard,
      after_addOnce, Registry.addOnce, hf, Option.toList_none, List.foldl_nil]
    refine h.opened ht
      [⟨s.bus.nextId, t.job.success.wireName, .waitSuccess s.waits.length t.job.command t.job.target?⟩]
      ?_ ?_ ?_ rfl ?_ ?_ rfl rfl rfl
    · simp [Job.waitHandlers, hfs]
    · simp
    · simp
    · simp
    · simp
  · simp only [Session.openWait, after_bind, answer_get, after_get, after_modify, after_subscribe,
      answer_subscribe, hfs, beq_iff_eq, if_false, after_pure, answer_pure, after_discard,
      after_addOnce, Registry.addOnce, hf, Option.toList_none, List.foldl_nil]
    refine h.opened ht
      [⟨s.bus.nextId, t.job.success.wireName, .waitSuccess s.waits.length t.job.command t.job.target?⟩,
        ⟨s.bus.nextId + 1, t.job.failure.wireName, .waitError s.waits.length t.job.command⟩]
      ?_ ?_ ?_ (by simp) ?_ ?_ rfl rfl rfl
    · simp [Job.waitHandlers, hfs]
    · simp
    · simp
    · simp only [EventBus.nextId_subscribe]
      omega
    · simp

/-! ## Sending and dispatching -/

theorem WaitsSound.send (h : WaitsSound c s) (command : CommandKind) (params : Option Json.Value) :
    WaitsSound c (after (Session.send command params) s) := by
  by_cases hr : s.refusing = true
  · simpa [Session.send, hr] using h
  · by_cases hs : s.stalling = true
    · simpa [Session.send, hr, hs] using h
    · -- the command goes out, and the daemon's next batch of answers is published
      simp only [Session.send, hr, hs, after_bind, answer_get, after_get]
      exact forM_keeps (fun e _ t ht => by simpa [after_discard] using ht.publish e)
        (h.of_eq rfl rfl rfl rfl)

/-- A dispatch opens its task's wait and sends the command; a refused send takes the wait's key
out again. -/
theorem dispatchFor_cases (i : Nat) (success failure : EventKind) (command : CommandKind)
    (params : Option Json.Value) (target : Option ServiceMode) :
    let d := dispatchFor i success failure command params target
    let s₁ := after (send command params) (after (openWait i success failure command target) s)
    (∃ e, answer d s = .refused e ∧
      after d s = after (forceRelease (waitKeyOf command s.waits.length)) s₁) ∨
    (answer d s = .stalled s.waits.length ∧ after d s = s₁) ∨
    (answer d s = .sent s.waits.length ∧ after d s = s₁) := by
  intro d s₁
  simp only [d, dispatchFor, after_bind, answer_bind, answer_openWait]
  cases hs : answer (send command params) (after (openWait i success failure command target) s) with
  | refused m => exact Or.inl ⟨_, rfl, rfl⟩
  | stalled => exact Or.inr (Or.inl ⟨rfl, rfl⟩)
  | delivered => exact Or.inr (Or.inr ⟨rfl, rfl⟩)

/-- Where a dispatch of task `t` on wait `w` can stand: refused with the wait's key out of the
registry, or sending or sent on `w`. -/
def Dispatched.On (t : Task) (w : Nat) (s : Session) : Dispatched → Prop
  | .refused _ => waitKeyOf t.job.command w ∉ s.registry.keys
  | .stalled w' | .sent w' => w' = w

/-- What a dispatch of task `i` leaves: the wait it opened is the one its start owns, the tasks
are as they were, and the dispatch stands on that wait. -/
theorem WaitsSound.dispatchJob (h : WaitsSound none s) (ht : s.tasks[i]? = some t) :
    let d := Session.dispatchJob i t.job
    WaitsSound (some (i, s.waits.length)) (after d s) ∧ (after d s).tasks = s.tasks ∧
      (answer d s).On t s.waits.length (after d s) := by
  intro d
  have h₁ := (h.openWait ht).send t.job.command t.job.params
  have ht₁ : (after (Session.send t.job.command t.job.params)
      (after (Session.openWait i t.job.success t.job.failure t.job.command t.job.target?) s)).tasks =
      s.tasks := by rw [tasks_send, tasks_openWait]
  rcases dispatchFor_cases (s := s) i t.job.success t.job.failure t.job.command t.job.params
    t.job.target? with ⟨e, ha, hs⟩ | ⟨ha, hs⟩ | ⟨ha, hs⟩
  · -- refused: the wait's key is taken out again
    simp only [d, Session.dispatchJob, hs, ha]
    exact ⟨h₁.forceRelease _, by rw [tasks_forceRelease, ht₁], keyOut_forceRelease _⟩
  · simp only [d, Session.dispatchJob, hs, ha]
    exact ⟨h₁, ht₁, rfl⟩
  · simp only [d, Session.dispatchJob, hs, ha]
    exact ⟨h₁, ht₁, rfl⟩

/-! ## Concluding, resuming and waiting -/

/-- A task on wait `w` alone, whose wait's key is out, concludes: whatever it does before
finishing only takes entries out. -/
theorem WaitsSound.conclude {w : Nat} (h : WaitsSound c s) {t₀ : Task} (ht : s.tasks[i]? = some t₀)
    (ho : OnWait c i w t₀) (hk : waitKeyOf t₀.job.command w ∉ s.registry.keys) (t : Task)
    (reply : Reply) : WaitsSound none (after (Session.conclude i t reply) s) := by
  have hfin : ∀ s', WaitsSound c s' → ClosesOnly s s' → ∀ o,
      WaitsSound none (after (Session.finish i o) s') := fun s' h' hco o =>
    h'.finish (fun j w' hc => (ho.cur j w' hc).1)
      (h'.quiet_keyOut (hco.1 ▸ ht) ho (hco.keyOut hk)) o
  simp only [Session.conclude]
  split
  · simp only [after_bind, after_ite]
    split <;> exact hfin _ (h.commit _ _) (closesOnly_commit _ _) _
  · simp only [after_bind]
    exact hfin _ (h.failSwitch _ _ _) (closesOnly_failSwitch _ _ _) _
  · simp only [after_bind]
    exact hfin _ (h.takeStatus _) (closesOnly_takeStatus _) _
  all_goals exact hfin _ h (ClosesOnly.refl s) _

/-- A task waiting on wait `w` takes its slot's result, or times out and takes its key out, or
waits on. -/
theorem WaitsSound.resume (h : WaitsSound none s) {t₀ : Task} (ht : s.tasks[i]? = some t₀)
    {w : Nat} (hw : t₀.stage.wait? = some w) (t : Task) (deadline : Option (Nat × Nat)) :
    WaitsSound none (after (Session.resume i t w deadline) s) := by
  -- the stage's wait is the only one the task holds: once it is closed, the task concludes
  have hconc : ∀ s', WaitsSound none s' → s'.tasks = s.tasks → ¬ s'.Open w → ∀ reply,
      WaitsSound none (after (Session.conclude i t reply) s') := fun s' h' ht' hw' reply =>
    h'.conclude (ht' ▸ ht) (.shown hw) (h'.keyOut_of_closed hw' _) t reply
  simp only [Session.resume, after_bind, after_wait?, answer_wait?]
  cases hx : s.waits[w]? with
  | none => exact h
  | some x =>
    simp only
    cases hslot : x.slot with
    | filled reply => exact hconc s h rfl (h.not_open_of_slot hx (by simp [hslot])) reply
    | dropped => exact hconc s h rfl (h.not_open_of_slot hx (by simp [hslot])) _
    | empty =>
      cases deadline with
      | none => exact h
      | some d =>
        simp only [after_bind, answer_get, after_get]
        by_cases hd : d.1 ≤ s.clock
        · -- the deadline has passed: the wait's key is taken out and the task times out
          simp only [hd, ↓reduceIte, after_bind, after_discard]
          exact hconc _ (h.forceRelease _) (tasks_forceRelease _) (h.not_open_forceRelease hx) _
        · simp only [hd, ↓reduceIte, after_pure]
          exact h

/-- A task on wait `w` alone shows it in its new stage; a start, if any, is over. -/
theorem WaitsSound.showWait {w : Nat} (h : WaitsSound c s) (ht : s.tasks[i]? = some t)
    (ho : OnWait c i w t) (st : Stage) (hw : st.wait? = some w) :
    WaitsSound none (after (Session.setStage i st) s) :=
  h.setStage _ (fun j w' hc => (ho.cur j w' hc).1)
    (fun w' x hx hown hop => by rw [h.owned ht ho w' x hx hown hop]; exact hw)
    fun w' hw' => by rw [hw] at hw'; cases hw'; exact h.wait_of_onWait ht ho

/-- A task on wait `w` alone waits on its slot. -/
theorem WaitsSound.awaitSlot {w : Nat} (h : WaitsSound c s) (ht : s.tasks[i]? = some t)
    (ho : OnWait c i w t) (timeout : Option Nat) :
    WaitsSound none (after (Session.awaitSlot i w timeout) s) := by
  simp only [Session.awaitSlot, after_bind, answer_get, after_get]
  generalize timeout.map (fun ms => (s.clock + ms, ms)) = d
  have h₁ := h.showWait ht ho (.awaiting w d) rfl
  have ht₁ : (after (Session.setStage i (.awaiting w d)) s).tasks[i]? =
      some { t with stage := .awaiting w d } := by
    simp [ht]
  simp only [after_task?, answer_task?, ht₁]
  exact h₁.resume ht₁ rfl _ _

/-- Changing task `i` in a way that keeps its job and its stage. -/
theorem WaitsSound.keepStage (h : WaitsSound c s) (f : Task → Task) (hjob : ∀ t, (f t).job = t.job)
    (hstage : ∀ t, (f t).stage = t.stage) : WaitsSound c { s with tasks := s.tasks.modify i f } := by
  refine h.modifyTask f hjob (fun w x t hx hown ho ht => ?_) (fun _ _ _ hc => hc) h.cur_wait
    (fun t w ht hw => h.stage_wait i t w ht (by rw [← hstage]; exact hw))
  rcases h.wait_stage w x hx ho with ⟨t', ht', hs⟩ | hc
  · rw [hown, ht] at ht'
    cases ht'
    exact Or.inl (by rw [hstage]; exact hs)
  · exact Or.inr (hown ▸ hc)

/-- A switch that began under generation `g` takes it on: the waits stay sound, and the task is
as it was but for its generation. -/
theorem WaitsSound.takeGeneration (h : WaitsSound none s) (ht : s.tasks[i]? = some t)
    (target : ServiceMode) (g : Nat) :
    let u : Session := { after (Session.beginSwitch target) s with
      tasks := (after (Session.beginSwitch target) s).tasks.modify i
        fun t => { t with generation := g } }
    WaitsSound none u ∧ u.tasks[i]? = some { t with generation := g } := by
  intro u
  refine ⟨(h.beginSwitch target).keepStage (fun t => { t with generation := g }) (fun _ => rfl)
    (fun _ => rfl), ?_⟩
  simp [u, tasks_beginSwitch, ht]

/-! ## Carrying a task on from its send -/

/-- A task whose command was handed over under wait `w` follows it up: a switch still current
records its wait and waits on it, one superseded meanwhile takes the wait's key out and
finishes, and the other tasks wait on their slot. -/
theorem WaitsSound.proceed {w : Nat} (h : WaitsSound c s) (ht : s.tasks[i]? = some t)
    (ho : OnWait c i w t) : WaitsSound none (after (Session.proceed i t w) s) := by
  obtain ⟨job, gen, stage⟩ := t
  cases job with
  | switchMode target timeout =>
    simp only [Session.proceed, after_bind]
    have h₁ := h.track gen (waitKeyOf .serviceChoice w)
    have ht₁ : (after (Session.track gen (waitKeyOf .serviceChoice w)) s).tasks[i]? =
        some ⟨.switchMode target timeout, gen, stage⟩ := by
      rw [tasks_track]
      exact ht
    cases htr : answer (Session.track gen (waitKeyOf .serviceChoice w)) s with
    | true => exact h₁.awaitSlot ht₁ ho timeout
    | false =>
      -- superseded: with the wait's key out, the task holds no open wait
      simp only [Bool.false_eq_true, ↓reduceIte, after_bind, after_discard]
      have h₂ := h₁.forceRelease (waitKeyOf .serviceChoice w)
      have ht₂ : (after (Session.forceRelease (waitKeyOf .serviceChoice w))
          (after (Session.track gen (waitKeyOf .serviceChoice w)) s)).tasks[i]? =
          some ⟨.switchMode target timeout, gen, stage⟩ := by
        rw [tasks_forceRelease]
        exact ht₁
      exact h₂.finish (fun j w' hc => (ho.cur j w' hc).1)
        (h₂.quiet_keyOut ht₂ ho (keyOut_forceRelease _)) _
  | refreshStatus timeout => exact h.awaitSlot ht ho timeout
  | dispatch success failure command params timeout =>
    -- the wait key is made known first
    simp only [Session.proceed, after_bind, after_modify]
    have h' : WaitsSound c { s with keys := s.keys ++ [(i, waitKeyOf command w)] } :=
      h.of_eq rfl rfl rfl rfl
    exact h'.awaitSlot ht ho timeout

/-- A task carries on from its send: refused, it concludes once its wait's key is out; still
sending, it shows its wait; sent, it follows its command up. -/
theorem WaitsSound.carry {w : Nat} (h : WaitsSound c s) (ht : s.tasks[i]? = some t)
    (ho : OnWait c i w t) {d : Dispatched} (hd : d.On t w s) :
    WaitsSound none (after (Session.carry i t d) s) := by
  cases d with
  | refused e => exact h.conclude ht ho hd t _
  | stalled w' =>
    obtain rfl : w' = w := hd
    exact h.showWait ht ho (.sending w') rfl
  | sent w' =>
    obtain rfl : w' = w := hd
    exact h.proceed ht ho

/-- A ready task dispatches its command and carries on from the send. -/
theorem WaitsSound.dispatchCarry (h : WaitsSound none s) (ht : s.tasks[i]? = some t)
    (hst : t.stage = .ready) :
    WaitsSound none (after (Session.carry i t (answer (Session.dispatchJob i t.job) s))
      (after (Session.dispatchJob i t.job) s)) := by
  obtain ⟨hd, htd, hon⟩ := h.dispatchJob ht
  exact hd.carry (htd ▸ ht) (.starting (by rw [hst]; rfl)) hon

/-- Starting a ready task: a switch whose target is the stable mode finishes at once; otherwise
the task dispatches its command, a switch under the generation it began. -/
theorem WaitsSound.start (h : WaitsSound none s) (ht : s.tasks[i]? = some t)
    (hst : t.stage = .ready) : WaitsSound none (after (Session.start i t) s) := by
  obtain ⟨job, gen, stage⟩ := t
  simp only at hst
  subst hst
  cases job with
  | switchMode target timeout =>
    simp only [Session.start, after_bind]
    have h₁ := h.beginSwitch target
    have ht₁ : (after (Session.beginSwitch target) s).tasks[i]? =
        some ⟨.switchMode target timeout, gen, .ready⟩ := by rw [tasks_beginSwitch]; exact ht
    cases hb : answer (Session.beginSwitch target) s with
    | none =>
      -- the target is already the mode: nothing was opened
      exact h₁.finish (fun _ _ hc => by cases hc)
        (h₁.quiet ht₁ (fun _ hw => by cases hw) (fun _ hc => by cases hc)) _
    | some g =>
      simp only [after_bind, after_modify]
      -- the task records the generation it switches under
      obtain ⟨h₂, ht₂⟩ := h.takeGeneration ht target g
      exact h₂.dispatchCarry ht₂ rfl
  | refreshStatus timeout =>
    simp only [Session.start, after_bind]
    exact h.dispatchCarry ht rfl
  | dispatch success failure command params timeout =>
    simp only [Session.start, after_bind]
    exact h.dispatchCarry ht rfl

/-! ## Polling and aborting -/

theorem WaitsSound.poll (h : WaitsSound none s) (i : Nat) :
    WaitsSound none (after (Session.poll i) s) := by
  simp only [Session.poll, after_bind, after_task?, answer_task?]
  cases ht : s.tasks[i]? with
  | none => exact h
  | some t =>
    simp only
    cases hst : t.stage with
    | ready => exact h.start ht hst
    | sending w => exact h
    | awaiting w d => exact h.resume ht (by rw [hst]; rfl) t d
    | finished => exact h

/-- A wait that does not exist is not open. -/
theorem WaitsSound.not_open_of_none {w : Nat} (h : WaitsSound c s) (hx : s.waits[w]? = none) :
    ¬ s.Open w := by
  rintro ⟨p, hp, hpw⟩
  obtain ⟨x, hx', -⟩ := h.wait_entry hp hpw
  rw [hx] at hx'
  cases hx'

/-- Aborting a task: the wait its stage shows is taken out, a switch still current is
abandoned, and the task is finished. -/
theorem WaitsSound.abort (h : WaitsSound none s) (i : Nat) :
    WaitsSound none (after (Session.abort i) s) := by
  simp only [Session.abort, after_bind, after_task?, answer_task?]
  cases ht : s.tasks[i]? with
  | none => exact h
  | some t =>
    simp only
    -- once the stage's wait is closed, the task holds no open wait and can be finished
    have hfin : ∀ s₁, WaitsSound none s₁ → s₁.tasks = s.tasks →
        (∀ w, t.stage.wait? = some w → ¬ s₁.Open w) →
        WaitsSound none (after (Session.setStage i .finished) s₁) := fun s₁ h₁ ht₁ hc =>
      h₁.setStage _ (fun _ _ hc => by cases hc) (fun w x hx hown ho =>
        absurd ho (h₁.quiet (ht₁ ▸ ht) hc (fun _ hc => by cases hc) w x hx hown))
        fun _ hw => by cases hw
    -- abandoning the switch closes waits only
    have habandon : ∀ s₁, WaitsSound none s₁ → s₁.tasks = s.tasks →
        (∀ w, t.stage.wait? = some w → ¬ s₁.Open w) →
        WaitsSound none (after (Session.setStage i .finished)
          (after (Session.abandonSwitch t.generation) s₁)) := fun s₁ h₁ ht₁ hc =>
      hfin _ (h₁.abandonSwitch _) (by rw [tasks_abandonSwitch, ht₁])
        fun w hw ho => hc w hw ((closesOnly_abandonSwitch _).open ho)
    cases hst : t.stage with
    | ready => exact h
    | finished => exact h
    | sending w | awaiting w _ =>
      have hw : ∀ w', t.stage.wait? = some w' → w' = w := fun w' hw' => by
        rw [hst] at hw'
        exact (Option.some.inj hw').symm
      simp only [after_bind, after_wait?, answer_wait?]
      cases hx : s.waits[w]? with
      | some x =>
        have h₁ := h.forceRelease x.key
        have hc₁ : ∀ w', t.stage.wait? = some w' →
            ¬ (after (Session.forceRelease x.key) s).Open w' :=
          fun w' hw' => hw w' hw' ▸ h.not_open_forceRelease hx
        simp only [after_bind, after_discard]
        split
        · simp only [after_bind, after_pure]
          exact habandon _ h₁ (tasks_forceRelease _) hc₁
        · simp only [after_bind, after_pure]
          exact hfin _ h₁ (tasks_forceRelease _) hc₁
      | none =>
        have hc₀ : ∀ w', t.stage.wait? = some w' → ¬ s.Open w' :=
          fun w' hw' => hw w' hw' ▸ h.not_open_of_none hx
        simp only
        split
        · simp only [after_bind, after_pure]
          exact habandon _ h rfl hc₀
        · simp only [after_bind, after_pure]
          exact hfin _ h rfl hc₀

/-! ## The end of a send -/

/-- What the end of task `i`'s send does: nothing unless the task is sending; otherwise the task
carries on from its send, refused with its wait's key taken out, or with its command handed over
and recorded. -/
theorem after_endSend (i : Nat) (ended : Option String) :
    after (endSend i ended) s = s ∨ ∃ t w, s.tasks[i]? = some t ∧ t.stage = .sending w ∧
      ((∃ m, ended = some m ∧ after (endSend i ended) s =
          after (carry i t (.refused (.dispatch t.job.command m)))
            (after (forceRelease (waitKeyOf t.job.command w)) s)) ∨
        ended = none ∧ after (endSend i ended) s =
          after (carry i t (.sent w)) { s with sent := s.sent ++ [⟨t.job.command, t.job.params⟩] }) := by
  simp only [Session.endSend, after_bind, after_task?, answer_task?]
  cases ht : s.tasks[i]? with
  | none => exact .inl rfl
  | some t =>
    simp only
    cases hst : t.stage with
    | sending w =>
      refine .inr ⟨t, w, rfl, hst, ?_⟩
      cases ended with
      | some m => exact .inl ⟨m, rfl, rfl⟩
      | none => exact .inr ⟨rfl, rfl⟩
    | ready | awaiting _ _ | finished => exact .inl rfl

/-- What the end of task `i`'s send does, task `i` being `t`. -/
theorem after_endSend_of (ht : s.tasks[i]? = some t) (ended : Option String) :
    after (endSend i ended) s = s ∨ ∃ w, t.stage = .sending w ∧
      ((∃ m, ended = some m ∧ after (endSend i ended) s =
          after (carry i t (.refused (.dispatch t.job.command m)))
            (after (forceRelease (waitKeyOf t.job.command w)) s)) ∨
        ended = none ∧ after (endSend i ended) s =
          after (carry i t (.sent w)) { s with sent := s.sent ++ [⟨t.job.command, t.job.params⟩] }) := by
  rcases after_endSend (s := s) i ended with he | ⟨t', w, ht', hst, hcases⟩
  · exact .inl he
  · obtain rfl := Option.some.inj (ht.symm.trans ht')
    exact .inr ⟨w, hst, hcases⟩

/-- The end of a send under way: the task carries on from it, refused once its wait's key is
out, or with its command handed over and recorded. -/
theorem WaitsSound.endSend (h : WaitsSound none s) (i : Nat) (ended : Option String) :
    WaitsSound none (after (Session.endSend i ended) s) := by
  rcases after_endSend (s := s) i ended with he | ⟨t, w, ht, hst, ⟨m, -, he⟩ | ⟨-, he⟩⟩ <;> rw [he]
  · exact h
  · exact (h.forceRelease _).carry (d := .refused (.dispatch t.job.command m))
      (by rw [tasks_forceRelease]; exact ht) (.shown (by rw [hst]; rfl)) (keyOut_forceRelease _)
  · have h' : WaitsSound none { s with sent := s.sent ++ [⟨t.job.command, t.job.params⟩] } :=
      h.of_eq rfl rfl rfl rfl
    exact h'.carry (d := .sent w) ht (.shown (by rw [hst]; rfl)) rfl

theorem WaitsSound.advance (h : WaitsSound c s) (ms : Nat) :
    WaitsSound c (after (Session.advance ms) s) := by
  simp only [Session.advance, after_bind, after_modify, answer_get, after_get]
  exact forM_keeps (fun _ _ t ht => ht.wake _) (h.of_eq rfl rfl rfl rfl)

end Session

end DaemonBridge
