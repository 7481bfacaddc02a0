import Mathlib
import DaemonBridge.Proofs.Session.LastRequest
import DaemonBridge.Proofs.Session.SharedKeys

/-!
# Keys of switch waits

A switch registers its wait under `command:service_choice:<id>` before it sends its command, and
the coordinator records that key (`track`) only once the send has returned. A newer transition
releases the recorded key and nothing else. So while a superseded switch is still stuck in its
send, its key is recorded nowhere and stays registered beside the newer switch's: the registry
then holds two `service_choice` keys (`two_switch_keys_after_stalled_send`).

What does hold in every reachable session (`switch_keys_tracked`): a `service_choice` key the
registry holds is the coordinator's recorded key, or the key of a task still stuck in its send, or
of a `service_choice` command dispatched directly. While no send is stuck and no such command is
dispatched directly, the registry holds at most one `service_choice` key.

The invariant behind it is `SwitchTracked`: a switch waiting on its result, with its wait still
in the registry, is the recorded switch. Its key is the coordinator's wait key, and its
generation is current. Every transition either keeps the entries that end waits and leaves the
record alone, or supersedes every switch (`KeepsTrack`); the only step that makes a switch wait is
the one that follows up its send handed over (`SwitchTracked.proceed`), inside its start or in the
move that ends a send left under way, right after the coordinator recorded its key. Once both
stuck sends end, the superseded switch takes its key out and one switch key is left
(`switch_keys_tracked_sends_ended`).
-/

namespace DaemonBridge

namespace Session

/-! ## The recorded switch -/

/-- Task `j` is a switch waiting on its result, and entry `p` of the registry ends its wait. -/
def AwaitsOpen (s : Session) (j : Nat) (t : Task) (p : String × Registry.Entry Release) : Prop :=
  s.tasks[j]? = some t ∧ t.job.target?.isSome ∧
    (∃ w d, t.stage = .awaiting w d ∧ p.2.token.wait? = some w) ∧ p ∈ s.registry.entries

/-- A switch waiting on its result with its wait in the registry is the recorded one: the wait's
key is the coordinator's wait key, and the switch's generation is current. -/
def SwitchTracked (s : Session) : Prop :=
  ∀ j t p, s.AwaitsOpen j t p → s.waitKey = some p.1 ∧ t.generation = s.generation

/-- No switch waits on its result with its wait in the registry. -/
def SwitchesIdle (s : Session) : Prop := ∀ j t p, ¬ s.AwaitsOpen j t p

/-- No switch but task `i` waits on its result with its wait in the registry. -/
def AwaitsOnly (i : Nat) (s : Session) : Prop := ∀ j t p, s.AwaitsOpen j t p → j = i

/-- No task waits on wait `w`. -/
def Unawaited (s : Session) (w : Nat) : Prop :=
  ∀ (j : Nat) (t : Task) (d : Option (Nat × Nat)), s.tasks[j]? = some t → t.stage ≠ .awaiting w d

/-- From `s` to `s'` the tasks stay, and every entry of `s'` that ends a wait was an entry of `s`
under the same key, or ends a wait no task waits on. -/
def KeepsWaits (s s' : Session) : Prop :=
  s'.tasks = s.tasks ∧ ∀ p ∈ s'.registry.entries, ∀ w, p.2.token.wait? = some w →
    (∃ q ∈ s.registry.entries, q.1 = p.1 ∧ q.2.token.wait? = some w) ∨ s.Unawaited w

/-- A transition no switch comes to wait through: the entries that end waits are kept, and the
coordinator's record and generation stay, or no switch is left waiting at all. -/
def KeepsTrack (s s' : Session) : Prop :=
  KeepsWaits s s' ∧ (s'.waitKey = s.waitKey ∧ s'.generation = s.generation ∨ SwitchesIdle s')

variable {s s' s'' : Session} {i j : Nat} {t : Task} {p : String × Registry.Entry Release}

theorem SwitchTracked.of_idle (h : SwitchesIdle s) : SwitchTracked s :=
  fun j t p ha => absurd ha (h j t p)

/-- When task `i` holds no open wait of its own, being the only switch waiting means none is. -/
theorem AwaitsOnly.idle (h : AwaitsOnly i s) (hi : ∀ t p, ¬ s.AwaitsOpen i t p) : SwitchesIdle s :=
  fun j t p ha => hi t p (h j t p ha ▸ ha)

/-- Once the wait task `i`'s stage shows is closed, task `i` is no switch waiting on an open
wait. -/
theorem not_awaitsOpen_of_closed (ht : s.tasks[i]? = some t) {w : Nat} (hw : t.stage.wait? = some w)
    (hc : ¬ s.Open w) (t' : Task) (p : String × Registry.Entry Release) : ¬ s.AwaitsOpen i t' p := by
  rintro ⟨ht', -, ⟨w', d, hst, hpw⟩, hp⟩
  rw [ht] at ht'
  cases ht'
  simp only [hst, Stage.wait?, Option.some.injEq] at hw
  subst hw
  exact hc ⟨p, hp, hpw⟩

/-! ## Transitions that keep the waits' entries -/

theorem KeepsWaits.refl (s : Session) : KeepsWaits s s :=
  ⟨rfl, fun p hp _ hw => .inl ⟨p, hp, rfl, hw⟩⟩

theorem KeepsWaits.trans (h₁ : KeepsWaits s s') (h₂ : KeepsWaits s' s'') : KeepsWaits s s'' := by
  refine ⟨h₂.1.trans h₁.1, fun p hp w hw => ?_⟩
  rcases h₂.2 p hp w hw with ⟨q, hq, hk, hqw⟩ | hun
  · rcases h₁.2 q hq w hqw with ⟨r, hr, hk', hrw⟩ | hun
    · exact .inl ⟨r, hr, hk'.trans hk, hrw⟩
    · exact .inr hun
  · exact .inr fun j t d ht => hun j t d (by rw [h₁.1]; exact ht)

theorem KeepsWaits.of_eq (ht : s'.tasks = s.tasks) (hr : s'.registry = s.registry) :
    KeepsWaits s s' :=
  ⟨ht, fun p hp _ hw => .inl ⟨p, hr ▸ hp, rfl, hw⟩⟩

/-- A switch waiting on an open wait after such a transition was waiting on it before, under the
same key. -/
theorem AwaitsOpen.back (ha : s'.AwaitsOpen j t p) (hk : KeepsWaits s s') :
    ∃ q, s.AwaitsOpen j t q ∧ q.1 = p.1 := by
  obtain ⟨ht, hsw, ⟨w, d, hst, hpw⟩, hp⟩ := ha
  have ht₀ : s.tasks[j]? = some t := by rw [← hk.1]; exact ht
  rcases hk.2 p hp w hpw with ⟨q, hq, hkey, hqw⟩ | hun
  · exact ⟨q, ⟨ht₀, hsw, ⟨w, d, hst, hqw⟩, hq⟩, hkey⟩
  · exact absurd hst (hun j t d ht₀)

theorem SwitchTracked.keep (h : SwitchTracked s) (hk : KeepsWaits s s')
    (hw : s'.waitKey = s.waitKey) (hg : s'.generation = s.generation) : SwitchTracked s' := by
  intro j t p ha
  obtain ⟨q, hq, hkey⟩ := ha.back hk
  obtain ⟨hw₀, hg₀⟩ := h j t q hq
  exact ⟨by rw [hw, hw₀, hkey], by rw [hg, hg₀]⟩

theorem SwitchesIdle.keep (h : SwitchesIdle s) (hk : KeepsWaits s s') : SwitchesIdle s' := by
  intro j t p ha
  obtain ⟨q, hq, -⟩ := ha.back hk
  exact h j t q hq

theorem AwaitsOnly.keep (h : AwaitsOnly i s) (hk : KeepsWaits s s') : AwaitsOnly i s' := by
  intro j t p ha
  obtain ⟨q, hq, -⟩ := ha.back hk
  exact h j t q hq

theorem KeepsTrack.refl (s : Session) : KeepsTrack s s := ⟨.refl s, .inl ⟨rfl, rfl⟩⟩

theorem KeepsTrack.trans (h₁ : KeepsTrack s s') (h₂ : KeepsTrack s' s'') : KeepsTrack s s'' := by
  refine ⟨h₁.1.trans h₂.1, ?_⟩
  rcases h₂.2 with ⟨hw₂, hg₂⟩ | hidle₂
  · rcases h₁.2 with ⟨hw₁, hg₁⟩ | hidle₁
    · exact .inl ⟨hw₂.trans hw₁, hg₂.trans hg₁⟩
    · exact .inr (hidle₁.keep h₂.1)
  · exact .inr hidle₂

theorem KeepsTrack.of_coordinator (hk : KeepsWaits s s') (hc : s'.coordinator = s.coordinator) :
    KeepsTrack s s' :=
  ⟨hk, .inl ⟨congrArg Coordinator.waitKey hc, congrArg Coordinator.generation hc⟩⟩

theorem SwitchTracked.follow (h : SwitchTracked s) (hk : KeepsTrack s s') : SwitchTracked s' := by
  rcases hk.2 with ⟨hw, hg⟩ | hidle
  · exact h.keep hk.1 hw hg
  · exact .of_idle hidle

/-! ## Releases and registrations -/

theorem keepsWaits_runRelease (r : Release) : KeepsWaits s (after (runRelease r) s) := by
  obtain ⟨bus, waits, queue, he⟩ := after_runRelease_eq (s := s) r
  rw [he]
  exact .of_eq rfl rfl

theorem keepsWaits_foldl_runRelease (rs : List Release) (t : Session) :
    KeepsWaits t (rs.foldl (fun u r => after (runRelease r) u) t) := by
  induction rs generalizing t with
  | nil => exact .refl t
  | cons r rest ih => exact (keepsWaits_runRelease r).trans (ih _)

/-- Taking a key out keeps every other entry. -/
theorem keepsWaits_erase (key : String) : KeepsWaits s { s with registry := s.registry.erase key } :=
  ⟨rfl, fun p hp _ hw => .inl ⟨p, (Registry.mem_erase.mp hp).1, rfl, hw⟩⟩

/-- Dropping a holder changes no key and no release. -/
theorem keepsWaits_leave (key : String) : KeepsWaits s { s with registry := s.registry.leave key } := by
  refine ⟨rfl, fun ⟨k, e⟩ hp w hw => ?_⟩
  obtain ⟨e₀, he₀, rfl⟩ := Registry.mem_leave.mp hp
  refine .inl ⟨(k, e₀), he₀, rfl, ?_⟩
  by_cases hk : k = key <;> simpa [hk] using hw

theorem keepsWaits_join (key : String) : KeepsWaits s { s with registry := s.registry.join key } := by
  refine ⟨rfl, fun ⟨k, e⟩ hp w hw => ?_⟩
  obtain ⟨e₀, he₀, rfl⟩ := Registry.mem_join.mp hp
  refine .inl ⟨(k, e₀), he₀, rfl, ?_⟩
  by_cases hk : k = key <;> simpa [hk] using hw

theorem keepsWaits_forceRelease (key : String) : KeepsWaits s (after (forceRelease key) s) := by
  cases hf : s.registry.find? key with
  | none =>
    rw [after_forceRelease_none hf]
    exact .refl s
  | some e =>
    rw [after_forceRelease_some hf]
    exact (keepsWaits_erase key).trans (keepsWaits_runRelease _)

theorem keepsWaits_releaseStale (k : Option String) : KeepsWaits s (after (releaseStale k) s) := by
  cases k with
  | none => exact .refl s
  | some k => exact keepsWaits_forceRelease k

theorem keepsWaits_releaseKey (key : String) : KeepsWaits s (after (releaseKey key) s) := by
  cases hf : s.registry.find? key with
  | none =>
    rw [after_releaseKey_none hf]
    exact .of_eq rfl rfl
  | some e =>
    by_cases hn : 1 < e.holders
    · rw [after_releaseKey_held hf hn]
      exact keepsWaits_leave key
    · rw [after_releaseKey_last hf hn]
      exact (keepsWaits_erase key).trans (keepsWaits_runRelease _)

theorem keepsWaits_releaseAll : KeepsWaits s (after releaseAll s) := by
  rw [after_releaseAll]
  -- the registry is emptied first, so no entry is left to end a wait
  have hempty : KeepsWaits s { s with registry := s.registry.releaseAll.2 } :=
    ⟨rfl, fun p hp => by simp [Registry.releaseAll, Registry.empty] at hp⟩
  exact hempty.trans (keepsWaits_foldl_runRelease _ _)

/-- Registering a release under a key: if its entry is stored, it ends no wait a task waits on. -/
theorem keepsWaits_addOnce (key : String) (r : Release) (hr : ∀ w, r.wait? = some w → s.Unawaited w) :
    KeepsWaits s (after (addOnce key r) s) := by
  rw [after_addOnce]
  refine KeepsWaits.trans ?_ (keepsWaits_foldl_runRelease _ _)
  cases hf : s.registry.find? key with
  | some e => simpa [Registry.addOnce, hf] using KeepsWaits.refl s
  | none =>
    refine ⟨rfl, fun p hp w hw => ?_⟩
    simp only [Registry.addOnce, hf, List.mem_append, List.mem_singleton] at hp
    rcases hp with hp | rfl
    · exact .inl ⟨p, hp, rfl, hw⟩
    · exact .inr (hr w hw)

theorem keepsWaits_addShared (key : String) (r : Release)
    (hr : ∀ w, r.wait? = some w → s.Unawaited w) : KeepsWaits s (after (addShared key r) s) := by
  rw [after_addShared]
  refine KeepsWaits.trans ?_ (keepsWaits_foldl_runRelease _ _)
  cases hf : s.registry.find? key with
  | some e => simpa [Registry.addShared, hf] using keepsWaits_join (s := s) key
  | none =>
    refine ⟨rfl, fun p hp w hw => ?_⟩
    simp only [Registry.addShared, hf, List.mem_append, List.mem_singleton] at hp
    rcases hp with hp | rfl
    · exact .inl ⟨p, hp, rfl, hw⟩
    · exact .inr (hr w hw)

theorem keepsTrack_forceRelease (key : String) : KeepsTrack s (after (forceRelease key) s) :=
  .of_coordinator (keepsWaits_forceRelease key) (coordinator_forceRelease key)

theorem keepsTrack_releaseKey (key : String) : KeepsTrack s (after (releaseKey key) s) :=
  .of_coordinator (keepsWaits_releaseKey key) (coordinator_releaseKey key)

theorem keepsTrack_subscribe (name : String) (handler : Handler) :
    KeepsTrack s (after (subscribe name handler) s) :=
  .of_coordinator (.of_eq rfl rfl) rfl

/-- A subscription's release, registered under a key, ends no wait. -/
theorem keepsTrack_addOnce (key name : String) (id : Nat) :
    KeepsTrack s (after (addOnce key (.unsubscribe name id)) s) :=
  .of_coordinator (keepsWaits_addOnce key _ fun _ hw => by cases hw) (coordinator_addOnce key _)

theorem keepsTrack_addShared (key name : String) (id : Nat) :
    KeepsTrack s (after (addShared key (.unsubscribe name id)) s) :=
  .of_coordinator (keepsWaits_addShared key _ fun _ hw => by cases hw) (coordinator_addShared key _)

theorem keepsTrack_wake (j : Nat) : KeepsTrack s (after (wake j) s) := by
  obtain ⟨q, he⟩ := after_wake_eq (s := s) j
  rw [he]
  exact .of_coordinator (.of_eq rfl rfl) rfl

/-! ## The coordinator -/

theorem keepsWaits_superseded (m : ModeState) : KeepsWaits s (s.superseded m) := .of_eq rfl rfl

/-- A newer transition takes the recorded key out, and with it the wait of the only switch that
could be waiting: none is left waiting on an open wait. -/
theorem SwitchTracked.supersede (h : SwitchTracked s) (m : ModeState) :
    SwitchesIdle (after (releaseStale s.waitKey) (s.superseded m)) := by
  intro j t p ha
  obtain ⟨q, hq, hkey⟩ := ha.back ((keepsWaits_superseded m).trans (keepsWaits_releaseStale _))
  obtain ⟨hw, -⟩ := h j t q hq
  obtain ⟨-, -, -, hp⟩ := ha
  obtain ⟨bus, waits, queue, he⟩ := after_forceRelease_eq (s := s.superseded m) q.1
  rw [hw, after_releaseStale_some, he] at hp
  exact (Registry.mem_erase.mp hp).2 hkey.symm

theorem keepsTrack_supersede (h : SwitchTracked s) (m : ModeState) :
    KeepsTrack s (after (releaseStale s.waitKey) (s.superseded m)) :=
  ⟨(keepsWaits_superseded m).trans (keepsWaits_releaseStale _), .inr (h.supersede m)⟩

/-- A switch that begins leaves no switch waiting. -/
theorem SwitchTracked.beginSwitch (h : SwitchTracked s) {target : ServiceMode} {g : Nat}
    (hb : answer (beginSwitch target) s = some g) : SwitchesIdle (after (beginSwitch target) s) := by
  by_cases hs : s.mode.stable = some target
  · simp [answer_beginSwitch, hs] at hb
  · rw [after_beginSwitch, if_neg hs]
    exact h.supersede _

theorem keepsTrack_beginSwitch (h : SwitchTracked s) (target : ServiceMode) :
    KeepsTrack s (after (beginSwitch target) s) := by
  rw [after_beginSwitch]
  split
  · exact .refl s
  · exact keepsTrack_supersede h _

theorem keepsTrack_observe (h : SwitchTracked s) (m : ServiceMode) :
    KeepsTrack s (after (observe m) s) := by
  obtain ⟨previous, he⟩ := after_observe (s := s) m
  rw [he]
  exact keepsTrack_supersede h _

theorem keepsTrack_applySnapshot (h : SwitchTracked s) (snap : StatusSnapshot) :
    KeepsTrack s (after (applySnapshot snap) s) := by
  rw [after_applySnapshot]
  cases snap.activeMode with
  | none => exact .refl s
  | some m => exact keepsTrack_observe h m

theorem keepsTrack_takeStatus (h : SwitchTracked s) (e : Envelope) :
    KeepsTrack s (after (takeStatus e) s) := by
  simp only [takeStatus]
  split
  · split
    · simp only [after_bind, after_discard, after_pure]
      exact keepsTrack_applySnapshot h _
    · exact .refl s
  · simp only [after_bind, after_discard, after_pure]
    exact keepsTrack_applySnapshot h _

theorem keepsTrack_cancelSwitch (h : SwitchTracked s) : KeepsTrack s (after cancelSwitch s) := by
  by_cases hs : ∃ target, s.mode.active = .pending (some target)
  · obtain ⟨target, ht⟩ := hs
    rw [after_cancelSwitch_switching ht]
    exact keepsTrack_supersede h _
  · rw [after_cancelSwitch_other (fun target ht => hs ⟨target, ht⟩)]
    exact .refl s

theorem keepsTrack_abandonSwitch (h : SwitchTracked s) (g : Nat) :
    KeepsTrack s (after (abandonSwitch g) s) := by
  rw [after_abandonSwitch]
  split
  · exact keepsTrack_supersede h _
  · exact .refl s

/-- A commit under generation `g` clears the record; it is safe once no switch waits while `g` is
current. -/
theorem keepsTrack_commit {g : Nat} (hidle : s.generation = g → SwitchesIdle s)
    (target : ServiceMode) : KeepsTrack s (after (commit g target) s) := by
  rw [after_commit]
  split
  · next hg => exact ⟨.of_eq rfl rfl, .inr ((hidle hg).keep (.of_eq rfl rfl))⟩
  · exact .refl s

theorem keepsTrack_failSwitch {g : Nat} (hidle : s.generation = g → SwitchesIdle s)
    (target : ServiceMode) (e : CommandError) : KeepsTrack s (after (failSwitch g target e) s) := by
  rw [after_failSwitch]
  split
  · next hg => exact ⟨.of_eq rfl rfl, .inr ((hidle hg).keep (.of_eq rfl rfl))⟩
  · exact .refl s

/-! ## Delivering and publishing -/

theorem keepsTrack_deliver (w : Nat) (reply : Reply) : KeepsTrack s (after (deliver w reply) s) := by
  refine .of_coordinator ?_ (coordinator_deliver w reply)
  cases hx : s.waits[w]? with
  | none =>
    have hs : after (Session.deliver w reply) s = s := by simp [Session.deliver, hx]
    rw [hs]
    exact .refl s
  | some x =>
    by_cases hslot : x.slot = .empty
    · simp only [Session.deliver, after_bind, after_wait?, answer_wait?, hx, hslot, after_setSlot,
        after_discard, beq_self_eq_true, if_true]
      refine KeepsWaits.trans ?_ (keepsWaits_releaseKey _)
      refine KeepsWaits.trans ?_ (keepsTrack_wake _).1
      exact .of_eq rfl rfl
    · have hs : after (Session.deliver w reply) s = s := by simp [Session.deliver, hx, hslot]
      rw [hs]
      exact .refl s

/-- Every handler keeps the record or supersedes every switch. -/
theorem keepsTrack_handle (h : SwitchTracked s) (e : Envelope) (handler : Handler) :
    KeepsTrack s (after (handle e handler) s) := by
  cases handler with
  | waitSuccess w command target =>
    simp only [handle, after_ite]
    split
    · exact keepsTrack_deliver w _
    · exact .refl s
  | waitError w command =>
    simp only [handle, after_ite]
    split
    · exact keepsTrack_deliver w _
    · exact .refl s
  | errorWatch command label =>
    simp only [handle, after_ite]
    split
    · exact .of_coordinator (.of_eq rfl rfl) rfl
    · exact .refl s
  | listener label => exact .of_coordinator (.of_eq rfl rfl) rfl
  | serviceStarted =>
    simp only [handle]
    split
    · split
      · exact keepsTrack_observe h _
      · exact .refl s
    · exact .refl s
  | rosterFeed online =>
    simp only [handle, feedRoster, after_bind, answer_get, after_get]
    split <;> exact .of_coordinator (.of_eq rfl rfl) rfl

theorem keepsTrack_publish (h : SwitchTracked s) (e : Envelope) :
    KeepsTrack s (after (publish e) s) := by
  simp only [publish, after_bind, answer_get, after_get, after_pure]
  exact forM_keeps (fun p _ u hu => hu.trans (keepsTrack_handle (h.follow hu) e p.2)) (.refl s)

theorem keepsTrack_send (h : SwitchTracked s) (command : CommandKind) (params : Option Json.Value) :
    KeepsTrack s (after (send command params) s) := by
  by_cases hr : s.refusing = true
  · simpa [send, hr] using KeepsTrack.refl s
  · by_cases hs : s.stalling = true
    · simpa [send, hr, hs] using KeepsTrack.refl s
    · -- the command goes out, and the daemon's next batch of answers is published
      simp only [send, hr, hs, after_bind, answer_get, after_get]
      exact forM_keeps (fun e _ u hu => by
          rw [after_discard]
          exact hu.trans (keepsTrack_publish (h.follow hu) e))
        (.of_coordinator (.of_eq rfl rfl) rfl)

/-! ## Opening a wait and dispatching -/

/-- The next wait is one no task waits on: every wait a stage shows is open already. -/
theorem WaitsSound.unawaited {c : Option (Nat × Nat)} (h : WaitsSound c s) :
    s.Unawaited s.waits.length := by
  intro j t d ht hst
  obtain ⟨x, hx, -⟩ := h.stage_wait j t _ ht (by rw [hst]; rfl)
  simp at hx

/-- Opening a wait adds the entry that ends it, and no task waits on it yet. -/
theorem keepsWaits_openWait {c : Option (Nat × Nat)} (h : WaitsSound c s) (i : Nat)
    (success failure : EventKind) (command : CommandKind) (target : Option ServiceMode) :
    KeepsWaits s (after (openWait i success failure command target) s) := by
  have hun := h.unawaited
  by_cases hfs : failure = success
  · simp only [Session.openWait, after_bind, answer_get, after_get, after_modify, hfs,
      beq_self_eq_true, if_true, after_pure, answer_pure, after_discard]
    refine KeepsWaits.trans ?_ (keepsWaits_addOnce _ _ fun w hw => ?_)
    · exact .of_eq rfl rfl
    · obtain rfl : s.waits.length = w := Option.some.inj hw
      exact hun
  · simp only [Session.openWait, after_bind, answer_get, after_get, after_modify, hfs,
      beq_iff_eq, if_false, after_pure, answer_pure, after_discard]
    refine KeepsWaits.trans ?_ (keepsWaits_addOnce _ _ fun w hw => ?_)
    · exact .of_eq rfl rfl
    · obtain rfl : s.waits.length = w := Option.some.inj hw
      exact hun

theorem keepsTrack_sendEnded (command : CommandKind) (w : Nat) (r : Sending) :
    KeepsTrack s (after (sendEnded command w r) s) := by
  rcases after_sendEnded (s := s) command w r with he | he <;> rw [he]
  · exact .refl s
  · exact keepsTrack_forceRelease _

theorem keepsTrack_dispatchFor {c : Option (Nat × Nat)} (h : SwitchTracked s) (hw : WaitsSound c s)
    (i : Nat) (success failure : EventKind) (command : CommandKind) (params : Option Json.Value)
    (target : Option ServiceMode) :
    KeepsTrack s (after (dispatchFor i success failure command params target) s) := by
  have h₁ : KeepsTrack s (after (openWait i success failure command target) s) :=
    .of_coordinator (keepsWaits_openWait hw _ _ _ _ _) (coordinator_openWait _ _ _ _ _)
  simp only [Session.dispatchFor, after_bind]
  exact (h₁.trans (keepsTrack_send (h.follow h₁) command params)).trans (keepsTrack_sendEnded _ _ _)

theorem keepsTrack_dispatchJob {c : Option (Nat × Nat)} (h : SwitchTracked s) (hw : WaitsSound c s)
    (i : Nat) (j : Job) : KeepsTrack s (after (dispatchJob i j) s) :=
  keepsTrack_dispatchFor h hw i j.success j.failure j.command j.params j.target?

/-! ## Changing tasks -/

/-- A switch waiting on an open wait after task `i` changed is task `i` as changed, or a task that
was waiting so before. -/
theorem AwaitsOpen.modifyTask {f : Task → Task}
    (ha : AwaitsOpen { s with tasks := s.tasks.modify i f } j t p) :
    (∃ t₀, j = i ∧ s.tasks[i]? = some t₀ ∧ t = f t₀) ∨ s.AwaitsOpen j t p := by
  obtain ⟨ht, hsw, hst, hp⟩ := ha
  by_cases hij : i = j
  · subst hij
    rw [List.getElem?_modify_eq] at ht
    obtain ⟨t₀, ht₀, rfl⟩ := Option.map_eq_some_iff.mp ht
    exact .inl ⟨t₀, rfl, ht₀, rfl⟩
  · rw [List.getElem?_modify_ne _ _ hij] at ht
    exact .inr ⟨ht, hsw, hst, hp⟩

/-- A stage that is no wait on a result keeps the record. -/
theorem SwitchTracked.setStage (h : SwitchTracked s) {st : Stage} (hst : ∀ w d, st ≠ .awaiting w d) :
    SwitchTracked (after (Session.setStage i st) s) := by
  rw [after_setStage]
  intro j t p ha
  rcases ha.modifyTask with ⟨t₀, -, -, rfl⟩ | ha₀
  · obtain ⟨-, -, ⟨w, d, hs, -⟩, -⟩ := ha
    exact absurd hs (hst w d)
  · exact h j t p ha₀

theorem SwitchTracked.finish (h : SwitchTracked s) (o : Outcome) :
    SwitchTracked (after (Session.finish i o) s) := by
  rw [after_finish]
  exact (h.setStage fun _ _ hs => by cases hs).follow (.of_coordinator (.of_eq rfl rfl) rfl)

/-- A change of task `i` that keeps its job and its stage makes no switch wait. -/
theorem SwitchesIdle.modifyTask (h : SwitchesIdle s) (f : Task → Task)
    (hf : ∀ t, (f t).job = t.job ∧ (f t).stage = t.stage) :
    SwitchesIdle { s with tasks := s.tasks.modify i f } := by
  intro j t p ha
  rcases ha.modifyTask with ⟨t₀, rfl, ht₀, rfl⟩ | ha₀
  · obtain ⟨-, hsw, ⟨w, d, hs, hpw⟩, hp⟩ := ha
    rw [(hf t₀).1] at hsw
    rw [(hf t₀).2] at hs
    exact h j t₀ p ⟨ht₀, hsw, ⟨w, d, hs, hpw⟩, hp⟩
  · exact h j t p ha₀

/-- A switch comes to wait on its result. If it is a switch, the record is its own: no other
switch waits, its generation is current and the coordinator's key is its wait's. Then it is the
recorded switch, and the only one waiting. -/
theorem SwitchTracked.awaiting (h : SwitchTracked s) (ht : s.tasks[i]? = some t) {w : Nat}
    (hsw : t.job.target?.isSome → SwitchesIdle s ∧ t.generation = s.generation ∧
      ∀ p ∈ s.registry.entries, p.2.token.wait? = some w → s.waitKey = some p.1)
    (d : Option (Nat × Nat)) :
    SwitchTracked (after (Session.setStage i (.awaiting w d)) s) ∧
      (t.job.target?.isSome → AwaitsOnly i (after (Session.setStage i (.awaiting w d)) s)) := by
  rw [after_setStage]
  constructor
  · intro j t' p ha
    rcases ha.modifyTask with ⟨t₀, rfl, ht₀, rfl⟩ | ha₀
    · rw [ht] at ht₀
      cases ht₀
      obtain ⟨-, hs, ⟨w', d', hst, hpw⟩, hp⟩ := ha
      obtain ⟨-, hg, hkey⟩ := hsw hs
      cases hst
      exact ⟨hkey p hp hpw, hg⟩
    · exact h j t' p ha₀
  · intro hs j t' p ha
    rcases ha.modifyTask with ⟨t₀, rfl, -, -⟩ | ha₀
    · rfl
    · exact absurd ha₀ ((hsw hs).1 j t' p)

theorem SwitchTracked.spawn (h : SwitchTracked s) (job : Job) :
    SwitchTracked (after (Session.spawn job) s) := by
  rw [after_spawn]
  refine SwitchTracked.follow ?_ (keepsTrack_wake _)
  rintro j t p ⟨ht, hsw, ⟨w, d, hst, hpw⟩, hp⟩
  by_cases hlt : j < s.tasks.length
  · rw [List.getElem?_append_left hlt] at ht
    exact h j t p ⟨ht, hsw, ⟨w, d, hst, hpw⟩, hp⟩
  · -- the new task is ready, on no wait
    rw [List.getElem?_append_right (by omega)] at ht
    obtain rfl := List.mem_singleton.mp (List.mem_of_getElem? ht)
    cases hst

/-! ## Concluding, resuming and waiting -/

/-- A task concludes: a switch's commit or failure under a current generation finds no switch
waiting. -/
theorem SwitchTracked.conclude (h : SwitchTracked s)
    (hidle : t.job.target?.isSome → s.generation = t.generation → SwitchesIdle s) (reply : Reply) :
    SwitchTracked (after (Session.conclude i t reply) s) := by
  cases hj : t.job with
  | switchMode target timeout =>
    have hidle' : s.generation = t.generation → SwitchesIdle s := hidle (by simp [hj, Job.target?])
    cases reply with
    | answer e =>
      simp only [Session.conclude, hj, after_bind, after_ite]
      split <;> exact (h.follow (keepsTrack_commit hidle' target)).finish _
    | failure e =>
      simp only [Session.conclude, hj, after_bind]
      exact (h.follow (keepsTrack_failSwitch hidle' target e)).finish _
  | refreshStatus timeout =>
    cases reply with
    | answer e =>
      simp only [Session.conclude, hj, after_bind]
      exact (h.follow (keepsTrack_takeStatus h e)).finish _
    | failure e =>
      simp only [Session.conclude, hj]
      exact h.finish _
  | dispatch success failure command params timeout =>
    cases reply <;> simp only [Session.conclude, hj] <;> exact h.finish _

/-- A task waiting on wait `w` resumes. It concludes only once `w` is closed; a switch under the
current generation is then the only one that could wait, and it does not. -/
theorem SwitchTracked.resume (h : SwitchTracked s) (hw : WaitsSound none s) (ht : s.tasks[i]? = some t)
    {w : Nat} (hst : t.stage.wait? = some w)
    (hsole : t.job.target?.isSome → s.generation = t.generation → AwaitsOnly i s)
    (deadline : Option (Nat × Nat)) : SwitchTracked (after (Session.resume i t w deadline) s) := by
  have hconc : ∀ s', SwitchTracked s' → KeepsWaits s s' → s'.generation = s.generation →
      ¬ s'.Open w → ∀ reply, SwitchTracked (after (Session.conclude i t reply) s') :=
    fun s' h' hk hg hc reply => h'.conclude (fun hsw hg' =>
      ((hsole hsw (hg.symm.trans hg')).keep hk).idle
        (not_awaitsOpen_of_closed (by rw [hk.1]; exact ht) hst hc)) reply
  simp only [Session.resume, after_bind, after_wait?, answer_wait?]
  cases hx : s.waits[w]? with
  | none => exact h
  | some x =>
    simp only
    cases hslot : x.slot with
    | filled reply =>
      exact hconc s h (.refl s) rfl (hw.not_open_of_slot hx (by simp [hslot])) reply
    | dropped => exact hconc s h (.refl s) rfl (hw.not_open_of_slot hx (by simp [hslot])) _
    | empty =>
      cases deadline with
      | none => exact h
      | some d =>
        simp only [after_bind, answer_get, after_get]
        by_cases hd : d.1 ≤ s.clock
        · -- the deadline has passed: the wait's key is taken out and the task times out
          simp only [hd, ↓reduceIte, after_bind, after_discard]
          have hk := keepsTrack_forceRelease (s := s) x.key
          exact hconc _ (h.follow hk) hk.1
            (congrArg Coordinator.generation (coordinator_forceRelease x.key))
            (hw.not_open_forceRelease hx) _
        · simp only [hd, ↓reduceIte, after_pure]
          exact h

/-- A task waits on its slot, the wait its start opened or the one its stage shows, and resumes
at once. -/
theorem SwitchTracked.awaitSlot {c : Option (Nat × Nat)} (h : SwitchTracked s) {w : Nat}
    (hw : WaitsSound c s) (ht : s.tasks[i]? = some t) (ho : OnWait c i w t)
    (hsw : t.job.target?.isSome → SwitchesIdle s ∧ t.generation = s.generation ∧
      ∀ p ∈ s.registry.entries, p.2.token.wait? = some w → s.waitKey = some p.1)
    (timeout : Option Nat) : SwitchTracked (after (Session.awaitSlot i w timeout) s) := by
  simp only [Session.awaitSlot, after_bind, answer_get, after_get]
  generalize timeout.map (fun ms => (s.clock + ms, ms)) = d
  obtain ⟨h₁, honly⟩ := h.awaiting ht hsw d
  have ht₁ : (after (Session.setStage i (.awaiting w d)) s).tasks[i]? =
      some { t with stage := .awaiting w d } := by
    simp [ht]
  simp only [after_task?, answer_task?, ht₁]
  exact h₁.resume (hw.showWait ht ho _ rfl) ht₁ rfl (fun hs _ => honly hs) d

/-- Every entry that ends the wait a task is on sits under that wait's key. -/
theorem WaitsSound.entry_key {c : Option (Nat × Nat)} {w : Nat} (h : WaitsSound c s)
    (ht : s.tasks[i]? = some t) (ho : OnWait c i w t) (hp : p ∈ s.registry.entries)
    (hpw : p.2.token.wait? = some w) : p.1 = waitKeyOf t.job.command w := by
  obtain ⟨x, hx, hown⟩ := h.wait_of_onWait ht ho
  obtain ⟨t', ht', hc, -⟩ := h.wait_task w x hx
  rw [hown, ht] at ht'
  cases ht'
  obtain ⟨x', hx', hk, -⟩ := h.wait_entry hp hpw
  rw [hx] at hx'
  cases hx'
  rw [hk, h.wait_key w x hx, hc]

/-- A task carries on from a send handed over. A switch has the coordinator record its wait's
key and waits on its slot as the recorded switch, no other switch waiting under its generation;
superseded meanwhile, it takes the key out and finishes. -/
theorem SwitchTracked.proceed {c : Option (Nat × Nat)} {w : Nat} (h : SwitchTracked s)
    (hw : WaitsSound c s) (ht : s.tasks[i]? = some t) (ho : OnWait c i w t)
    (hidle : t.job.target?.isSome → s.generation = t.generation → SwitchesIdle s) :
    SwitchTracked (after (Session.proceed i t w) s) := by
  obtain ⟨job, gen, stage⟩ := t
  cases job with
  | switchMode target timeout =>
    simp only [Session.proceed, after_bind]
    cases htr : answer (Session.track gen (waitKeyOf .serviceChoice w)) s with
    | true =>
      have hgen : s.generation = gen := by simpa [answer_track] using htr
      have he : after (Session.track gen (waitKeyOf .serviceChoice w)) s =
          { s with waitKey := some (waitKeyOf .serviceChoice w) } := by
        rw [after_track, if_pos hgen]
      simp only [↓reduceIte]
      rw [he]
      have hidle₁ : SwitchesIdle { s with waitKey := some (waitKeyOf .serviceChoice w) } :=
        (hidle rfl hgen).keep (.of_eq rfl rfl)
      refine (SwitchTracked.of_idle hidle₁).awaitSlot (hw.of_eq rfl rfl rfl rfl) ht ho
        (fun _ => ⟨hidle₁, hgen.symm, fun p hp hpw => ?_⟩) timeout
      -- the entries that end the wait sit under its key, which the coordinator now records
      show some (waitKeyOf .serviceChoice w) = some p.1
      rw [hw.entry_key ht ho hp hpw]
      rfl
    | false =>
      have hkeep : after (Session.track gen (waitKeyOf .serviceChoice w)) s = s := by
        rw [after_track, if_neg (by simpa [answer_track] using htr)]
      simp only [Bool.false_eq_true, ↓reduceIte, after_bind, after_discard, hkeep]
      exact (h.follow (keepsTrack_forceRelease _)).finish _
  | refreshStatus timeout =>
    exact h.awaitSlot hw ht ho (fun hs => by simp [Job.target?] at hs) timeout
  | dispatch success failure command params timeout =>
    -- the command's wait key is noted for the task first
    simp only [Session.proceed, after_bind, after_modify]
    apply SwitchTracked.awaitSlot (t := ⟨.dispatch success failure command params timeout, gen, stage⟩)
    · exact h.keep (.of_eq rfl rfl) rfl rfl
    · exact hw.of_eq rfl rfl rfl rfl
    · exact ht
    · exact ho
    · intro hs
      simp [Job.target?] at hs

/-- A task carries on from its send: a refusal concludes it, a send under way leaves it sending,
and a command handed over is followed up. A switch current at that point finds no other switch
waiting. -/
theorem SwitchTracked.carry {c : Option (Nat × Nat)} {w : Nat} {d : Dispatched}
    (h : SwitchTracked s) (hw : WaitsSound c s) (ht : s.tasks[i]? = some t) (ho : OnWait c i w t)
    (hd : d.On t w s) (hidle : t.job.target?.isSome → s.generation = t.generation → SwitchesIdle s) :
    SwitchTracked (after (Session.carry i t d) s) := by
  cases d with
  | refused e => exact h.conclude hidle _
  | stalled w' => exact h.setStage fun _ _ hs => by cases hs
  | sent w' =>
    obtain rfl : w' = w := hd
    exact h.proceed hw ht ho hidle

/-- A task still sending is no switch waiting on its result. -/
theorem not_awaitsOpen_of_sending {w : Nat} (ht : s.tasks[i]? = some t) (hst : t.stage = .sending w)
    (t' : Task) (p : String × Registry.Entry Release) : ¬ s.AwaitsOpen i t' p := by
  rintro ⟨ht', -, ⟨w', d, hst', -⟩, -⟩
  rw [ht] at ht'
  cases ht'
  rw [hst] at hst'
  cases hst'

/-! ## Starting, polling and aborting -/

/-- Starting a ready task. A switch first supersedes every other, so none waits until its own
send returns and the coordinator records its key. -/
theorem SwitchTracked.start (h : SwitchTracked s) (hw : WaitsSound none s)
    (ht : s.tasks[i]? = some t) (hst : t.stage = .ready) : SwitchTracked (after (Session.start i t) s) := by
  obtain ⟨job, gen, stage⟩ := t
  simp only at hst
  subst hst
  cases job with
  | switchMode target timeout =>
    simp only [Session.start, after_bind]
    cases hb : answer (Session.beginSwitch target) s with
    | none =>
      simp only
      exact (h.follow (keepsTrack_beginSwitch h target)).finish _
    | some g =>
      simp only [after_bind, after_modify]
      -- the task records the generation it switches under, then dispatches its command
      obtain ⟨hw₂, ht₂⟩ := hw.takeGeneration ht target g
      have hidle₂ := (h.beginSwitch hb).modifyTask (i := i) (fun t => { t with generation := g })
        fun _ => ⟨rfl, rfl⟩
      obtain ⟨hw₃, htd, hon⟩ := hw₂.dispatchJob ht₂
      have hidle₃ := hidle₂.keep
        (keepsTrack_dispatchJob (.of_idle hidle₂) hw₂ i (.switchMode target timeout)).1
      exact (SwitchTracked.of_idle hidle₃).carry hw₃ (htd ▸ ht₂) (.starting rfl) hon
        fun _ _ => hidle₃
  | refreshStatus _ | dispatch _ _ _ _ _ =>
    simp only [Session.start, after_bind]
    obtain ⟨hw₁, htd, hon⟩ := hw.dispatchJob ht
    exact (h.follow (keepsTrack_dispatchJob h hw i _)).carry hw₁ (htd ▸ ht) (.starting rfl) hon
      fun hs => by simp [Job.target?] at hs

theorem Job.switchMode_of_target {job : Job} (h : job.target?.isSome) :
    ∃ target timeout, job = .switchMode target timeout := by
  cases job with
  | switchMode target timeout => exact ⟨target, timeout, rfl⟩
  | refreshStatus | dispatch => simp [Job.target?] at h

/-- Two switches in flight under one generation are one task: a switch in flight whose generation
is current is the only one that can wait on an open wait. -/
theorem SwitchTracked.awaitsOnly (h : SwitchTracked s) (hm : ModeSound Flying s)
    (ht : s.tasks[i]? = some t) (hfly : InFlight t) (hsw : t.job.target?.isSome)
    (hg : s.generation = t.generation) : AwaitsOnly i s := by
  intro j t' p ha
  obtain ⟨-, hg'⟩ := h j t' p ha
  obtain ⟨ht', hsw', ⟨w, d, hst, -⟩, -⟩ := ha
  obtain ⟨a, ta, hja⟩ := Job.switchMode_of_target hsw
  obtain ⟨b, tb, hjb⟩ := Job.switchMode_of_target hsw'
  have hfly' : InFlight t' := by simp [InFlight, hst, Stage.wait?]
  exact (hm.generation_unique i j t t' a b ht ht' ⟨⟨ta, hja⟩, hfly⟩ ⟨⟨tb, hjb⟩, hfly'⟩
    (hg.symm.trans hg'.symm)).symm

theorem SwitchTracked.poll (h : SwitchTracked s) (hw : WaitsSound none s)
    (hm : ModeSound Flying s) (i : Nat) : SwitchTracked (after (Session.poll i) s) := by
  simp only [Session.poll, after_bind, after_task?, answer_task?]
  cases ht : s.tasks[i]? with
  | none => exact h
  | some t =>
    simp only
    cases hst : t.stage with
    | ready => exact h.start hw ht hst
    | awaiting w d =>
      have hfly : InFlight t := by simp [InFlight, hst, Stage.wait?]
      exact h.resume hw ht (by rw [hst]; rfl) (h.awaitsOnly hm ht hfly) d
    | sending _ | finished => exact h

/-- The end of a send under way: the task carries on from it. A switch whose generation is
current is the only switch in flight under it, and it is not waiting, so no switch is. -/
theorem SwitchTracked.endSend (h : SwitchTracked s) (hw : WaitsSound none s)
    (hm : ModeSound Flying s) (i : Nat) (ended : Option String) :
    SwitchTracked (after (Session.endSend i ended) s) := by
  rcases after_endSend (s := s) i ended with he | ⟨t, w, ht, hst, ⟨m, -, he⟩ | ⟨-, he⟩⟩ <;> rw [he]
  · exact h
  all_goals
    have hfly : InFlight t := by simp [InFlight, hst, Stage.wait?]
    have hidle : t.job.target?.isSome → s.generation = t.generation → SwitchesIdle s :=
      fun hs hg => (h.awaitsOnly hm ht hfly hs hg).idle (not_awaitsOpen_of_sending ht hst)
  · -- refused: the wait's key is taken out first
    have hk := keepsTrack_forceRelease (s := s) (waitKeyOf t.job.command w)
    have hg : (after (forceRelease (waitKeyOf t.job.command w)) s).generation = s.generation :=
      congrArg Coordinator.generation (coordinator_forceRelease _)
    exact (h.follow hk).carry (hw.forceRelease _) (by rw [tasks_forceRelease]; exact ht)
      (.shown (by rw [hst]; rfl)) (keyOut_forceRelease _)
      fun hs hg' => (hidle hs (hg.symm.trans hg')).keep hk.1
  · -- handed over: the command is recorded as sent
    have h' : SwitchTracked { s with sent := s.sent ++ [⟨t.job.command, t.job.params⟩] } :=
      h.keep (.of_eq rfl rfl) rfl rfl
    have hw' : WaitsSound none { s with sent := s.sent ++ [⟨t.job.command, t.job.params⟩] } :=
      hw.of_eq rfl rfl rfl rfl
    exact h'.carry hw' ht (.shown (by rw [hst]; rfl)) rfl
      fun hs hg => (hidle hs hg).keep (.of_eq rfl rfl)

/-- Aborting a task: its wait's key is taken out, a switch still current abandoned, and the task
finished. -/
theorem SwitchTracked.abort (h : SwitchTracked s) (i : Nat) : SwitchTracked (after (Session.abort i) s) := by
  simp only [Session.abort, after_bind, after_task?, answer_task?]
  cases ht : s.tasks[i]? with
  | none => exact h
  | some t =>
    simp only
    cases hst : t.stage with
    | ready | finished => exact h
    | sending w | awaiting w _ =>
      have hfin : ∀ u, SwitchTracked u → SwitchTracked (after (Session.setStage i .finished) u) :=
        fun _ hu => hu.setStage fun _ _ hs => by cases hs
      have hab : ∀ u, SwitchTracked u →
          SwitchTracked (after (Session.abandonSwitch t.generation) u) :=
        fun _ hu => hu.follow (keepsTrack_abandonSwitch hu _)
      simp only [after_bind, after_wait?, answer_wait?]
      cases hx : s.waits[w]? with
      | some x =>
        simp only [after_bind, after_discard]
        have h₁ := h.follow (keepsTrack_forceRelease x.key)
        split
        · exact hfin _ (hab _ h₁)
        · exact hfin _ h₁
      | none =>
        simp only
        split
        · exact hfin _ (hab _ h)
        · exact hfin _ h

theorem keepsTrack_advance (ms : Nat) : KeepsTrack s (after (advance ms) s) := by
  simp only [Session.advance, after_bind, after_modify, answer_get, after_get]
  exact forM_keeps (fun _ _ u hu => hu.trans (keepsTrack_wake _)) (.of_coordinator (.of_eq rfl rfl) rfl)

/-! ## Every move keeps the record -/

/-- Every script step: only spawning, aborting and the coordinator's own steps touch what the
record reads; registrations store subscriptions' releases, which end no wait. -/
theorem SwitchTracked.run (h : SwitchTracked s) (a : Step) :
    SwitchTracked (after a.run s) := by
  cases a with
  | request | refresh | dispatch =>
    simp only [Step.run, after_bind, after_pure]
    exact h.spawn _
  | abort task =>
    simp only [Step.run, after_bind, after_pure]
    exact h.abort task
  | publish e =>
    simp only [Step.run, after_bind, after_pure]
    exact h.follow (keepsTrack_publish h e)
  | advance ms =>
    simp only [Step.run, after_bind, after_pure]
    exact h.follow (keepsTrack_advance ms)
  | cancel =>
    simp only [Step.run, after_bind, after_pure]
    exact h.follow (keepsTrack_cancelSwitch h)
  | assume m =>
    simp only [Step.run, after_bind, after_pure, after_assume]
    split
    · exact h.keep (.of_eq rfl rfl) rfl rfl
    · exact h
  | snapshot value =>
    simp only [Step.run]
    split
    · simp only [after_bind, after_pure]
      exact h.follow (keepsTrack_applySnapshot h _)
    · exact h
  | watchErrors kind command label =>
    simp only [Step.run, after_bind, after_pure, after_discard]
    exact h.follow ((keepsTrack_subscribe _ _).trans (keepsTrack_addOnce _ _ _))
  | listen event key label =>
    simp only [Step.run, after_bind, after_pure]
    exact h.follow ((keepsTrack_subscribe _ _).trans (keepsTrack_addShared _ _ _))
  | releaseKey key =>
    simp only [Step.run, after_bind, after_pure]
    exact h.follow (keepsTrack_releaseKey key)
  | forceReleaseKey key =>
    simp only [Step.run, after_bind, after_pure]
    exact h.follow (keepsTrack_forceRelease key)
  | releaseAll =>
    simp only [Step.run, after_bind, after_pure]
    exact h.follow (.of_coordinator keepsWaits_releaseAll coordinator_releaseAll)
  | attach =>
    simp only [Step.run, attachServiceStarted, after_bind, after_pure]
    exact h.follow ((keepsTrack_subscribe _ _).trans (keepsTrack_addOnce _ _ _))
  | detach =>
    simp only [Step.run, detachServiceStarted, after_bind, after_pure]
    exact h.follow (keepsTrack_forceRelease _)
  | rosterAttach =>
    simp only [Step.run, after_bind, after_pure, after_attachRoster, attachFeed]
    exact h.follow (((keepsTrack_subscribe _ _).trans (keepsTrack_addShared _ _ _)).trans
      ((keepsTrack_subscribe _ _).trans (keepsTrack_addShared _ _ _)))
  | rosterDetach =>
    simp only [Step.run, after_bind, after_pure, after_detachRoster]
    exact h.follow ((keepsTrack_releaseKey _).trans (keepsTrack_releaseKey _))
  | rosterRemove key =>
    simp only [Step.run, after_bind, after_get]
    split <;> exact h
  | rosterReconcile o online =>
    simp only [Step.run, after_bind, after_get]
    split <;> exact h
  | refCount | respondNext | reject | stall | state | rosterAttached | roster | rosterGet
  | rosterReset => exact h

theorem SwitchTracked.move (h : SwitchTracked s) (hw : WaitsSound none s)
    (hm : ModeSound Flying s) (hmv : Move s s') : SwitchTracked s' := by
  cases hmv with
  | step a _ => exact h.run a
  | poll i => exact h.poll hw hm i
  | endSend i ended => exact h.endSend hw hm i ended
  | dequeue | clearLogs => exact h

theorem Reachable.switchTracked (hs : Reachable s) : SwitchTracked s := by
  induction hs with
  | new refusal =>
    rintro j t p ⟨ht, -⟩
    simp [Session.new] at ht
  | move hs hm ih => exact ih.move hs.waitsSound hs.modeSound hm

/-! ## Switch keys in the registry -/

/-- A key of a switch's wait: `command:service_choice:` and the wait's id. -/
def IsSwitchKey (k : String) : Prop := ∃ w, k = waitKeyOf .serviceChoice w

/-- A wait key names its command. -/
theorem waitKeyOf_command_inj {c c' : CommandKind} {w w' : Nat}
    (h : waitKeyOf c w = waitKeyOf c' w') : c = c' := by
  obtain rfl := waitKeyOf_inj h
  simp only [waitKeyOf, String.append_left_inj, String.append_right_inj] at h
  exact CommandKind.wireName_injective h

/-- Held switch key `k` is not the coordinator's record: the task that owns its wait is still
stuck in the send of its command, or dispatched a `service_choice` command directly. -/
def HeldUntracked (s : Session) (k : String) : Prop :=
  ∃ (w : Nat) (x : Wait) (t : Task), s.waits[w]? = some x ∧ x.key = k ∧ s.tasks[x.owner]? = some t ∧
    (t.stage = .sending w ∨
      ∃ success failure params timeout, t.job = .dispatch success failure .serviceChoice params timeout)

/-- The switch keys a session's registry holds. -/
structure SwitchKeysSound (s : Session) : Prop where
  /-- Every held switch key is the recorded one, a stuck send's, or a direct dispatch's. -/
  tracked : ∀ k ∈ s.registry.keys, IsSwitchKey k → s.waitKey = some k ∨ s.HeldUntracked k
  /-- With no send stuck and no `service_choice` command dispatched directly, the registry holds
  at most one switch key. -/
  unique : (∀ k, ¬ s.HeldUntracked k) → ∀ k ∈ s.registry.keys, ∀ k' ∈ s.registry.keys,
    IsSwitchKey k → IsSwitchKey k' → k = k'

/-- A held switch key sits in the entry of an open wait for a `service_choice` command. Its task
is sending the command, or waiting on the result: as the recorded switch, or as a direct
dispatch. -/
theorem SwitchTracked.held (h : SwitchTracked s) (hw : WaitsSound none s) {k : String}
    (hk : k ∈ s.registry.keys) (hs : IsSwitchKey k) : s.waitKey = some k ∨ s.HeldUntracked k := by
  obtain ⟨w₀, rfl⟩ := hs
  obtain ⟨e, hp⟩ := Registry.mem_keys.mp hk
  cases htok : e.token with
  | unsubscribe n id =>
    -- a subscription's release sits under no wait key
    exact absurd ⟨.serviceChoice, w₀, rfl⟩ (hw.other_entry _ hp n id htok).1
  | wait w hs =>
    obtain ⟨x, hx, hkey, -⟩ := hw.open_entry _ hp w hs htok
    have hcmd : x.command = .serviceChoice :=
      (waitKeyOf_command_inj (hkey.trans (hw.wait_key w x hx))).symm
    have hpw : (waitKeyOf .serviceChoice w₀, e).2.token.wait? = some w := by
      simp [htok, Release.wait?]
    obtain ⟨t, ht, hc, -⟩ := hw.wait_task w x hx
    rcases hw.wait_stage w x hx ⟨_, hp, hpw⟩ with ⟨t', ht', hst⟩ | hcur
    · rw [ht] at ht'
      cases ht'
      cases hstage : t.stage with
      | sending w' =>
        simp only [hstage, Stage.wait?, Option.some.injEq] at hst
        subst hst
        exact .inr ⟨w', x, t, hx, hkey.symm, ht, .inl hstage⟩
      | awaiting w' d =>
        simp only [hstage, Stage.wait?, Option.some.injEq] at hst
        subst hst
        cases hj : t.job with
        | switchMode target timeout =>
          -- a switch waiting on its open wait is the recorded one
          exact .inl (h _ _ _ ⟨ht, by simp [hj, Job.target?], ⟨w', d, hstage, hpw⟩, hp⟩).1
        | refreshStatus timeout => simp [hj, hcmd, Job.command] at hc
        | dispatch success failure command params timeout =>
          have hcc : command = .serviceChoice := by simpa [hj, hcmd, Job.command] using hc.symm
          subst hcc
          exact .inr ⟨w', x, t, hx, hkey.symm, ht, .inr ⟨success, failure, params, timeout, hj⟩⟩
      | ready | finished => simp [hstage, Stage.wait?] at hst
    · cases hcur

/-- Every switch key a reachable session's registry holds is the coordinator's recorded key, or
belongs to a send still stuck or to a `service_choice` command dispatched directly; with neither,
it holds at most one. -/
theorem switch_keys_tracked (hs : Reachable s) : SwitchKeysSound s where
  tracked _ hk hsk := hs.switchTracked.held hs.waitsSound hk hsk
  unique hnone k hk k' hk' hsk hsk' := by
    have h₁ := (hs.switchTracked.held hs.waitsSound hk hsk).resolve_right (hnone k)
    have h₂ := (hs.switchTracked.held hs.waitsSound hk' hsk').resolve_right (hnone k')
    exact Option.some.inj (h₁.symm.trans h₂)

/-- With sends stalled, a switch to `client` is requested and started, then one to `server`: both
are left in their sends. -/
def stalledSwitches : Session :=
  after (poll 1) (after (Step.run (.request .server none))
    (after (poll 0) (after (Step.run (.request .client none))
      (after (Step.run (.stall true)) (new "")))))

theorem reachable_stalledSwitches : Reachable stalledSwitches :=
  (Reachable.new "").move (.step (.stall true) trivial)
    |>.move (.step (.request .client none) trivial) |>.move (.poll 0)
    |>.move (.step (.request .server none) trivial) |>.move (.poll 1)

/-- Both sends then end, the older one first: the older switch, superseded, takes its key out,
and the newer one records its key and waits, the one switch key left. -/
theorem switch_keys_tracked_sends_ended :
    let u := after (endSend 1 none) (after (endSend 0 none) stalledSwitches)
    Reachable u ∧ SwitchKeysSound u ∧ u.waitKey = some (waitKeyOf .serviceChoice 1) ∧
      u.registry.keys = [waitKeyOf .serviceChoice 1] := by
  intro u
  have hs : Reachable u :=
    reachable_stalledSwitches.move (.endSend 0 none) |>.move (.endSend 1 none)
  exact ⟨hs, switch_keys_tracked hs, rfl, rfl⟩

/-- While both sends are stuck, the second switch has superseded the first, and the registry
holds both switch keys. -/
theorem two_switch_keys_after_stalled_send :
    Reachable stalledSwitches ∧
      stalledSwitches.registry.keys = [waitKeyOf .serviceChoice 0, waitKeyOf .serviceChoice 1] :=
  ⟨reachable_stalledSwitches, rfl⟩

end Session

end DaemonBridge
