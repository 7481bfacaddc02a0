import Mathlib
import DaemonBridge.Proofs.Session.Waits

/-!
# Listeners, deliveries and the mode coordinator keep open waits sound

Everything a session does besides running its tasks keeps `WaitsSound`:

* a listener is subscribed with a handler that answers no wait, and registered under a key that
  is no wait's (`WaitsSound.listenOnce`, `WaitsSound.listenShared`);
* a delivery fills an empty slot and releases the wait's key, which closes the wait exactly as a
  release does, except that the slot holds the reply (`WaitsSound.deliver`);
* publishing runs handlers, each of which logs, delivers, adopts a mode or feeds the roster
  (`WaitsSound.publish`);
* the mode coordinator changes only its own fields, and releases the switch wait it took out
  (`WaitsSound.beginSwitch`, `WaitsSound.observe` and the others).
-/

namespace DaemonBridge

namespace Session

variable {c : Option (Nat × Nat)} {s : Session}

/-! ## Subscriptions and entries that answer no wait -/

theorem WaitsSound.subscribe (h : WaitsSound c s) {name : String} {handler : Handler}
    (hw : handler.wait? = none) : WaitsSound c (after (Session.subscribe name handler) s) := by
  rw [after_subscribe]
  set S : Session := { s with bus := (s.bus.subscribe name handler).2 }
  have hsub : S.bus.subscriptions = s.bus.subscriptions ++ [⟨s.bus.nextId, name, handler⟩] := rfl
  -- the new subscription answers no wait, so every wait is answered as before
  have hkeep : ∀ w, S.waitHandlers w = s.waitHandlers w ∧ S.waitHandles w = s.waitHandles w := by
    intro w
    simp [waitHandlers, waitHandles, hsub, List.filter_append, hw]
  have hw' : S.waitHandlers = s.waitHandlers := funext fun w => (hkeep w).1
  have hd' : S.waitHandles = s.waitHandles := funext fun w => (hkeep w).2
  have hnew : s.bus.nextId ∉ s.bus.subscriptions.map (·.id) := fun hm => by
    obtain ⟨sub, hs, he⟩ := List.mem_map.mp hm
    exact absurd (h.ids_lt sub hs) (by omega)
  refine ⟨h.keys_nodup, ?_, fun sub hs => ?_, fun sub hs => ?_, by rw [hd']; exact h.open_entry,
    fun p hp n id hp' => ?_, h.wait_key, by rw [hw']; exact h.wait_task, h.wait_stage, h.slot_open,
    h.cur_wait, h.stage_wait⟩
  · rw [hsub, List.map_append]
    exact h.ids_nodup.append (List.nodup_singleton _) (List.disjoint_singleton.mpr hnew)
  · rw [hsub, List.mem_append, List.mem_singleton] at hs
    rcases hs with hs | rfl
    · exact Nat.lt_succ_of_lt (h.ids_lt sub hs)
    · exact Nat.lt_succ_self _
  · rw [hsub, List.mem_append, List.mem_singleton] at hs
    rcases hs with hs | rfl
    · exact h.handler_lt sub hs
    · intro w hw''; simp_all
  · obtain ⟨hk, hlt, hs⟩ := h.other_entry p hp n id hp'
    refine ⟨hk, Nat.lt_succ_of_lt hlt, fun sub hsub' => ?_⟩
    rw [hsub, List.mem_append, List.mem_singleton] at hsub'
    rcases hsub' with hsub' | rfl
    · exact hs sub hsub'
    · exact fun _ => hw

/-- The subscription just made is the only one with its id. -/
theorem WaitsSound.fresh (h : WaitsSound c s) {name : String} {handler : Handler} :
    ∀ sub ∈ (after (Session.subscribe name handler) s).bus.subscriptions, sub.id = s.bus.nextId →
      sub.handler = handler := by
  intro sub hs hid
  simp only [after_subscribe, EventBus.subscriptions_subscribe, List.mem_append,
    List.mem_singleton] at hs
  rcases hs with hs | rfl
  · exact absurd (h.ids_lt sub hs) (by omega)
  · rfl

/-- A new entry that ends no wait, under a key that is no wait's. -/
theorem WaitsSound.create {key n : String} {id m : Nat} (h : WaitsSound c s)
    (hf : s.registry.find? key = none) (hk : ¬ IsWaitKey key) (hlt : id < s.bus.nextId)
    (hid : ∀ sub ∈ s.bus.subscriptions, sub.id = id → sub.handler.wait? = none) :
    WaitsSound c { s with registry := ⟨s.registry.entries ++ [(key, ⟨.unsubscribe n id, m⟩)]⟩ } := by
  have ho : Open { s with registry := ⟨s.registry.entries ++ [(key, ⟨.unsubscribe n id, m⟩)]⟩ } =
      s.Open := by
    funext w; simp [Open, Release.wait?]
  refine ⟨Registry.keys_create_nodup h.keys_nodup hf _, h.ids_nodup, h.ids_lt, h.handler_lt,
    fun p hp => ?_, fun p hp => ?_, h.wait_key, by rw [ho]; exact h.wait_task,
    by rw [ho]; exact h.wait_stage, by rw [ho]; exact h.slot_open, h.cur_wait, h.stage_wait⟩
  · rcases List.mem_append.mp hp with hp | hp
    · exact h.open_entry p hp
    · intro w hs ht
      rw [List.mem_singleton] at hp
      subst hp
      cases ht
  · rcases List.mem_append.mp hp with hp | hp
    · exact h.other_entry p hp
    · intro n' id' ht
      rw [List.mem_singleton] at hp
      subst hp
      cases ht
      exact ⟨hk, hlt, hid⟩

/-- Every entry that ends a wait sits under a wait key. -/
theorem WaitsSound.isWaitKey (h : WaitsSound c s) {p : String × Registry.Entry Release}
    (hp : p ∈ s.registry.entries) (hw : p.2.token.wait?.isSome) : IsWaitKey p.1 := by
  obtain ⟨w, hpw⟩ := Option.isSome_iff_exists.mp hw
  obtain ⟨x, hx, hk, -⟩ := h.wait_entry hp hpw
  exact ⟨x.command, w, hk.trans (h.wait_key w x hx)⟩

/-- Joining a key that is no wait's leaves every wait's entry as it was. -/
theorem WaitsSound.join {key : String} (h : WaitsSound c s) (hk : ¬ IsWaitKey key) :
    WaitsSound c { s with registry := s.registry.join key } := by
  refine h.map_entries (fun ⟨k', e'⟩ => by dsimp only; split <;> rfl)
    (fun ⟨k', e'⟩ => by dsimp only; split <;> rfl) fun ⟨k', e'⟩ hp hw => ?_
  have hne : k' ≠ key := fun hkk => hk (hkk ▸ h.isWaitKey hp hw)
  simp [hne]

variable {key n : String} {id : Nat}

theorem WaitsSound.addOnce (h : WaitsSound c s) (hk : ¬ IsWaitKey key) (hlt : id < s.bus.nextId)
    (hid : ∀ sub ∈ s.bus.subscriptions, sub.id = id → sub.handler.wait? = none) :
    WaitsSound c (after (Session.addOnce key (.unsubscribe n id)) s) := by
  rw [after_addOnce]
  cases hf : s.registry.find? key with
  | none =>
    simp only [Registry.addOnce, hf, Option.toList_none, List.foldl_nil]
    exact h.create hf hk hlt hid
  | some e =>
    simp only [Registry.addOnce, hf, Option.toList_some, List.foldl_cons, List.foldl_nil,
      after_runRelease_unsubscribe]
    exact h.unsubscribe hid

theorem WaitsSound.addShared (h : WaitsSound c s) (hk : ¬ IsWaitKey key) (hlt : id < s.bus.nextId)
    (hid : ∀ sub ∈ s.bus.subscriptions, sub.id = id → sub.handler.wait? = none) :
    WaitsSound c (after (Session.addShared key (.unsubscribe n id)) s) := by
  rw [after_addShared]
  cases hf : s.registry.find? key with
  | none =>
    simp only [Registry.addShared, hf, Option.toList_none, List.foldl_nil]
    exact h.create hf hk hlt hid
  | some e =>
    simp only [Registry.addShared, hf, Option.toList_some, List.foldl_cons, List.foldl_nil,
      after_runRelease_unsubscribe]
    exact (h.join hk).unsubscribe hid

variable {handler : Handler}

/-- A listener subscribed and registered once under a key that is no wait's. -/
theorem WaitsSound.listenOnce (h : WaitsSound c s) (hw : handler.wait? = none)
    (hk : ¬ IsWaitKey key) :
    WaitsSound c (after (Session.addOnce key (.unsubscribe n s.bus.nextId))
      (after (Session.subscribe n handler) s)) :=
  (h.subscribe hw).addOnce hk (Nat.lt_succ_self _) fun sub hs hid => (h.fresh sub hs hid) ▸ hw

/-- A listener subscribed and registered, shared, under a key that is no wait's. -/
theorem WaitsSound.listenShared (h : WaitsSound c s) (hw : handler.wait? = none)
    (hk : ¬ IsWaitKey key) :
    WaitsSound c (after (Session.addShared key (.unsubscribe n s.bus.nextId))
      (after (Session.subscribe n handler) s)) :=
  (h.subscribe hw).addShared hk (Nat.lt_succ_self _) fun sub hs hid => (h.fresh sub hs hid) ▸ hw

/-! ## The mode coordinator -/

theorem WaitsSound.releaseStale (h : WaitsSound c s) (k : Option String) :
    WaitsSound c (after (Session.releaseStale k) s) := by
  cases k with
  | none => exact h
  | some k => exact h.forceRelease k

theorem WaitsSound.superseded (h : WaitsSound c s) (m : ModeState) : WaitsSound c (s.superseded m) :=
  h.of_eq rfl rfl rfl rfl

theorem WaitsSound.showing (h : WaitsSound c s) (m : ModeState) : WaitsSound c (s.showing m) :=
  h.of_eq rfl rfl rfl rfl

theorem WaitsSound.beginSwitch (h : WaitsSound c s) (target : ServiceMode) :
    WaitsSound c (after (Session.beginSwitch target) s) := by
  rw [after_beginSwitch]
  split
  · exact h
  · exact (h.superseded _).releaseStale _

theorem WaitsSound.track (h : WaitsSound c s) (g : Nat) (key : String) :
    WaitsSound c (after (Session.track g key) s) := by
  rw [after_track]
  split
  · exact h.of_eq rfl rfl rfl rfl
  · exact h

theorem WaitsSound.commit (h : WaitsSound c s) (g : Nat) (target : ServiceMode) :
    WaitsSound c (after (Session.commit g target) s) := by
  rw [after_commit]
  split
  · exact h.of_eq rfl rfl rfl rfl
  · exact h

theorem WaitsSound.failSwitch (h : WaitsSound c s) (g : Nat) (target : ServiceMode)
    (e : CommandError) : WaitsSound c (after (Session.failSwitch g target e) s) := by
  rw [after_failSwitch]
  split
  · exact h.of_eq rfl rfl rfl rfl
  · exact h

theorem WaitsSound.abandonSwitch (h : WaitsSound c s) (g : Nat) :
    WaitsSound c (after (Session.abandonSwitch g) s) := by
  rw [after_abandonSwitch]
  split
  · exact (h.superseded _).releaseStale _
  · exact h

theorem WaitsSound.observe (h : WaitsSound c s) (m : ServiceMode) :
    WaitsSound c (after (Session.observe m) s) := by
  obtain ⟨previous, hm⟩ := after_observe (s := s) m
  rw [hm]
  exact (h.superseded _).releaseStale _

theorem WaitsSound.cancelSwitch (h : WaitsSound c s) : WaitsSound c (after cancelSwitch s) := by
  by_cases hs : ∃ target, s.mode.active = .pending (some target)
  · obtain ⟨target, ht⟩ := hs
    rw [after_cancelSwitch_switching ht]
    exact (h.superseded _).releaseStale _
  · rw [after_cancelSwitch_other (fun target ht => hs ⟨target, ht⟩)]
    exact h

theorem WaitsSound.assume (h : WaitsSound c s) (m : ServiceMode) :
    WaitsSound c (after (Session.assume m) s) := by
  rw [after_assume]
  split
  · exact h.showing _
  · exact h

theorem WaitsSound.applySnapshot (h : WaitsSound c s) (snap : StatusSnapshot) :
    WaitsSound c (after (Session.applySnapshot snap) s) := by
  rw [after_applySnapshot]
  cases snap.activeMode with
  | none => exact h
  | some m => exact h.observe m

/-! ## Delivering a reply -/

/-- A delivery to an empty slot: the slot takes the reply, and releasing the wait's key closes
the wait just as a release would, the slot holding the reply instead of being dropped. -/
theorem WaitsSound.deliver_empty {w : Nat} {x : Wait} (h : WaitsSound c s) (reply : Reply)
    (hx : s.waits[w]? = some x) (hslot : x.slot = .empty) :
    WaitsSound c (after (Session.deliver w reply) s) := by
  -- an empty slot is an open wait, whose entry sits under the wait's key
  obtain ⟨⟨k, e⟩, hp, hpw⟩ := h.slot_open w x hx hslot
  obtain ⟨hs, (he : e.token = .wait w hs)⟩ := Release.wait?_eq_some.mp hpw
  obtain ⟨x', hx', hk, h1, -, hhs⟩ := h.open_entry _ hp w hs he
  rw [hx] at hx'
  cases hx'
  simp only at hk h1
  have hf : s.registry.find? x.key = some e :=
    (Registry.find?_eq_some_iff h.keys_nodup).mpr (hk ▸ hp)
  simp only [Session.deliver, after_bind, after_wait?, answer_wait?, hx, hslot, after_setSlot,
    after_discard, beq_self_eq_true, if_true]
  obtain ⟨q, hq⟩ := after_wake_eq
    (s := { s with waits := s.waits.modify w fun x => { x with slot := .filled reply } }) x.owner
  -- the key's only holder leaves: the wait's release runs, and finds the slot already filled
  rw [hq, after_releaseKey_last (e := e) ?_ (by simp [h1]), he, after_runRelease_wait,
    after_dropSlot_taken (x := { x with slot := .filled reply }) ?_ (by simp)]
  · refine WaitsSound.closed (h.erase_cons hf) (by simp [he, Release.wait?]) hx
      (v := .filled reply) (by simp) ?_ ?_ rfl rfl rfl
    · simp only [EventBus.unsubscribeAll]
      apply List.filter_congr
      intro sub hsub
      simp only [hhs, mem_waitHandles_iff h.ids_nodup hsub]
    · simp [EventBus.unsubscribeAll]
  · simp [hx]
  · exact hf

theorem WaitsSound.deliver (h : WaitsSound c s) (w : Nat) (reply : Reply) :
    WaitsSound c (after (Session.deliver w reply) s) := by
  cases hx : s.waits[w]? with
  | none => simpa [Session.deliver, hx] using h
  | some x =>
    by_cases hslot : x.slot = .empty
    · exact h.deliver_empty reply hx hslot
    · simpa [Session.deliver, hx, hslot] using h

theorem WaitsSound.feedRoster (h : WaitsSound c s) (e : Envelope) (online : Bool) :
    WaitsSound c (after (Session.feedRoster e online) s) := by
  simp only [Session.feedRoster, after_bind, answer_get, after_get]
  split <;> exact h.of_eq rfl rfl rfl rfl

theorem WaitsSound.handle (h : WaitsSound c s) (e : Envelope) (handler : Handler) :
    WaitsSound c (after (Session.handle e handler) s) := by
  cases handler with
  | waitSuccess w command target =>
    simp only [Session.handle, after_ite]
    split
    · exact h.deliver w _
    · exact h
  | waitError w command =>
    simp only [Session.handle, after_ite]
    split
    · exact h.deliver w _
    · exact h
  | errorWatch command label =>
    simp only [Session.handle, after_ite]
    split
    · exact h.of_eq rfl rfl rfl rfl
    · exact h
  | listener label => exact h.of_eq rfl rfl rfl rfl
  | serviceStarted =>
    simp only [Session.handle]
    split
    · split
      · exact h.observe _
      · exact h
    · exact h
  | rosterFeed online => exact h.feedRoster e online

/-- Publishing runs every handler subscribed when it starts, each keeping the invariant. -/
theorem WaitsSound.publish (h : WaitsSound c s) (e : Envelope) :
    WaitsSound c (after (Session.publish e) s) := by
  simp only [Session.publish, after_bind, answer_get, after_get, after_pure]
  exact forM_keeps (fun p _ t ht => ht.handle e p.2) h

end Session

end DaemonBridge
