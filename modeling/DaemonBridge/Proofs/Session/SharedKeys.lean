import Mathlib
import DaemonBridge.Proofs.Session.Waits
import DaemonBridge.Proofs.Session.Resolution
import DaemonBridge.Proofs.Session.WaitKeys
import DaemonBridge.Proofs.WireNames

/-!
# Shared subscriptions

Three users of a session share one bus subscription among any number of callers through one
registry key:

* the roster feed, under `roster:<kind>` for each of the roster's two notification kinds;
* the mode coordinator's observer of `service_started`, under `mode:service_started`;
* the error watches, under `errors:<kind>:<command>`.

Each subscribes first and then hands the unsubscribe to `addShared` or `addOnce`, which runs it at
once when the key is held already. `SharedSound` says that the bus mirrors the registry: its
subscriptions, in order, are the registry's entries, each serving the key of its entry and
removed by that entry's release (`SharedSound.mirror`). From the mirror, each shared key has
exactly one handler on its wire name while it is held and none once it has left
(`SharedSound.backers_length`).

`SharingRun v s` is a run of these users' operations, and of publications, that leaves `v`
roster views attached. Every step of it keeps `SharedSound` (`SharedSound.step`); along it the
feed keys have `v` holders, a detach tears the feed down exactly when it is the last view's, and
a roster notification published while the feed is attached is taken into the roster once,
however many views share it (`shared_keys_backed_once`).
-/

namespace DaemonBridge

namespace Registry

/-! ## Holders after a join or a creation -/

variable {α : Type}

theorem holders?_addShared (r : Registry α) (key k : String) (token : α) :
    (r.addShared key token).2.2.holders? k =
      if k = key then some ((r.holders? key).getD 0 + 1) else r.holders? k := by
  cases hf : r.find? key with
  | none => by_cases hk : k = key <;> simp [addShared, holders?, hf, find?_create, hk]
  | some e => by_cases hk : k = key <;> simp [addShared, holders?, hf, find?_join, hk]

theorem find?_addOnce_ne (r : Registry α) {key k : String} (hk : k ≠ key) (token : α) :
    (r.addOnce key token).2.2.find? k = r.find? k := by
  cases hf : r.find? key <;> simp [addOnce, hf, find?_create, hk]

end Registry

namespace Session

/-! ## Shared keys -/

/-- The registry key of the error watch on `kind` for `command`. -/
def errorsKey (kind : EventKind) (command : CommandKind) : String :=
  "errors:" ++ kind.wireName ++ ":" ++ command.wireName

/-- A key that callers share, with one subscription behind it. -/
inductive SharedKey where
  | feed (kind : EventKind)
  | observer
  | errors (kind : EventKind) (command : CommandKind)

/-- The registry key. -/
def SharedKey.key : SharedKey → String
  | .feed kind => feedKey kind
  | .observer => serviceStartedKey
  | .errors kind command => errorsKey kind command

/-- The wire name the key's handler listens on. -/
def SharedKey.wireName : SharedKey → String
  | .feed kind | .errors kind _ => kind.wireName
  | .observer => EventKind.serviceStarted.wireName

/-- Whether a handler is of the sort that serves the key. -/
def SharedKey.Backs : SharedKey → Handler → Bool
  | .feed _, .rosterFeed _ => true
  | .observer, .serviceStarted => true
  | .errors _ command, .errorWatch c _ => c == command
  | _, _ => false

/-- The subscriptions behind a shared key: handlers of its sort on its wire name. -/
def backers (s : Session) (k : SharedKey) : List (EventBus.Subscription Handler) :=
  s.bus.subscriptions.filter fun sub => sub.name == k.wireName && k.Backs sub.handler

/-- The shared key a subscription serves, read off its handler and wire name. -/
def servedKey (sub : EventBus.Subscription Handler) : Option String :=
  match sub.handler with
  | .rosterFeed _ => some ("roster:" ++ sub.name)
  | .serviceStarted => some serviceStartedKey
  | .errorWatch command _ => some ("errors:" ++ sub.name ++ ":" ++ command.wireName)
  | _ => none

/-- A subscription as the registry sees it: the key it serves and the release that removes it. -/
def served (sub : EventBus.Subscription Handler) : Option String × Release :=
  (servedKey sub, .unsubscribe sub.name sub.id)

/-- A registry entry as the bus sees it: its key and its release. -/
def held (p : String × Registry.Entry Release) : Option String × Release :=
  (some p.1, p.2.token)

/-- A subscription of a sharing user on the wire name its key names: a roster feed on one of
the roster's kinds with that kind's online flag, the observer on `service_started`, or an error
watch. -/
def Serving (sub : EventBus.Subscription Handler) : Prop :=
  match sub.handler with
  | .rosterFeed online => ∃ kind, (kind, online) ∈ feeds ∧ sub.name = kind.wireName
  | .serviceStarted => sub.name = EventKind.serviceStarted.wireName
  | .errorWatch .. => True
  | _ => False

/-- The bus mirrors the registry: the subscriptions, in order, are the entries, each serving its
entry's key and removed by its entry's release. Ids are distinct and below the next one, every
subscription is a sharing user's, and no switch wait is recorded. -/
structure SharedSound (s : Session) : Prop where
  mirror : s.bus.subscriptions.map served = s.registry.entries.map held
  keys_nodup : s.registry.keys.Nodup
  ids_nodup : (s.bus.subscriptions.map (·.id)).Nodup
  ids_lt : ∀ sub ∈ s.bus.subscriptions, sub.id < s.bus.nextId
  serving : ∀ sub ∈ s.bus.subscriptions, Serving sub
  waitKey : s.waitKey = none

/-! ## The keys are told apart -/

theorem CommandKind.colon_not_mem (c : CommandKind) : ':' ∉ c.wireName.toList := by
  cases c <;> decide

/-- An error watch's key gives back its wire name and command: command names hold no `:`. -/
theorem errors_key_inj {n n' : String} {c c' : CommandKind}
    (h : "errors:" ++ n ++ ":" ++ c.wireName = "errors:" ++ n' ++ ":" ++ c'.wireName) :
    n = n' ∧ c = c' := by
  have hl := congrArg String.toList h
  have hcolon : (":" : String).toList = [':'] := by decide
  simp only [String.toList_append, hcolon] at hl
  have hc := eq_of_append_sep hl (CommandKind.colon_not_mem c) (CommandKind.colon_not_mem c')
  rw [hc] at hl
  have hn := List.append_cancel_left (List.append_cancel_right (List.append_cancel_right hl))
  exact ⟨String.toList_inj.mp hn, CommandKind.wireName_injective (String.toList_inj.mp hc)⟩

theorem feed_key_ne_errors_key (n n' : String) (c : CommandKind) :
    "roster:" ++ n ≠ "errors:" ++ n' ++ ":" ++ c.wireName := by
  intro h
  have := congrArg (fun t : String => t.toList.head?) h
  simp [String.toList_append] at this

theorem feed_key_ne_serviceStartedKey (n : String) : "roster:" ++ n ≠ serviceStartedKey := by
  intro h
  have := congrArg (fun t : String => t.toList.head?) h
  simp [String.toList_append, serviceStartedKey] at this

theorem errors_key_ne_serviceStartedKey (n : String) (c : CommandKind) :
    "errors:" ++ n ++ ":" ++ c.wireName ≠ serviceStartedKey := by
  intro h
  have := congrArg (fun t : String => t.toList.head?) h
  simp [String.toList_append, serviceStartedKey] at this

/-- A sharing user's subscription is behind a shared key exactly when it serves that key. -/
theorem backs_iff_servedKey {sub : EventBus.Subscription Handler} (hs : Serving sub)
    (k : SharedKey) :
    (sub.name == k.wireName && k.Backs sub.handler) = true ↔ servedKey sub = some k.key := by
  obtain ⟨id, name, handler⟩ := sub
  cases handler with
  | rosterFeed online =>
    cases k with
    | feed kind => simp [servedKey, SharedKey.Backs, SharedKey.key, SharedKey.wireName, feedKey]
    | observer =>
      simpa [servedKey, SharedKey.Backs, SharedKey.key] using feed_key_ne_serviceStartedKey name
    | errors kind command =>
      simpa [servedKey, SharedKey.Backs, SharedKey.key, errorsKey] using
        feed_key_ne_errors_key name kind.wireName command
  | serviceStarted =>
    cases k with
    | feed kind =>
      simpa [servedKey, SharedKey.Backs, SharedKey.key, feedKey] using
        (feed_key_ne_serviceStartedKey kind.wireName).symm
    | observer =>
      simpa [servedKey, SharedKey.Backs, SharedKey.key, SharedKey.wireName, Serving] using hs
    | errors kind command =>
      simpa [servedKey, SharedKey.Backs, SharedKey.key, errorsKey] using
        (errors_key_ne_serviceStartedKey kind.wireName command).symm
  | errorWatch c label =>
    cases k with
    | feed kind =>
      simpa [servedKey, SharedKey.Backs, SharedKey.key, feedKey] using
        (feed_key_ne_errors_key kind.wireName name c).symm
    | observer =>
      simpa [servedKey, SharedKey.Backs, SharedKey.key] using errors_key_ne_serviceStartedKey name c
    | errors kind command =>
      simp only [servedKey, SharedKey.Backs, SharedKey.key, SharedKey.wireName, errorsKey,
        Bool.and_eq_true, beq_iff_eq, Option.some.injEq]
      constructor
      · rintro ⟨rfl, rfl⟩
        rfl
      · exact errors_key_inj
  | waitSuccess _ _ _ => exact hs.elim
  | waitError _ _ => exact hs.elim
  | listener _ => exact hs.elim

theorem Serving.wait?_eq_none {sub : EventBus.Subscription Handler} (hs : Serving sub) :
    sub.handler.wait? = none := by
  obtain ⟨id, name, handler⟩ := sub
  -- the handlers that serve a key are the sharing users', and none of them answers a wait
  cases handler with
  | waitSuccess _ _ _ | waitError _ _ | listener _ => exact hs.elim
  | errorWatch _ _ | serviceStarted | rosterFeed _ => rfl

/-- A roster kind has one online flag. -/
theorem feeds_flag_unique {kind : EventKind} {b b' : Bool} (hb : (kind, b) ∈ feeds)
    (hb' : (kind, b') ∈ feeds) : b = b' := by
  simp only [feeds, List.mem_cons, Prod.mk.injEq, List.not_mem_nil, or_false] at hb hb'
  -- the two kinds differ, so each names one entry of the list
  rcases hb with ⟨rfl, rfl⟩ | ⟨rfl, rfl⟩ <;> rcases hb' with ⟨h, rfl⟩ | ⟨h, rfl⟩
  · rfl
  · cases h
  · cases h
  · rfl

/-! ## What the mirror gives -/

variable {s t : Session}

/-- Each key the registry holds is served by one subscription, and a key it does not hold by
none. -/
theorem SharedSound.servers_length (h : SharedSound s) (key : String) :
    (s.bus.subscriptions.filter (servedKey · = some key)).length =
      if key ∈ s.registry.keys then 1 else 0 := by
  calc (s.bus.subscriptions.filter (servedKey · = some key)).length
      = ((s.bus.subscriptions.map served).filter fun x => decide (x.1 = some key)).length := by
        rw [List.filter_map, List.length_map]
        rfl
    _ = (s.registry.keys.filter (· == key)).length := by
        rw [h.mirror, List.filter_map, List.length_map, Registry.keys, List.filter_map,
          List.length_map]
        congr 1
        exact List.filter_congr fun p _ => by by_cases hp : p.1 = key <;> simp [held, hp]
    _ = s.registry.keys.count key := (List.count_eq_length_filter ..).symm
    _ = _ := h.keys_nodup.count

/-- Two subscriptions serving one key are one. -/
theorem SharedSound.server_unique (h : SharedSound s) {a b : EventBus.Subscription Handler}
    (ha : a ∈ s.bus.subscriptions) (hb : b ∈ s.bus.subscriptions) {key : String}
    (hka : servedKey a = some key) (hkb : servedKey b = some key) : a = b := by
  have hle : (s.bus.subscriptions.filter (servedKey · = some key)).length ≤ 1 := by
    rw [h.servers_length key]
    split <;> omega
  have ha' : a ∈ s.bus.subscriptions.filter (servedKey · = some key) := by simp [ha, hka]
  have hb' : b ∈ s.bus.subscriptions.filter (servedKey · = some key) := by simp [hb, hkb]
  generalize s.bus.subscriptions.filter (servedKey · = some key) = F at hle ha' hb'
  match F, hle, ha', hb' with
  | [_], _, ha', hb' => exact (List.mem_singleton.mp ha').trans (List.mem_singleton.mp hb').symm
  | _ :: _ :: _, hle, _, _ => simp at hle

/-- Each shared key has exactly one handler on its wire name while the registry holds it, and
none once it has left. -/
theorem SharedSound.backers_length (h : SharedSound s) (k : SharedKey) :
    (s.backers k).length = if k.key ∈ s.registry.keys then 1 else 0 := by
  rw [← h.servers_length k.key, backers]
  congr 1
  refine List.filter_congr fun sub hsub => ?_
  rw [Bool.eq_iff_iff, backs_iff_servedKey (h.serving sub hsub) k, decide_eq_true_iff]

/-! ## Operations that keep the mirror -/

/-- The invariant holds of a state with the same subscriptions, an id counter no earlier, and a
registry with the same keys and releases. -/
theorem SharedSound.of_same (h : SharedSound s) (hsubs : t.bus.subscriptions = s.bus.subscriptions)
    (hnext : s.bus.nextId ≤ t.bus.nextId)
    (hr : t.registry.entries.map held = s.registry.entries.map held)
    (hkeys : t.registry.keys = s.registry.keys) (hw : t.waitKey = s.waitKey) : SharedSound t where
  mirror := by rw [hsubs, hr]; exact h.mirror
  keys_nodup := hkeys ▸ h.keys_nodup
  ids_nodup := hsubs ▸ h.ids_nodup
  ids_lt := fun sub hsub => Nat.lt_of_lt_of_le (h.ids_lt sub (hsubs ▸ hsub)) hnext
  serving := fun sub hsub => h.serving sub (hsubs ▸ hsub)
  waitKey := hw ▸ h.waitKey

theorem held_join (r : Registry Release) (key : String) :
    (r.join key).entries.map held = r.entries.map held := by
  simp only [Registry.join, List.map_map]
  congr 1
  funext p
  by_cases hk : p.1 = key <;> simp [held, hk]

theorem held_leave (r : Registry Release) (key : String) :
    (r.leave key).entries.map held = r.entries.map held := by
  simp only [Registry.leave, List.map_map]
  congr 1
  funext p
  by_cases hk : p.1 = key <;> simp [held, hk]

/-- Subscribing a sharing user's handler and creating its key under the new subscription's
release extends both sides of the mirror by one. -/
theorem SharedSound.create (h : SharedSound s) {name : String} {handler : Handler} {key : String}
    (hk : s.registry.find? key = none) (hkey : servedKey ⟨s.bus.nextId, name, handler⟩ = some key)
    (hs : Serving ⟨s.bus.nextId, name, handler⟩) :
    SharedSound { s with
      bus := (s.bus.subscribe name handler).2
      registry := ⟨s.registry.entries ++ [(key, ⟨.unsubscribe name s.bus.nextId, 1⟩)]⟩ } where
  mirror := by simp [h.mirror, served, held, hkey]
  keys_nodup := Registry.keys_create_nodup h.keys_nodup hk _
  ids_nodup := by
    have hfresh : s.bus.nextId ∉ s.bus.subscriptions.map (·.id) := fun hm => by
      obtain ⟨sub, hsub, hid⟩ := List.mem_map.mp hm
      exact absurd (h.ids_lt sub hsub) (by omega)
    simpa using h.ids_nodup.append (List.nodup_singleton _) (List.disjoint_singleton.mpr hfresh)
  ids_lt := by
    simp only [EventBus.subscriptions_subscribe, EventBus.nextId_subscribe, List.mem_append,
      List.mem_singleton]
    rintro sub (hsub | rfl)
    · exact Nat.lt_succ_of_lt (h.ids_lt sub hsub)
    · exact Nat.lt_succ_self _
  serving := by
    simp only [EventBus.subscriptions_subscribe, List.mem_append, List.mem_singleton]
    rintro sub (hsub | rfl)
    · exact h.serving sub hsub
    · exact hs
  waitKey := h.waitKey

/-- Releasing the subscription just made, under a registry with the same keys and releases,
takes the bus back to what it was, with one more id used. -/
theorem SharedSound.redundant (h : SharedSound s) (r : Registry Release)
    (hr : r.entries.map held = s.registry.entries.map held) (hkeys : r.keys = s.registry.keys)
    (name : String) (handler : Handler) :
    SharedSound (after (runRelease (.unsubscribe name s.bus.nextId))
      { s with bus := (s.bus.subscribe name handler).2, registry := r }) := by
  -- every earlier subscription has a smaller id, so only the new one goes
  have hsubs : ((s.bus.subscribe name handler).2.unsubscribe name s.bus.nextId).subscriptions =
      s.bus.subscriptions := by
    simp only [EventBus.subscriptions_unsubscribe, EventBus.subscriptions_subscribe,
      List.filter_append]
    rw [List.filter_eq_self.mpr fun sub hsub => by simp [Nat.ne_of_lt (h.ids_lt sub hsub)]]
    simp
  rw [after_runRelease_unsubscribe]
  exact h.of_same hsubs (Nat.le_succ _) hr hkeys rfl

/-- A user's subscribe followed by `addOnce` of the key its subscription serves. -/
theorem SharedSound.subscribe_addOnce (h : SharedSound s) {name : String} {handler : Handler}
    {key : String} (hkey : servedKey ⟨s.bus.nextId, name, handler⟩ = some key)
    (hs : Serving ⟨s.bus.nextId, name, handler⟩) :
    SharedSound (after (addOnce key (.unsubscribe name s.bus.nextId))
      { s with bus := (s.bus.subscribe name handler).2 }) := by
  rw [after_addOnce]
  cases hf : s.registry.find? key with
  | none => simpa [Registry.addOnce, hf] using h.create hf hkey hs
  | some e => simpa [Registry.addOnce, hf] using h.redundant s.registry rfl rfl name handler

/-- A user's subscribe followed by `addShared` of the key its subscription serves. -/
theorem SharedSound.subscribe_addShared (h : SharedSound s) {name : String} {handler : Handler}
    {key : String} (hkey : servedKey ⟨s.bus.nextId, name, handler⟩ = some key)
    (hs : Serving ⟨s.bus.nextId, name, handler⟩) :
    SharedSound (after (addShared key (.unsubscribe name s.bus.nextId))
      { s with bus := (s.bus.subscribe name handler).2 }) := by
  rw [after_addShared]
  cases hf : s.registry.find? key with
  | none => simpa [Registry.addShared, hf] using h.create hf hkey hs
  | some e =>
    simpa [Registry.addShared, hf] using
      h.redundant (s.registry.join key) (held_join _ _) Registry.keys_join name handler

/-- Taking a held key out and running its release removes exactly the subscription serving it. -/
theorem SharedSound.erase (h : SharedSound s) {key : String} {e : Registry.Entry Release}
    (hf : s.registry.find? key = some e) :
    SharedSound (after (runRelease e.token) { s with registry := s.registry.erase key }) := by
  -- the entry's image in the mirror is a subscription serving `key`
  obtain ⟨sub, hsub, hsv⟩ : ∃ sub ∈ s.bus.subscriptions, served sub = held (key, e) :=
    List.mem_map.mp (h.mirror ▸ List.mem_map_of_mem (Registry.mem_of_find? hf))
  simp only [served, held, Prod.mk.injEq] at hsv
  obtain ⟨hkey, htok⟩ := hsv
  -- a subscription is kept exactly when it serves another key
  have hkeep : ∀ x ∈ s.bus.subscriptions,
      (!(x.id == sub.id && x.name == sub.name)) = decide ((served x).1 ≠ some key) := by
    intro x hx
    by_cases hx' : servedKey x = some key
    · obtain rfl := h.server_unique hx hsub hx' hkey
      simp [served, hx']
    · have hne : x.id ≠ sub.id := fun hid =>
        hx' (List.inj_on_of_nodup_map h.ids_nodup hx hsub hid ▸ hkey)
      simp [served, hx', hne]
  have hsubs : (s.bus.unsubscribe sub.name sub.id).subscriptions =
      s.bus.subscriptions.filter fun x => decide ((served x).1 ≠ some key) := by
    rw [EventBus.subscriptions_unsubscribe]
    exact List.filter_congr hkeep
  rw [← htok, after_runRelease_unsubscribe]
  refine ⟨?_, Registry.keys_erase_nodup h.keys_nodup, ?_, ?_, ?_, h.waitKey⟩
  · show (s.bus.unsubscribe sub.name sub.id).subscriptions.map served =
      (s.registry.erase key).entries.map held
    calc (s.bus.unsubscribe sub.name sub.id).subscriptions.map served
        = (s.bus.subscriptions.map served).filter (fun y => decide (y.1 ≠ some key)) := by
          rw [hsubs, List.filter_map]; rfl
      _ = (s.registry.entries.filter fun p => p.1 != key).map held := by
          rw [h.mirror, List.filter_map]
          congr 1
          exact List.filter_congr fun p _ => by by_cases hp : p.1 = key <;> simp [held, hp]
  · show ((s.bus.unsubscribe sub.name sub.id).subscriptions.map (·.id)).Nodup
    rw [hsubs]
    exact h.ids_nodup.sublist (List.filter_sublist.map _)
  · intro x hx
    rw [show (s.bus.unsubscribe sub.name sub.id).subscriptions = _ from hsubs] at hx
    exact h.ids_lt x (List.mem_filter.mp hx).1
  · intro x hx
    rw [show (s.bus.unsubscribe sub.name sub.id).subscriptions = _ from hsubs] at hx
    exact h.serving x (List.mem_filter.mp hx).1

theorem SharedSound.releaseKey (h : SharedSound s) (key : String) :
    SharedSound (after (releaseKey key) s) := by
  cases hf : s.registry.find? key with
  | none =>
    rw [after_releaseKey_none hf]
    exact h.of_same rfl le_rfl rfl rfl rfl
  | some e =>
    by_cases hn : 1 < e.holders
    · rw [after_releaseKey_held hf hn]
      exact h.of_same rfl le_rfl (held_leave _ _) Registry.keys_leave rfl
    · rw [after_releaseKey_last hf hn]
      exact h.erase hf

theorem SharedSound.forceRelease (h : SharedSound s) (key : String) :
    SharedSound (after (forceRelease key) s) := by
  cases hf : s.registry.find? key with
  | none => rw [after_forceRelease_none hf]; exact h
  | some e => rw [after_forceRelease_some hf]; exact h.erase hf

/-! ## Publications -/

/-- A handler that answers no wait leaves the bus and the registry as they were, and records no
switch wait while none is recorded. -/
theorem handle_frame (hw : t.waitKey = none) {handler : Handler} (hh : handler.wait? = none)
    (e : Envelope) :
    (after (handle e handler) t).bus = t.bus ∧ (after (handle e handler) t).registry = t.registry ∧
      (after (handle e handler) t).waitKey = none := by
  cases handler with
  | waitSuccess w command target => simp [Handler.wait?] at hh
  | waitError w command => simp [Handler.wait?] at hh
  | errorWatch command label =>
    simp only [Session.handle, after_ite]
    split <;> simp [hw]
  | listener label => simp [Session.handle, hw]
  | serviceStarted =>
    simp only [Session.handle]
    split
    · split
      · rename_i m _
        -- the observation releases no wait, since none is recorded
        obtain ⟨previous, hm⟩ := after_observe (s := t) m
        rw [hm, hw]
        simp [superseded, showing]
      · simp [hw]
    · simp [hw]
  | rosterFeed online =>
    simp only [Session.handle, Session.feedRoster, after_bind, answer_get, after_get]
    split <;> simp [hw]

/-- A publication runs sharing users' handlers only, which leave the bus and the registry alone. -/
theorem SharedSound.publish_frame (h : SharedSound s) (e : Envelope) :
    (after (publish e) s).bus = s.bus ∧ (after (publish e) s).registry = s.registry ∧
      (after (publish e) s).waitKey = none := by
  simp only [Session.publish, after_bind, answer_get, after_get, after_pure]
  refine forM_keeps (P := fun t : Session => t.bus = s.bus ∧ t.registry = s.registry ∧ t.waitKey = none)
    ?_ ⟨rfl, rfl, h.waitKey⟩
  rintro p hp t ⟨hb, hr, hw⟩
  obtain ⟨sub, hsub, -, rfl⟩ := EventBus.mem_handlersOf.mp hp
  obtain ⟨hb', hr', hw'⟩ := handle_frame hw (h.serving sub hsub).wait?_eq_none e
  exact ⟨hb'.trans hb, hr'.trans hr, hw'⟩

theorem SharedSound.publish (h : SharedSound s) (e : Envelope) :
    SharedSound (after (Session.publish e) s) := by
  obtain ⟨hb, hr, hw⟩ := h.publish_frame e
  exact h.of_same (by rw [hb]) (by rw [hb]) (by rw [hr]) (by rw [hr]) (hw.trans h.waitKey.symm)

/-! ## The roster a publication leaves -/

/-- A handler that answers no wait and feeds no roster leaves the roster and the clock alone. -/
theorem roster_handle {handler : Handler} (hh : handler.wait? = none)
    (hf : ∀ b, handler ≠ .rosterFeed b) (e : Envelope) :
    (after (handle e handler) t).roster = t.roster ∧ (after (handle e handler) t).clock = t.clock := by
  cases handler with
  | waitSuccess w command target => simp [Handler.wait?] at hh
  | waitError w command => simp [Handler.wait?] at hh
  | errorWatch command label =>
    simp only [Session.handle, after_ite]
    split <;> simp
  | listener label => simp [Session.handle]
  | serviceStarted =>
    simp only [Session.handle]
    split
    · split
      · rename_i m _
        obtain ⟨previous, hm⟩ := after_observe (s := t) m
        rw [hm]
        cases hk : t.waitKey with
        | none => simp [superseded, showing]
        | some k =>
          obtain ⟨bus, waits, queue, hr⟩ :=
            after_forceRelease_eq (s := t.superseded ⟨.ofMode m, previous⟩) k
          rw [after_releaseStale_some, hr]
          simp [superseded, showing]
      · exact ⟨rfl, rfl⟩
    · exact ⟨rfl, rfl⟩
  | rosterFeed online => exact absurd rfl (hf online)

/-- What a roster feed makes of a notification: the roster reconciled with what it reports, or
the same roster when it cannot be. -/
theorem roster_feedRoster (e : Envelope) (online : Bool) :
    (after (feedRoster e online) t).roster =
      match t.roster.reconcileAt ((e.payload.map Observation.ofPayload).getD {}) online
        t.seenNow with
      | .ok r => r
      | .error _ => t.roster := by
  simp only [Session.feedRoster, after_bind, answer_get, after_get]
  split <;> simp_all

theorem roster_feedRoster_congr {u : Session} (htu : t.roster = u.roster ∧ t.clock = u.clock)
    (e : Envelope) (online : Bool) :
    (after (feedRoster e online) t).roster = (after (feedRoster e online) u).roster := by
  rw [roster_feedRoster, roster_feedRoster, htu.1, seenNow, seenNow, htu.2]

/-- Handlers that answer no wait and feed no roster leave the roster and the clock alone. -/
theorem roster_forM_quiet {l : List (Nat × Handler)} (kind : EventKind)
    (hl : ∀ p ∈ l, p.2.wait? = none ∧ (SharedKey.feed kind).Backs p.2 = false) (e : Envelope)
    (t : Session) : (after (l.forM fun p => handle e p.2) t).roster = t.roster ∧
      (after (l.forM fun p => handle e p.2) t).clock = t.clock := by
  refine forM_keeps (P := fun u : Session => u.roster = t.roster ∧ u.clock = t.clock)
    (fun p hp u hu => ?_) ⟨rfl, rfl⟩
  have hq := roster_handle (t := u) (hl p hp).1 (fun b hb => ?_) e
  · exact ⟨hq.1.trans hu.1, hq.2.trans hu.2⟩
  · simpa [hb, SharedKey.Backs] using (hl p hp).2

/-- The roster handlers among those of a kind are the subscriptions behind the kind's key. -/
theorem handlersOf_feed (s : Session) (kind : EventKind) :
    (s.bus.handlersOf kind.wireName).filter (fun p => (SharedKey.feed kind).Backs p.2) =
      (s.backers (.feed kind)).map fun sub => (sub.id, sub.handler) := by
  rw [EventBus.handlersOf, List.filter_map, List.filter_filter, backers]
  congr 1
  exact List.filter_congr fun sub _ => by simp [SharedKey.wireName, Bool.and_comm]

/-- The subscription behind a roster key is a roster feed with its kind's online flag. -/
theorem feed_handler {sub : EventBus.Subscription Handler} (hs : Serving sub) {kind : EventKind}
    {online : Bool} (hb : (sub.name == kind.wireName && (SharedKey.feed kind).Backs sub.handler) = true)
    (hk : (kind, online) ∈ feeds) : sub.handler = .rosterFeed online := by
  obtain ⟨id, name, handler⟩ := sub
  cases handler <;> simp only [SharedKey.Backs, Bool.and_false, Bool.false_eq_true] at hb
  case rosterFeed b =>
    obtain ⟨kind', hk', hname⟩ := hs
    simp only [Bool.and_true, beq_iff_eq] at hb
    have hkind : kind' = kind := EventKind.wireName_injective (hname.symm.trans hb)
    subst hkind
    rw [feeds_flag_unique hk' hk]

/-- A roster notification is taken into the roster once while the kind's key is held, by the
one feed behind it, and not at all when it is not. -/
theorem SharedSound.roster_publish (h : SharedSound s) {e : Envelope} {online : Bool}
    (hk : (e.kind, online) ∈ feeds) :
    (after (Session.publish e) s).roster =
      if feedKey e.kind ∈ s.registry.keys then (after (feedRoster e online) s).roster
      else s.roster := by
  -- every handler of the notification answers no wait
  have hq : ∀ p ∈ s.bus.handlersOf e.kind.wireName, p.2.wait? = none := fun p hp => by
    obtain ⟨sub, hsub, -, rfl⟩ := EventBus.mem_handlersOf.mp hp
    exact (h.serving sub hsub).wait?_eq_none
  have hlen := h.backers_length (.feed e.kind)
  show (after ((s.bus.handlersOf e.kind.wireName).forM fun p => handle e p.2) s).roster = _
  split_ifs with hin
  · -- one roster handler, among handlers that leave the roster alone
    rw [SharedKey.key, if_pos hin] at hlen
    obtain ⟨sub, hsub⟩ := List.length_eq_one_iff.mp hlen
    have hmem := List.mem_filter.mp (hsub ▸ List.mem_singleton_self sub)
    have hfilter := handlersOf_feed s e.kind
    rw [hsub, List.map_singleton, feed_handler (h.serving sub hmem.1) hmem.2 hk] at hfilter
    obtain ⟨l₁, l₂, hsplit, hl₁, -, hl₂⟩ := List.filter_eq_cons_iff.mp hfilter
    have hsub₁ : ∀ p ∈ l₁, p ∈ s.bus.handlersOf e.kind.wireName := fun p hp => by simp [hsplit, hp]
    have hsub₂ : ∀ p ∈ l₂, p ∈ s.bus.handlersOf e.kind.wireName := fun p hp => by simp [hsplit, hp]
    rw [hsplit, after_forM_append, after_forM_cons]
    rw [(roster_forM_quiet e.kind (fun p hp => ⟨hq p (hsub₂ p hp),
      by simpa using List.filter_eq_nil_iff.mp hl₂ p hp⟩) _ _).1]
    exact roster_feedRoster_congr (roster_forM_quiet e.kind
      (fun p hp => ⟨hq p (hsub₁ p hp), by simpa using hl₁ p hp⟩) e s) e online
  · -- no roster handler
    rw [SharedKey.key, if_neg hin] at hlen
    have hfilter := handlersOf_feed s e.kind
    rw [List.eq_nil_of_length_eq_zero hlen, List.map_nil] at hfilter
    exact (roster_forM_quiet e.kind
      (fun p hp => ⟨hq p hp, by simpa using List.filter_eq_nil_iff.mp hfilter p hp⟩) e s).1

/-! ## The sharing users' operations -/

/-- The operations of the sharing users besides attaching and detaching a roster view: the
coordinator's attach and detach, an error watch, the release of a key that is no roster key, and
a publication. -/
def Step.Sharing : Step → Prop
  | .attach | .detach | .watchErrors .. | .publish _ => True
  | .releaseKey key => ∀ kind, key ≠ feedKey kind
  | _ => False

theorem SharedSound.step (h : SharedSound s) {a : Step} (ha : a.Sharing) :
    SharedSound (after a.run s) := by
  cases a
  case attach =>
    simp only [Step.run, attachServiceStarted, after_bind, after_pure, after_subscribe,
      answer_subscribe]
    exact h.subscribe_addOnce rfl rfl
  case detach => simpa [Step.run, detachServiceStarted] using h.forceRelease serviceStartedKey
  case watchErrors kind command label =>
    simp only [Step.run, after_bind, after_pure, after_discard, after_subscribe, answer_subscribe]
    exact h.subscribe_addOnce rfl trivial
  case releaseKey key => simpa [Step.run] using h.releaseKey key
  case publish e => simpa [Step.run] using h.publish e
  all_goals exact ha.elim

/-- One kind's part of attaching a roster view: subscribe, then join or create the kind's key. -/
def attachFeed (kind : EventKind) (online : Bool) : SessionM Nat := do
  let id ← subscribe kind.wireName (.rosterFeed online)
  addShared (feedKey kind) (.unsubscribe kind.wireName id)

theorem after_attachRoster :
    after attachRoster s =
      after (attachFeed .clientDisconnected false) (after (attachFeed .clientConnected true) s) :=
  rfl

theorem answer_attachRoster :
    answer attachRoster s =
      answer (attachFeed .clientDisconnected false) (after (attachFeed .clientConnected true) s) :=
  rfl

theorem after_detachRoster :
    after detachRoster s =
      after (releaseKey (feedKey .clientDisconnected)) (after (releaseKey (feedKey .clientConnected)) s) :=
  rfl

theorem answer_detachRoster :
    answer detachRoster s =
      (answer (releaseKey (feedKey .clientConnected)) s ||
        answer (releaseKey (feedKey .clientDisconnected))
          (after (releaseKey (feedKey .clientConnected)) s)) :=
  rfl

theorem SharedSound.attachFeed (h : SharedSound s) {kind : EventKind} {online : Bool}
    (hk : (kind, online) ∈ feeds) : SharedSound (after (attachFeed kind online) s) := by
  simp only [Session.attachFeed, after_bind, after_subscribe, answer_subscribe]
  exact h.subscribe_addShared rfl ⟨kind, hk, rfl⟩

theorem SharedSound.rosterAttach (h : SharedSound s) :
    SharedSound (after (Step.run .rosterAttach) s) := by
  simp only [Step.run, after_bind, after_pure, after_attachRoster]
  exact (h.attachFeed (by simp [feeds])).attachFeed (by simp [feeds])

theorem SharedSound.rosterDetach (h : SharedSound s) :
    SharedSound (after (Step.run .rosterDetach) s) := by
  simp only [Step.run, after_bind, after_pure, after_detachRoster]
  exact (h.releaseKey _).releaseKey _

theorem SharedSound.new (refusal : String) : SharedSound (new refusal) where
  mirror := rfl
  keys_nodup := List.nodup_nil
  ids_nodup := List.nodup_nil
  ids_lt := fun _ h => nomatch h
  serving := fun _ h => nomatch h
  waitKey := rfl

/-! ## Holders of the roster keys -/

theorem registry_runRelease (r : Release) : (after (runRelease r) s).registry = s.registry := by
  obtain ⟨bus, waits, queue, h⟩ := after_runRelease_eq (s := s) r
  rw [h]

theorem registry_foldl_runRelease (l : List Release) (t : Session) :
    (l.foldl (fun u r => after (runRelease r) u) t).registry = t.registry := by
  induction l generalizing t with
  | nil => rfl
  | cons r rest ih => rw [List.foldl_cons, ih, registry_runRelease]

theorem registry_addOnce (key : String) (r : Release) :
    (after (addOnce key r) s).registry = (s.registry.addOnce key r).2.2 := by
  rw [after_addOnce, registry_foldl_runRelease]

theorem registry_addShared (key : String) (r : Release) :
    (after (addShared key r) s).registry = (s.registry.addShared key r).2.2 := by
  rw [after_addShared, registry_foldl_runRelease]

theorem answer_addShared (key : String) (r : Release) :
    answer (addShared key r) s = (s.registry.holders? key).getD 0 + 1 := by
  cases hf : s.registry.find? key <;>
    simp [Session.addShared, Registry.addShared, Registry.holders?, hf]

theorem holders?_releaseKey (key k : String) :
    (after (releaseKey key) s).registry.holders? k =
      if k = key then (s.registry.holders? key).bind fun n => if 1 < n then some (n - 1) else none
      else s.registry.holders? k := by
  cases hf : s.registry.find? key with
  | none =>
    rw [after_releaseKey_none hf]
    by_cases hk : k = key <;> simp [Registry.holders?, hf, hk]
  | some e =>
    by_cases hn : 1 < e.holders
    · rw [after_releaseKey_held hf hn]
      by_cases hk : k = key <;> simp [Registry.holders?, Registry.find?_leave, hf, hk, hn]
    · rw [after_releaseKey_last hf hn, registry_runRelease]
      by_cases hk : k = key <;> simp [Registry.holders?, Registry.find?_erase, hf, hk, hn]

theorem answer_releaseKey (key : String) :
    answer (releaseKey key) s = (s.registry.holders? key).any fun n => !decide (1 < n) := by
  cases hf : s.registry.find? key with
  | none => simp [Session.releaseKey, Registry.release, Registry.holders?, hf]
  | some e =>
    by_cases hn : 1 < e.holders <;>
      simp [Session.releaseKey, Registry.release, Registry.holders?, hf, hn]

theorem holders?_attachFeed (kind : EventKind) (online : Bool) (k : String) :
    (after (attachFeed kind online) s).registry.holders? k =
      if k = feedKey kind then some ((s.registry.holders? k).getD 0 + 1)
      else s.registry.holders? k := by
  simp only [Session.attachFeed, after_bind, after_subscribe, answer_subscribe, registry_addShared,
    Registry.holders?_addShared]
  by_cases hk : k = feedKey kind <;> simp [hk]

theorem answer_attachFeed (kind : EventKind) (online : Bool) :
    answer (attachFeed kind online) s = (s.registry.holders? (feedKey kind)).getD 0 + 1 := by
  simp only [Session.attachFeed, answer_bind, after_subscribe, answer_subscribe, answer_addShared]

theorem feedKey_injective : Function.Injective feedKey := fun _ _ h =>
  EventKind.wireName_injective ((String.append_right_inj _).mp h)

/-- The roster keys are held by `v` views, and not at all when `v` is zero. -/
def FeedHolders (v : Nat) (s : Session) : Prop :=
  ∀ kind online, (kind, online) ∈ feeds →
    s.registry.holders? (feedKey kind) = if v = 0 then none else some v

/-- The other operations leave the roster keys alone. -/
theorem SharedSound.holders_step (h : SharedSound s) {a : Step} (ha : a.Sharing) (kind : EventKind) :
    (after a.run s).registry.holders? (feedKey kind) = s.registry.holders? (feedKey kind) := by
  cases a
  case attach =>
    simp only [Step.run, attachServiceStarted, after_bind, after_pure, after_subscribe,
      answer_subscribe, registry_addOnce, Registry.holders?]
    have hk : feedKey kind ≠ serviceStartedKey := feed_key_ne_serviceStartedKey _
    rw [Registry.find?_addOnce_ne _ hk]
  case detach =>
    simp only [Step.run, detachServiceStarted, after_bind, after_pure, Registry.holders?]
    obtain ⟨bus, waits, queue, hf⟩ := after_forceRelease_eq (s := s) serviceStartedKey
    rw [hf]
    simp [Registry.find?_erase, feed_key_ne_serviceStartedKey, feedKey]
  case watchErrors kind' command label =>
    simp only [Step.run, after_bind, after_pure, after_discard, after_subscribe, answer_subscribe,
      registry_addOnce, Registry.holders?]
    have hk : feedKey kind ≠ "errors:" ++ kind'.wireName ++ ":" ++ command.wireName :=
      feed_key_ne_errors_key _ _ _
    rw [Registry.find?_addOnce_ne _ hk]
  case releaseKey key =>
    simp only [Step.run, after_bind, after_pure]
    rw [holders?_releaseKey, if_neg (Ne.symm (ha kind))]
  case publish e =>
    simp only [Step.run, after_bind, after_pure]
    rw [(h.publish_frame e).2.1]
  all_goals exact ha.elim

theorem FeedHolders.step (hv : FeedHolders v s) (h : SharedSound s) {a : Step} (ha : a.Sharing) :
    FeedHolders v (after a.run s) := fun kind online hk =>
  (h.holders_step ha kind).trans (hv kind online hk)

theorem FeedHolders.rosterAttach (hv : FeedHolders v s) :
    FeedHolders (v + 1) (after (Step.run .rosterAttach) s) := by
  intro kind online hk
  have hcc := hv .clientConnected true (by simp [feeds])
  have hcd := hv .clientDisconnected false (by simp [feeds])
  have hne : feedKey .clientConnected ≠ feedKey .clientDisconnected :=
    feedKey_injective.ne (by decide)
  simp only [Step.run, after_bind, after_pure, after_attachRoster, holders?_attachFeed]
  simp only [feeds, List.mem_cons, Prod.mk.injEq, List.not_mem_nil, or_false] at hk
  rcases hk with ⟨rfl, rfl⟩ | ⟨rfl, rfl⟩
  · rw [if_neg hne, if_pos rfl, hcc]
    split <;> simp_all
  · rw [if_pos rfl, if_neg hne.symm, hcd]
    split <;> simp_all

theorem FeedHolders.rosterDetach (hv : FeedHolders (v + 1) s) :
    FeedHolders v (after (Step.run .rosterDetach) s) := by
  intro kind online hk
  have hcc := hv .clientConnected true (by simp [feeds])
  have hcd := hv .clientDisconnected false (by simp [feeds])
  have hne : feedKey .clientConnected ≠ feedKey .clientDisconnected :=
    feedKey_injective.ne (by decide)
  simp only [Step.run, after_bind, after_pure, after_detachRoster, holders?_releaseKey]
  simp only [feeds, List.mem_cons, Prod.mk.injEq, List.not_mem_nil, or_false] at hk
  rcases hk with ⟨rfl, rfl⟩ | ⟨rfl, rfl⟩
  · rw [if_neg hne, if_pos rfl, hcc]
    by_cases hv0 : v = 0 <;> simp [hv0, Nat.pos_iff_ne_zero]
  · rw [if_pos rfl, if_neg hne.symm, hcd]
    by_cases hv0 : v = 0 <;> simp [hv0, Nat.pos_iff_ne_zero]

/-! ## Runs of the sharing users -/

/-- A run of the sharing users from a new session, by any number of callers, with the number of
roster views it leaves attached: a view is detached only while one is attached. -/
inductive SharingRun : Nat → Session → Prop
  | new (refusal : String) : SharingRun 0 (new refusal)
  | attach {v : Nat} {s : Session} :
      SharingRun v s → SharingRun (v + 1) (after (Step.run .rosterAttach) s)
  | detach {v : Nat} {s : Session} :
      SharingRun (v + 1) s → SharingRun v (after (Step.run .rosterDetach) s)
  | step {v : Nat} {s : Session} {a : Step} :
      a.Sharing → SharingRun v s → SharingRun v (after a.run s)

theorem SharingRun.sound (hr : SharingRun v s) : SharedSound s ∧ FeedHolders v s := by
  induction hr with
  | new refusal => exact ⟨.new refusal, fun _ _ _ => rfl⟩
  | attach _ ih => exact ⟨ih.1.rosterAttach, ih.2.rosterAttach⟩
  | detach _ ih => exact ⟨ih.1.rosterDetach, ih.2.rosterDetach⟩
  | step ha _ ih => exact ⟨ih.1.step ha, ih.2.step ih.1 ha⟩

/-- What holds after a run of the sharing users that leaves `v` roster views attached. -/
structure SharedKeysHold (v : Nat) (s : Session) : Prop where
  /-- Each shared key has exactly one handler on its wire name while the registry holds it, and
  none once it has left. -/
  backed : ∀ k : SharedKey, (s.backers k).length = if k.key ∈ s.registry.keys then 1 else 0
  /-- Each roster key is held once per attached view. -/
  holders : FeedHolders v s
  /-- Attaching a view answers how many are attached then. -/
  attach : answer (Step.run .rosterAttach) s = .nat (v + 1)
  /-- Detaching a view answers whether it was the last one. -/
  detach : 0 < v → answer (Step.run .rosterDetach) s = .bool (v == 1)
  /-- A roster notification is taken into the roster once while the feed is attached, and not
  at all while it is not. -/
  reconciled : ∀ e online, (e.kind, online) ∈ feeds →
    (after (Step.run (.publish e)) s).roster =
      if v = 0 then s.roster else (after (feedRoster e online) s).roster

theorem shared_keys_backed_once (hr : SharingRun v s) : SharedKeysHold v s := by
  obtain ⟨h, hv⟩ := hr.sound
  have hcc := hv .clientConnected true (by simp [feeds])
  have hcd := hv .clientDisconnected false (by simp [feeds])
  have hne : feedKey .clientConnected ≠ feedKey .clientDisconnected :=
    feedKey_injective.ne (by decide)
  refine ⟨h.backers_length, hv, ?_, fun hpos => ?_, fun e online hk => ?_⟩
  · -- the second kind's key still has `v` holders when it is joined
    simp only [Step.run, answer_bind, answer_pure, answer_attachRoster, answer_attachFeed,
      holders?_attachFeed, if_neg hne.symm, hcd]
    by_cases hv0 : v = 0 <;> simp [hv0]
  · -- each release leaves `v - 1` holders, tearing the key down only when `v` is one
    simp only [Step.run, answer_bind, answer_pure, answer_detachRoster, answer_releaseKey,
      holders?_releaseKey, if_neg hne.symm, hcc, hcd, if_neg (Nat.pos_iff_ne_zero.mp hpos)]
    by_cases hv1 : v = 1
    · simp [hv1]
    · have hlt : 1 < v := by omega
      simp [hv1, hlt]
  · have hkeys : feedKey e.kind ∈ s.registry.keys ↔ v ≠ 0 := by
      rw [← Registry.contains_iff, Registry.contains, ← Option.isSome_map (f := (·.holders)),
        ← Registry.holders?, hv e.kind online hk]
      by_cases hv0 : v = 0 <;> simp [hv0]
    simp only [Step.run, after_bind, after_pure]
    rw [h.roster_publish hk]
    by_cases hv0 : v = 0 <;> simp [hv0, hkeys]

/-- Two views attached, an error watch taken, one view detached. -/
theorem shared_keys_backed_once_two_views :
    SharingRun 1 (after (Step.run .rosterDetach)
      (after (Step.run (.watchErrors .commandError .status "status"))
        (after (Step.run .rosterAttach) (after (Step.run .rosterAttach) (new ""))))) ∧
    SharedKeysHold 1 (after (Step.run .rosterDetach)
      (after (Step.run (.watchErrors .commandError .status "status"))
        (after (Step.run .rosterAttach) (after (Step.run .rosterAttach) (new ""))))) :=
  have hr : SharingRun 1 (after (Step.run .rosterDetach)
      (after (Step.run (.watchErrors .commandError .status "status"))
        (after (Step.run .rosterAttach) (after (Step.run .rosterAttach) (new ""))))) :=
    .detach (.step trivial (.attach (.attach (.new ""))))
  ⟨hr, shared_keys_backed_once hr⟩

end Session

end DaemonBridge
