import Mathlib
import DaemonBridge.Proofs.Session.Effects
import DaemonBridge.Proofs.Session.WaitKeys
import DaemonBridge.Proofs.Registry.Basic

/-!
# Open waits

A command's wait is *open* while the registry holds an entry whose release ends it. The invariant
`WaitsSound` says how open waits, the registry and the bus hang together in every state a session
reaches:

* the entry of an open wait sits under the wait's own key, with one holder, and lists exactly the
  bus subscriptions that answer the wait;
* an open wait answers on its task's success kind, and on its failure kind when that differs; a
  closed wait answers on nothing;
* an open wait's slot is still empty, and its task is sending the command or waiting for the
  result (or is the task being started, `cur`);
* the wait a task's stage shows is one the task opened.

The other entries release subscriptions of their own and sit under keys that are no wait's.

This module gives the vocabulary, the invariant, and its preservation by everything that takes
entries out of the registry (`forceRelease`, `releaseKey`, `releaseAll`): each runs the releases
of the entries it took out, and `release_step` shows that running one such release restores the
invariant for the registry without that entry.
-/

namespace DaemonBridge

namespace EventBus

variable {α : Type} {bus : EventBus α}

@[simp] theorem subscriptions_subscribe (name : String) (h : α) :
    (bus.subscribe name h).2.subscriptions = bus.subscriptions ++ [⟨bus.nextId, name, h⟩] := rfl

@[simp] theorem nextId_subscribe (name : String) (h : α) :
    (bus.subscribe name h).2.nextId = bus.nextId + 1 := rfl

@[simp] theorem subscriptions_unsubscribe (name : String) (id : Nat) :
    (bus.unsubscribe name id).subscriptions =
      bus.subscriptions.filter fun s => !(s.id == id && s.name == name) := rfl

@[simp] theorem nextId_unsubscribe (name : String) (id : Nat) :
    (bus.unsubscribe name id).nextId = bus.nextId := rfl

/-- Removing a list of subscriptions keeps those it does not name. -/
theorem unsubscribeAll (hs : List (String × Nat)) :
    (hs.foldl (fun b (p : String × Nat) => b.unsubscribe p.1 p.2) bus) =
      { bus with subscriptions := bus.subscriptions.filter fun s => (s.name, s.id) ∉ hs } := by
  induction hs generalizing bus with
  | nil => simp
  | cons p rest ih =>
    simp only [List.foldl_cons, ih, subscriptions_unsubscribe, nextId_unsubscribe, List.filter_filter]
    congr 2
    funext s
    simp only [List.mem_cons, not_or, Bool.decide_and, Bool.and_comm]
    congr 1
    obtain ⟨n, i⟩ := p
    by_cases h1 : s.id = i <;> by_cases h2 : s.name = n <;> simp [h1, h2]

end EventBus

namespace Session

/-- The wait a handler answers, if it answers one. -/
def Handler.wait? : Handler → Option Nat
  | .waitSuccess w _ _ | .waitError w _ => some w
  | _ => none

/-- The wait a release ends, if it ends one. -/
def Release.wait? : Release → Option Nat
  | .wait w _ => some w
  | .unsubscribe .. => none

/-- The wait a task is on while it sends its command or waits for the result. -/
def Stage.wait? : Stage → Option Nat
  | .sending w | .awaiting w _ => some w
  | _ => none

/-- The subscriptions an open wait of a task holds: one on the success kind, and one on the
failure kind when that differs. -/
def Job.waitHandlers (j : Job) (w : Nat) : List (String × Handler) :=
  (j.success.wireName, .waitSuccess w j.command j.target?) ::
    if j.failure = j.success then [] else [(j.failure.wireName, .waitError w j.command)]

/-- The subscriptions that answer wait `w`, with their wire names, in subscription order. -/
def waitHandlers (s : Session) (w : Nat) : List (String × Handler) :=
  (s.bus.subscriptions.filter (·.handler.wait? == some w)).map fun sub => (sub.name, sub.handler)

/-- The wire names and ids of the subscriptions that answer wait `w`. -/
def waitHandles (s : Session) (w : Nat) : List (String × Nat) :=
  (s.bus.subscriptions.filter (·.handler.wait? == some w)).map fun sub => (sub.name, sub.id)

/-- Wait `w` is open: an entry of the registry ends it when released. -/
def Open (s : Session) (w : Nat) : Prop := ∃ p ∈ s.registry.entries, p.2.token.wait? = some w

/-- The session with its registry's entries replaced. -/
def withEntries (s : Session) (entries : List (String × Registry.Entry Release)) : Session :=
  { s with registry := ⟨entries⟩ }

/-- How open waits, the registry and the bus hang together. `cur` is the task being started,
with the wait it has opened, whose stage does not show the wait yet. -/
structure WaitsSound (cur : Option (Nat × Nat)) (s : Session) : Prop where
  keys_nodup : s.registry.keys.Nodup
  ids_nodup : (s.bus.subscriptions.map (·.id)).Nodup
  ids_lt : ∀ sub ∈ s.bus.subscriptions, sub.id < s.bus.nextId
  handler_lt : ∀ sub ∈ s.bus.subscriptions, ∀ w, sub.handler.wait? = some w → w < s.waits.length
  open_entry : ∀ p ∈ s.registry.entries, ∀ w hs, p.2.token = .wait w hs →
    ∃ x, s.waits[w]? = some x ∧ p.1 = x.key ∧ p.2.holders = 1 ∧ x.slot = .empty ∧
      hs = s.waitHandles w
  other_entry : ∀ p ∈ s.registry.entries, ∀ n id, p.2.token = .unsubscribe n id →
    ¬ IsWaitKey p.1 ∧ id < s.bus.nextId ∧
      ∀ sub ∈ s.bus.subscriptions, sub.id = id → sub.handler.wait? = none
  wait_key : ∀ w x, s.waits[w]? = some x → x.key = waitKeyOf x.command w
  wait_task : ∀ w x, s.waits[w]? = some x →
    ∃ t, s.tasks[x.owner]? = some t ∧ x.command = t.job.command ∧
      (s.Open w → s.waitHandlers w = t.job.waitHandlers w) ∧ (¬ s.Open w → s.waitHandlers w = [])
  wait_stage : ∀ w x, s.waits[w]? = some x → s.Open w →
    (∃ t, s.tasks[x.owner]? = some t ∧ t.stage.wait? = some w) ∨ cur = some (x.owner, w)
  slot_open : ∀ w x, s.waits[w]? = some x → x.slot = .empty → s.Open w
  cur_wait : ∀ i w, cur = some (i, w) → ∃ x, s.waits[w]? = some x ∧ x.owner = i
  stage_wait : ∀ (j : Nat) (t : Task) (w : Nat), s.tasks[j]? = some t → t.stage.wait? = some w →
    ∃ x : Wait, s.waits[w]? = some x ∧ x.owner = j

variable {c : Option (Nat × Nat)} {s s' : Session} {w : Nat}

theorem Release.wait?_eq_some {r : Release} : r.wait? = some w ↔ ∃ hs, r = .wait w hs := by
  cases r <;> simp [Release.wait?]

/-- An entry that ends wait `w` is the wait's own: the wait exists, under the entry's key, held
once, and nothing came yet. -/
theorem WaitsSound.wait_entry (h : WaitsSound c s) {p : String × Registry.Entry Release}
    (hp : p ∈ s.registry.entries) (hpw : p.2.token.wait? = some w) :
    ∃ x, s.waits[w]? = some x ∧ p.1 = x.key ∧ p.2.holders = 1 ∧ x.slot = .empty := by
  obtain ⟨hs, ht⟩ := Release.wait?_eq_some.mp hpw
  obtain ⟨x, hx, hk, h1, hslot, -⟩ := h.open_entry p hp w hs ht
  exact ⟨x, hx, hk, h1, hslot⟩

/-! ## The bus seen by one wait -/

/-- Filtering the bus with a test that keeps every subscription of wait `w` keeps what answers
`w`. -/
theorem waitHandlers_filter {p : EventBus.Subscription Handler → Bool}
    (hp : ∀ sub ∈ s.bus.subscriptions, sub.handler.wait? = some w → p sub = true)
    (hs : s'.bus.subscriptions = s.bus.subscriptions.filter p) :
    s'.waitHandlers w = s.waitHandlers w ∧ s'.waitHandles w = s.waitHandles w := by
  have hf : s'.bus.subscriptions.filter (·.handler.wait? == some w) =
      s.bus.subscriptions.filter (·.handler.wait? == some w) := by
    rw [hs, List.filter_filter]
    apply List.filter_congr
    intro sub hsub
    by_cases hw : sub.handler.wait? = some w <;> simp [hw, hp sub hsub]
  exact ⟨by simp only [waitHandlers, hf], by simp only [waitHandles, hf]⟩

/-- Taking every subscription of wait `w` off the bus leaves nothing that answers `w`. -/
theorem waitHandlers_closed
    (hs : s'.bus.subscriptions = s.bus.subscriptions.filter fun sub => sub.handler.wait? ≠ some w) :
    s'.waitHandlers w = [] ∧ s'.waitHandles w = [] := by
  have hf : s'.bus.subscriptions.filter (·.handler.wait? == some w) = [] := by
    rw [hs, List.filter_filter, List.filter_eq_nil_iff]
    intro sub _
    by_cases hw : sub.handler.wait? = some w <;> simp [hw]
  exact ⟨by simp [waitHandlers, hf], by simp [waitHandles, hf]⟩

/-- With ids unique, the listed handles of wait `w` are exactly its subscriptions. -/
theorem mem_waitHandles_iff (hid : (s.bus.subscriptions.map (·.id)).Nodup)
    {sub : EventBus.Subscription Handler} (hsub : sub ∈ s.bus.subscriptions) :
    (sub.name, sub.id) ∈ s.waitHandles w ↔ sub.handler.wait? = some w := by
  simp only [waitHandles, List.mem_map, List.mem_filter, beq_iff_eq, Prod.mk.injEq]
  constructor
  · rintro ⟨sub', ⟨hsub', hw⟩, -, hid'⟩
    rwa [List.inj_on_of_nodup_map hid hsub' hsub hid'] at hw
  · intro hw
    exact ⟨sub, ⟨hsub, hw⟩, rfl, rfl⟩

/-! ## Congruence -/

theorem waitHandlers_congr (h : s'.bus = s.bus) :
    s'.waitHandlers = s.waitHandlers ∧ s'.waitHandles = s.waitHandles := by
  constructor <;> funext w <;> simp [waitHandlers, waitHandles, h]

/-- The invariant reads the bus, the registry, the waits and the tasks only. -/
theorem WaitsSound.of_eq (h : WaitsSound c s) (hb : s'.bus = s.bus) (hr : s'.registry = s.registry)
    (hw : s'.waits = s.waits) (ht : s'.tasks = s.tasks) : WaitsSound c s' := by
  obtain ⟨hwh, hwd⟩ := waitHandlers_congr hb
  have ho : s'.Open = s.Open := by funext w; simp [Open, hr]
  exact ⟨by rw [hr]; exact h.keys_nodup, by rw [hb]; exact h.ids_nodup,
    by rw [hb]; exact h.ids_lt, by rw [hb, hw]; exact h.handler_lt,
    by rw [hr, hw, hwd]; exact h.open_entry, by rw [hr, hb]; exact h.other_entry,
    by rw [hw]; exact h.wait_key, by rw [hw, ht, hwh, ho]; exact h.wait_task,
    by rw [hw, ht, ho]; exact h.wait_stage, by rw [hw, ho]; exact h.slot_open,
    by rw [hw]; exact h.cur_wait, by rw [hw, ht]; exact h.stage_wait⟩

/-- The invariant does not depend on the order of the registry's entries. -/
theorem WaitsSound.withEntries_perm (h : WaitsSound c s)
    {R : List (String × Registry.Entry Release)} (hR : (R.map Prod.fst).Nodup)
    (hmem : ∀ p, p ∈ R ↔ p ∈ s.registry.entries) : WaitsSound c (s.withEntries R) := by
  have ho : (s.withEntries R).Open = s.Open := by funext w; simp [Open, withEntries, hmem]
  exact ⟨hR, h.ids_nodup, h.ids_lt, h.handler_lt,
    fun p hp => h.open_entry p ((hmem p).mp hp), fun p hp => h.other_entry p ((hmem p).mp hp),
    h.wait_key, by rw [ho]; exact h.wait_task, by rw [ho]; exact h.wait_stage,
    by rw [ho]; exact h.slot_open, h.cur_wait, h.stage_wait⟩

/-- Two entries that end the same wait are one entry. -/
theorem WaitsSound.entry_unique (h : WaitsSound c s) {p q : String × Registry.Entry Release}
    (hp : p ∈ s.registry.entries) (hq : q ∈ s.registry.entries)
    (hpw : p.2.token.wait? = some w) (hqw : q.2.token.wait? = some w) : p = q := by
  -- both sit under the wait's key, and no key is held twice
  obtain ⟨x, hx, hk₁, -⟩ := h.wait_entry hp hpw
  obtain ⟨x', hx', hk₂, -⟩ := h.wait_entry hq hqw
  rw [hx] at hx'
  cases hx'
  exact List.inj_on_of_nodup_map h.keys_nodup hp hq (hk₁.trans hk₂.symm)

/-! ## Running a release taken out of the registry -/

theorem withEntries_cons_nodup {p : String × Registry.Entry Release} {R}
    (h : WaitsSound c (s.withEntries (p :: R))) : (R.map Prod.fst).Nodup ∧ p ∉ R := by
  have hk : (p.1 :: R.map Prod.fst).Nodup := by simpa [Registry.keys, withEntries] using h.keys_nodup
  exact ⟨hk.of_cons, fun hp => (List.nodup_cons.mp hk).1 (List.mem_map_of_mem hp)⟩

/-- Taking out an entry that ends no wait. -/
theorem WaitsSound.drop_unsubscribe {R} {k : String} {e : Registry.Entry Release} {n : String}
    {id : Nat} (h : WaitsSound c (s.withEntries ((k, e) :: R))) (he : e.token = .unsubscribe n id) :
    WaitsSound c (s.withEntries R) := by
  obtain ⟨hR, -⟩ := withEntries_cons_nodup h
  have ho : (s.withEntries R).Open = (s.withEntries ((k, e) :: R)).Open := by
    funext w; simp [Open, withEntries, he, Release.wait?]
  exact ⟨hR, h.ids_nodup, h.ids_lt, h.handler_lt,
    fun p hp => h.open_entry p (List.mem_cons_of_mem _ hp),
    fun p hp => h.other_entry p (List.mem_cons_of_mem _ hp), h.wait_key,
    by rw [ho]; exact h.wait_task, by rw [ho]; exact h.wait_stage, by rw [ho]; exact h.slot_open,
    h.cur_wait, h.stage_wait⟩

/-- Taking a subscription that answers no wait off the bus. -/
theorem WaitsSound.unsubscribe {n : String} {id : Nat} (h : WaitsSound c s)
    (hid : ∀ sub ∈ s.bus.subscriptions, sub.id = id → sub.handler.wait? = none) :
    WaitsSound c { s with bus := s.bus.unsubscribe n id } := by
  set S : Session := { s with bus := s.bus.unsubscribe n id }
  have hsubs : S.bus.subscriptions ⊆ s.bus.subscriptions := List.filter_sublist.subset
  -- the subscriptions taken off answer no wait, so every wait is answered as before
  have hkeep : ∀ w, S.waitHandlers w = s.waitHandlers w ∧ S.waitHandles w = s.waitHandles w :=
    fun w => waitHandlers_filter (fun sub hs hw => by
      have : sub.id ≠ id := fun hi => by simp [hid sub hs hi] at hw
      simp [this]) rfl
  have hw' : S.waitHandlers = s.waitHandlers := funext fun w => (hkeep w).1
  have hd' : S.waitHandles = s.waitHandles := funext fun w => (hkeep w).2
  refine ⟨h.keys_nodup, h.ids_nodup.sublist (List.Sublist.map _ List.filter_sublist),
    fun sub hs => h.ids_lt sub (hsubs hs), fun sub hs => h.handler_lt sub (hsubs hs),
    by rw [hd']; exact h.open_entry, fun q hq n' id' hq' => ?_, h.wait_key,
    by rw [hw']; exact h.wait_task, h.wait_stage, h.slot_open, h.cur_wait, h.stage_wait⟩
  obtain ⟨hk, hlt, hs⟩ := h.other_entry q hq n' id' hq'
  exact ⟨hk, hlt, fun sub hsub' => hs sub (hsubs hsub')⟩

/-- Releasing a subscription that answers no wait. -/
theorem WaitsSound.release_unsubscribe {R} {k : String} {e : Registry.Entry Release} {n : String}
    {id : Nat} (h : WaitsSound c (s.withEntries ((k, e) :: R))) (he : e.token = .unsubscribe n id) :
    WaitsSound c (after (runRelease (.unsubscribe n id)) (s.withEntries R)) := by
  obtain ⟨-, -, hsub⟩ := h.other_entry (k, e) (by simp [withEntries]) n id he
  rw [after_runRelease_unsubscribe]
  exact (h.drop_unsubscribe he).unsubscribe hsub

/-- Waking a task changes nothing the invariant reads. -/
theorem WaitsSound.wake (h : WaitsSound c s) (i : Nat) : WaitsSound c (after (wake i) s) := by
  obtain ⟨q, hq⟩ := after_wake_eq (s := s) i
  exact h.of_eq (by rw [hq]) (by rw [hq]) (by rw [hq]) (by rw [hq])

/-- The state after an open wait `w` is closed: its subscriptions are off the bus, its entry
out of the registry, its slot no longer empty. -/
theorem WaitsSound.closed {R} {k : String} {e : Registry.Entry Release} {x : Wait} {v : Slot}
    (h : WaitsSound c (s.withEntries ((k, e) :: R))) (he : e.token.wait? = some w)
    (hx : s.waits[w]? = some x) (hv : v ≠ .empty) {S : Session}
    (hsub : S.bus.subscriptions = s.bus.subscriptions.filter fun sub => sub.handler.wait? ≠ some w)
    (hnext : S.bus.nextId = s.bus.nextId) (hreg : S.registry = ⟨R⟩)
    (hw : S.waits = s.waits.modify w fun x => { x with slot := v })
    (ht : S.tasks = s.tasks) : WaitsSound c S := by
  obtain ⟨hR, hpR⟩ := withEntries_cons_nodup h
  have hsubs : S.bus.subscriptions ⊆ s.bus.subscriptions := by
    rw [hsub]; exact List.filter_sublist.subset
  -- wait `w` is closed now; every other wait is answered and held as before
  have hclosed := waitHandlers_closed hsub
  have hother : ∀ w', w' ≠ w → S.waitHandlers w' = s.waitHandlers w' ∧
      S.waitHandles w' = s.waitHandles w' := fun w' hw' => waitHandlers_filter (fun sub _ hsw => by
        simp [hsw, hw']) hsub
  have hwaits : ∀ w', S.waits[w']? = if w = w' then some { x with slot := v } else s.waits[w']? := by
    intro w'
    by_cases hww : w = w'
    · subst hww; simp [hw, hx]
    · simp [hw, hww]
  -- every wait keeps its task
  have howner : ∀ (w' : Nat) (y : Wait), s.waits[w']? = some y →
      ∃ y' : Wait, S.waits[w']? = some y' ∧ y'.owner = y.owner := by
    intro w' y hy
    rw [hwaits]
    split
    · next hww => subst hww; rw [hx] at hy; cases hy; exact ⟨_, rfl, rfl⟩
    · exact ⟨y, hy, rfl⟩
  have hnotR : ∀ p ∈ R, p.2.token.wait? ≠ some w := fun p hp hpw =>
    hpR (h.entry_unique (List.mem_cons_of_mem _ hp) (List.mem_cons_self ..) hpw he ▸ hp)
  have ho : ∀ w', S.Open w' ↔ (s.withEntries ((k, e) :: R)).Open w' ∧ w' ≠ w := by
    intro w'
    simp only [Open, hreg, withEntries, List.mem_cons, exists_eq_or_imp]
    constructor
    · rintro ⟨p, hp, hpw⟩
      exact ⟨Or.inr ⟨p, hp, hpw⟩, fun hw => hnotR p hp (hw ▸ hpw)⟩
    · rintro ⟨hw | hw, hne⟩
      · exact absurd (he.symm.trans hw) (by simpa using Ne.symm hne)
      · exact hw
  refine ⟨by simpa [Registry.keys, hreg] using hR,
    by rw [hsub]; exact h.ids_nodup.sublist (List.Sublist.map _ List.filter_sublist),
    fun sub hs => hnext ▸ h.ids_lt sub (hsubs hs),
    fun sub hs w' hw' => by rw [hw, List.length_modify]; exact h.handler_lt sub (hsubs hs) w' hw',
    fun q hq w' hs' hq' => ?_, fun q hq n id hq' => ?_, ?_, ?_, ?_, ?_, ?_, ?_⟩
  · rw [hreg] at hq
    have hne : w' ≠ w := fun hww => hnotR q hq (by simp [hq', hww, Release.wait?])
    obtain ⟨y, hy, hk, h1, hslot, hhs⟩ := h.open_entry q (List.mem_cons_of_mem _ hq) w' hs' hq'
    refine ⟨y, by rw [hwaits, if_neg (Ne.symm hne)]; exact hy, hk, h1, hslot, ?_⟩
    rw [(hother w' hne).2]; exact hhs
  · rw [hreg] at hq
    obtain ⟨hk, hlt, hs⟩ := h.other_entry q (List.mem_cons_of_mem _ hq) n id hq'
    exact ⟨hk, hnext ▸ hlt, fun sub hsub' => hs sub (hsubs hsub')⟩
  · intro w' y hy
    rw [hwaits] at hy
    split at hy
    · next hww =>
      subst hww; cases hy
      exact h.wait_key w x hx
    · exact h.wait_key w' y hy
  · intro w' y hy
    rw [hwaits] at hy
    split at hy
    · next hww =>
      subst hww; cases hy
      obtain ⟨t, ht', hc, -, -⟩ := h.wait_task w x hx
      exact ⟨t, by rw [ht]; exact ht', hc, fun hS => absurd rfl ((ho w).mp hS).2, fun _ => hclosed.1⟩
    · next hww =>
      have hne : w' ≠ w := Ne.symm hww
      obtain ⟨t, ht', hc, hop, hcl⟩ := h.wait_task w' y hy
      refine ⟨t, by rw [ht]; exact ht', hc, fun hS => ?_, fun hS => ?_⟩
      · rw [(hother w' hne).1]; exact hop ((ho w').mp hS).1
      · rw [(hother w' hne).1]; exact hcl fun hS' => hS ((ho w').mpr ⟨hS', hne⟩)
  · intro w' y hy hS
    obtain ⟨hS', hne⟩ := (ho w').mp hS
    rw [hwaits, if_neg (Ne.symm hne)] at hy
    rw [ht]
    exact h.wait_stage w' y hy hS'
  · intro w' y hy hempty
    rw [hwaits] at hy
    split at hy
    · next => cases hy; exact absurd hempty hv
    · next hww => exact (ho w').mpr ⟨h.slot_open w' y hy hempty, fun hw' => hww hw'.symm⟩
  · intro i w' hc
    obtain ⟨y, hy, hown⟩ := h.cur_wait i w' hc
    exact hown ▸ howner w' y hy
  · intro j t w' ht' hw'
    obtain ⟨y, hy, hown⟩ := h.stage_wait j t w' (ht ▸ ht') hw'
    exact hown ▸ howner w' y hy

/-- Releasing an open wait: its subscriptions come off the bus and its slot is dropped. -/
theorem WaitsSound.release_wait {R} {k : String} {e : Registry.Entry Release}
    {hs : List (String × Nat)} (h : WaitsSound c (s.withEntries ((k, e) :: R)))
    (he : e.token = .wait w hs) :
    WaitsSound c (after (runRelease (.wait w hs)) (s.withEntries R)) := by
  obtain ⟨x, hx, -, -, hslot, hhs⟩ := h.open_entry (k, e) (by simp [withEntries]) w hs he
  rw [after_runRelease_wait, after_dropSlot_empty (x := x) ?_ hslot]
  · apply WaitsSound.wake
    refine WaitsSound.closed h (by simp [he, Release.wait?]) hx (by simp) ?_ ?_ rfl rfl rfl
    · -- the handles the entry lists are exactly the subscriptions of wait `w`
      simp only [EventBus.unsubscribeAll]
      apply List.filter_congr
      intro sub hsub
      simp only [hhs, mem_waitHandles_iff h.ids_nodup hsub]
    · simp [EventBus.unsubscribeAll, withEntries]
  · exact hx

/-- Running a release taken out of the registry, whatever it ends. -/
theorem WaitsSound.release_step {R} {k : String} {e : Registry.Entry Release}
    (h : WaitsSound c (s.withEntries ((k, e) :: R))) :
    WaitsSound c (after (runRelease e.token) (s.withEntries R)) := by
  cases he : e.token with
  | wait w hs => exact h.release_wait he
  | unsubscribe n id => exact h.release_unsubscribe he

/-- A release does not read or change the registry. -/
theorem after_runRelease_withEntries (r : Release) (R : List (String × Registry.Entry Release)) :
    after (runRelease r) (s.withEntries R) = (after (runRelease r) s).withEntries R := by
  cases r with
  | unsubscribe n id => rfl
  | wait w hs =>
    simp only [after_runRelease_wait, dropSlot, after_bind, answer_wait?, after_wait?]
    cases hx : s.waits[w]? with
    | none => simp [withEntries, hx]
    | some x =>
      by_cases hslot : x.slot = .empty
      · simp [withEntries, hx, hslot]
        split <;> rfl
      · simp [withEntries, hx, hslot]

/-! ## Taking entries out -/

/-- The entry of a held key, put in front of the others. -/
theorem WaitsSound.erase_cons {k : String} {e : Registry.Entry Release} (h : WaitsSound c s)
    (hf : s.registry.find? k = some e) :
    WaitsSound c (s.withEntries ((k, e) :: (s.registry.erase k).entries)) := by
  refine h.withEntries_perm ?_ fun ⟨k', e'⟩ => ?_
  · show (k :: (s.registry.erase k).keys).Nodup
    exact List.nodup_cons.mpr ⟨Registry.not_mem_keys_erase, Registry.keys_erase_nodup h.keys_nodup⟩
  · simp only [List.mem_cons, Registry.mem_erase, Prod.mk.injEq]
    constructor
    · rintro (⟨rfl, rfl⟩ | ⟨hp, -⟩)
      · exact Registry.mem_of_find? hf
      · exact hp
    · intro hp
      by_cases hk : k' = k
      · subst hk
        have he := (Registry.find?_eq_some_iff h.keys_nodup).mpr hp
        rw [hf] at he
        exact Or.inl ⟨rfl, (Option.some.inj he).symm⟩
      · exact Or.inr ⟨hp, hk⟩

theorem WaitsSound.forceRelease (h : WaitsSound c s) (key : String) :
    WaitsSound c (after (Session.forceRelease key) s) := by
  cases hf : s.registry.find? key with
  | none => rw [after_forceRelease_none hf]; exact h
  | some e =>
    rw [after_forceRelease_some hf]
    exact (h.erase_cons hf).release_step

/-- Changing the entries one by one, keeping each key and token and every entry that ends a
wait. -/
theorem WaitsSound.map_entries (h : WaitsSound c s)
    {g : String × Registry.Entry Release → String × Registry.Entry Release}
    (hkey : ∀ p, (g p).1 = p.1) (htok : ∀ p, (g p).2.token = p.2.token)
    (hwait : ∀ p ∈ s.registry.entries, p.2.token.wait?.isSome → g p = p) :
    WaitsSound c { s with registry := ⟨s.registry.entries.map g⟩ } := by
  have ho : Open { s with registry := ⟨s.registry.entries.map g⟩ } = s.Open := by
    funext w
    simp only [Open, List.mem_map, eq_iff_iff]
    constructor
    · rintro ⟨_, ⟨q, hq, rfl⟩, hw⟩
      exact ⟨q, hq, htok q ▸ hw⟩
    · rintro ⟨q, hq, hw⟩
      exact ⟨g q, ⟨q, hq, rfl⟩, (htok q).symm ▸ hw⟩
  refine ⟨?_, h.ids_nodup, h.ids_lt, h.handler_lt, fun p hp w hs hpt => ?_,
    fun p hp n id hpt => ?_, h.wait_key, by rw [ho]; exact h.wait_task,
    by rw [ho]; exact h.wait_stage, by rw [ho]; exact h.slot_open, h.cur_wait, h.stage_wait⟩
  · have hk : (s.registry.entries.map g).map Prod.fst = s.registry.keys := by
      simp [Registry.keys, Function.comp_def, hkey]
    show ((s.registry.entries.map g).map Prod.fst).Nodup
    rw [hk]
    exact h.keys_nodup
  · obtain ⟨q, hq, rfl⟩ := List.mem_map.mp hp
    have hgq := hwait q hq (by rw [← htok q, hpt]; rfl)
    rw [hgq] at hpt ⊢
    exact h.open_entry q hq w hs hpt
  · obtain ⟨q, hq, rfl⟩ := List.mem_map.mp hp
    rw [htok] at hpt
    rw [hkey]
    exact h.other_entry q hq n id hpt

/-- The entry of an open wait has one holder, so a key held more than once ends no wait. -/
theorem WaitsSound.holders_of_wait (h : WaitsSound c s) {p : String × Registry.Entry Release}
    (hp : p ∈ s.registry.entries) (hw : p.2.token.wait?.isSome) : p.2.holders = 1 := by
  obtain ⟨w, hpw⟩ := Option.isSome_iff_exists.mp hw
  obtain ⟨x, -, -, h1, -⟩ := h.wait_entry hp hpw
  exact h1

theorem WaitsSound.leave {k : String} {e : Registry.Entry Release} (h : WaitsSound c s)
    (hf : s.registry.find? k = some e) (hn : 1 < e.holders) :
    WaitsSound c { s with registry := s.registry.leave k } := by
  refine h.map_entries (fun ⟨k', e'⟩ => by dsimp only; split <;> rfl)
    (fun ⟨k', e'⟩ => by dsimp only; split <;> rfl) fun ⟨k', e'⟩ hp hw => ?_
  have hne : k' ≠ k := by
    rintro rfl
    have he := (Registry.find?_eq_some_iff h.keys_nodup).mpr hp
    rw [hf] at he
    cases he
    have := h.holders_of_wait hp hw
    simp only at this
    omega
  simp [hne]

theorem WaitsSound.releaseKey (h : WaitsSound c s) (key : String) :
    WaitsSound c (after (Session.releaseKey key) s) := by
  cases hf : s.registry.find? key with
  | none => rw [after_releaseKey_none hf]; exact h.of_eq rfl rfl rfl rfl
  | some e =>
    by_cases hn : 1 < e.holders
    · rw [after_releaseKey_held hf hn]; exact h.leave hf hn
    · rw [after_releaseKey_last hf hn]; exact (h.erase_cons hf).release_step

theorem WaitsSound.releaseAll (h : WaitsSound c s) : WaitsSound c (after Session.releaseAll s) := by
  rw [after_releaseAll]
  -- the releases run in order; before each, the invariant holds with the entries still to run
  suffices hrun : ∀ (R : List (String × Registry.Entry Release)) (t : Session),
      WaitsSound c (t.withEntries R) →
      WaitsSound c ((R.map (·.2.token)).foldl (fun t r => after (runRelease r) t) (t.withEntries [])) from
    hrun s.registry.entries s h
  intro R
  induction R with
  | nil => exact fun t ht => ht
  | cons p R ih =>
    intro t ht
    obtain ⟨k, e⟩ := p
    have hstep := ht.release_step
    rw [after_runRelease_withEntries] at hstep
    simp only [List.map_cons, List.foldl_cons]
    rw [after_runRelease_withEntries]
    exact ih _ hstep

end Session

end DaemonBridge
