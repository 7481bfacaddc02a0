import Mathlib
import DaemonBridge.Transport.Bus

/-!
# Delivery under re-entrancy

A handler runs with the bus unlocked: it may subscribe, run an `Unsubscribe`, or publish again
while a publication is being delivered. Code using a bus is a machine here. Its configuration is
the bus with every subscription made on it so far (`Traced`), and the operations left to run,
among them the calls a publication has queued (`Op.call`). A publication takes the handlers of
its wire name off the bus and queues a call of each in front of what was left; a call runs any
code at all in front of the rest (`Move.call`). Every interleaving of nested subscriptions,
removals and publications is a run of the machine.

Along every run from a fresh bus, the bus holds exactly the subscriptions made and not yet
removed, in the order they were made, and a subscription's id is its place in that order
(`Traced.Sound`). Hence `delivery_under_reentry`:

* a publication calls the handlers subscribed to its wire name and not yet removed when it
  starts, each once, in the order they subscribed, and returns their number;
* the count of a wire name is the number of subscriptions made to it and not yet removed, and the
  total is that number over all names, the sum of the counts;
* running an `Unsubscribe` removes its own subscription and no other.
-/

namespace DaemonBridge

namespace EventBus

variable {α : Type}

/-- A subscription as its caller made it: the wire name, the handler, the id the bus gave it,
and whether its `Unsubscribe` has run. -/
structure Made (α : Type) where
  name : String
  handler : α
  id : Nat
  removed : Bool

/-- A bus with every subscription made on it, oldest first: the `k`-th made is handle `k`. -/
structure Traced (α : Type) where
  bus : EventBus α := {}
  made : List (Made α) := []

namespace Traced

/-- The subscriptions made and not yet removed, in the order made. -/
def live (t : Traced α) : List (Subscription α) :=
  (t.made.filter (!·.removed)).map fun m => ⟨m.id, m.name, m.handler⟩

/-- Subscribe a handler: the caller keeps the id the bus gives. -/
def subscribe (t : Traced α) (name : String) (h : α) : Traced α :=
  ⟨(t.bus.subscribe name h).2, t.made ++ [⟨name, h, (t.bus.subscribe name h).1, false⟩]⟩

/-- Run the `Unsubscribe` of handle `k`: it removes the id it was given from its wire name. -/
def unsubscribe (t : Traced α) (k : Nat) : Traced α :=
  match t.made[k]? with
  | some m => ⟨t.bus.unsubscribe m.name m.id, t.made.set k { m with removed := true }⟩
  | none => t

/-- The bus holds the subscriptions made and not yet removed, each under the id it was given;
the ids are the handles, and the next one is the next handle. -/
structure Sound (t : Traced α) : Prop where
  subscriptions : t.bus.subscriptions = t.live
  ids : t.made.map (·.id) = List.range t.made.length
  nextId : t.bus.nextId = t.made.length

end Traced

/-- What code does with a bus; `call` is a handler call that a publication has queued. -/
inductive Op (α : Type) where
  | subscribe (name : String) (handler : α)
  | unsubscribe (handle : Nat)
  | publish (name : String)
  | call (id : Nat) (handler : α)

/-- What a move shows: a publication, with the handlers it takes off the bus and the number it
returns; a handler called; or a subscription made or removed. -/
inductive Event (α : Type) where
  | published (name : String) (handlers : List (Nat × α)) (count : Nat)
  | called (id : Nat) (handler : α)
  | changed

/-- One move of code running on a bus. A call runs any code, publications included, ahead of
the calls its publication still has to make. -/
inductive Move : Traced α × List (Op α) → Event α → Traced α × List (Op α) → Prop
  | subscribe (t : Traced α) (name : String) (h : α) (ops : List (Op α)) :
      Move (t, .subscribe name h :: ops) .changed (t.subscribe name h, ops)
  | unsubscribe (t : Traced α) (k : Nat) (ops : List (Op α)) :
      Move (t, .unsubscribe k :: ops) .changed (t.unsubscribe k, ops)
  | publish (t : Traced α) (name : String) (ops : List (Op α)) :
      Move (t, .publish name :: ops)
        (.published name (t.bus.handlersOf name) (t.bus.handlersOf name).length)
        (t, (t.bus.handlersOf name).map (fun p => .call p.1 p.2) ++ ops)
  | call (t : Traced α) (id : Nat) (h : α) (body ops : List (Op α)) :
      Move (t, .call id h :: ops) (.called id h) (t, body ++ ops)

/-- The configurations code reaches from a fresh bus. -/
inductive Reachable : Traced α × List (Op α) → Prop
  | start (ops : List (Op α)) : Reachable ({}, ops)
  | move {c c' : Traced α × List (Op α)} {e : Event α} : Reachable c → Move c e c' → Reachable c'

namespace Traced

variable {t : Traced α}

/-! ## The bus follows the subscriptions made -/

theorem Sound.empty : Sound ({} : Traced α) := ⟨rfl, rfl, rfl⟩

theorem Sound.subscribe (h : t.Sound) (name : String) (x : α) : (t.subscribe name x).Sound := by
  refine ⟨?_, ?_, ?_⟩
  · simp [Traced.subscribe, live, h.subscriptions, EventBus.subscribe, h.nextId]
  · simp [Traced.subscribe, h.ids, EventBus.subscribe, h.nextId, List.range_succ]
  · simp [Traced.subscribe, EventBus.subscribe, h.nextId]

/-- Handle `k` splits the subscriptions made into those before it, itself, and those after. -/
theorem split_made {k : Nat} {m : Made α} (hk : t.made[k]? = some m) :
    ∃ pre post, t.made = pre ++ m :: post ∧ pre.length = k := by
  obtain ⟨hlt, rfl⟩ := List.getElem?_eq_some_iff.mp hk
  exact ⟨t.made.take k, t.made.drop (k + 1),
    by rw [← List.drop_eq_getElem_cons hlt, List.take_append_drop], by simp; omega⟩

/-- Running the `Unsubscribe` of handle `k` takes its subscription, if still there, off the
subscriptions made and not yet removed, and keeps the others in order. -/
theorem live_unsubscribe (h : t.Sound) {k : Nat} {m : Made α} (hk : t.made[k]? = some m) :
    ∃ pre post, t.live = pre ++ (if m.removed then [] else [⟨m.id, m.name, m.handler⟩]) ++ post ∧
      (t.unsubscribe k).live = pre ++ post ∧
      (t.unsubscribe k).bus.subscriptions = t.bus.subscriptions.filter
        (fun s => !(s.id == m.id && s.name == m.name)) ∧
      ∀ s ∈ pre ++ post, s.id ≠ m.id := by
  obtain ⟨pre, post, hmade, hlen⟩ := split_made hk
  -- the ids of the other subscriptions made differ from `m`'s, the ids being the handles
  have hnodup : (t.made.map (·.id)).Nodup := h.ids ▸ List.nodup_range
  rw [hmade] at hnodup
  simp only [List.map_append, List.map_cons, List.nodup_append, List.nodup_cons] at hnodup
  have hne : ∀ m' ∈ pre ++ post, m'.id ≠ m.id := by
    intro m' hm' he
    rcases List.mem_append.mp hm' with hm' | hm'
    · exact hnodup.2.2 _ (List.mem_map_of_mem hm') _ (by simp) he
    · exact hnodup.2.1.1 (he ▸ List.mem_map_of_mem hm')
  refine ⟨(pre.filter (!·.removed)).map (fun m => ⟨m.id, m.name, m.handler⟩),
    (post.filter (!·.removed)).map (fun m => ⟨m.id, m.name, m.handler⟩), ?_, ?_, ?_, ?_⟩
  · rw [live, hmade]
    cases hm : m.removed <;> simp [hm]
  · simp only [Traced.unsubscribe, hk, live]
    rw [hmade, List.set_append_right _ _ (by omega), hlen, Nat.sub_self, List.set_cons_zero]
    simp
  · simp only [Traced.unsubscribe, hk, EventBus.unsubscribe]
  · intro s hs
    simp only [← List.map_append, ← List.filter_append, List.mem_map, List.mem_filter] at hs
    obtain ⟨m', ⟨hm', -⟩, rfl⟩ := hs
    exact hne m' hm'

theorem Sound.unsubscribe (h : t.Sound) (k : Nat) : (t.unsubscribe k).Sound := by
  cases hk : t.made[k]? with
  | none => simpa [Traced.unsubscribe, hk] using h
  | some m =>
    obtain ⟨pre, post, hlive, hlive', hbus, hne⟩ := live_unsubscribe h hk
    refine ⟨?_, ?_, ?_⟩
    · -- the filter keeps every other subscription, whose id differs, and drops `m`'s
      have hkeep : ∀ l : List (Subscription α), (∀ s ∈ l, s.id ≠ m.id) →
          l.filter (fun s => !(s.id == m.id && s.name == m.name)) = l :=
        fun l hl => List.filter_eq_self.mpr fun s hs => by simp [hl s hs]
      rw [hbus, hlive', h.subscriptions, hlive, List.filter_append, List.filter_append,
        hkeep pre fun s hs => hne s (List.mem_append_left _ hs),
        hkeep post fun s hs => hne s (List.mem_append_right _ hs)]
      cases m.removed <;> simp
    · simp only [Traced.unsubscribe, hk, List.length_set]
      rw [← h.ids]
      apply List.ext_getElem (by simp)
      intro j h₁ h₂
      by_cases hj : j = k
      · subst hj
        simp [(List.getElem?_eq_some_iff.mp hk).2]
      · simp [Ne.symm hj]
    · simpa [Traced.unsubscribe, hk, EventBus.unsubscribe] using h.nextId

/-- Every move keeps the bus following the subscriptions made. -/
theorem Sound.move {c c' : Traced α × List (Op α)} {e : Event α} (h : c.1.Sound) (hm : Move c e c') :
    c'.1.Sound := by
  cases hm with
  | subscribe t name x ops => exact h.subscribe name x
  | unsubscribe t k ops => exact h.unsubscribe k
  | publish => exact h
  | call => exact h

end Traced

theorem Reachable.sound {c : Traced α × List (Op α)} (hc : Reachable c) : c.1.Sound := by
  induction hc with
  | start => exact Traced.Sound.empty
  | move _ hm ih => exact ih.move hm

/-! ## What a sound bus delivers -/

namespace Traced

variable {t : Traced α}

/-- The subscriptions made and not yet removed come in the order made, ids increasing. -/
theorem Sound.ids_lt (h : t.Sound) : (t.live.map (·.id)).Pairwise (· < ·) := by
  have hsub : List.Sublist (t.live.map (·.id)) (t.made.map (·.id)) := by
    rw [live, List.map_map]
    exact List.filter_sublist.map _
  exact List.pairwise_lt_range.sublist (h.ids ▸ hsub)

/-- A publication takes off the bus the subscriptions to its name made and not yet removed. -/
theorem Sound.handlersOf (h : t.Sound) (name : String) :
    t.bus.handlersOf name = ((t.live.filter (·.name == name)).map fun s => (s.id, s.handler)) := by
  rw [EventBus.handlersOf, h.subscriptions]

theorem Sound.handlersOf_ids (h : t.Sound) (name : String) :
    ((t.bus.handlersOf name).map Prod.fst).Pairwise (· < ·) := by
  rw [h.handlersOf, List.map_map]
  exact (h.ids_lt.sublist ((List.filter_sublist).map _))

theorem Sound.count (h : t.Sound) (name : String) :
    t.bus.count name = (t.made.filter fun m => m.name == name && !m.removed).length := by
  rw [EventBus.count, h.subscriptions, live, List.filter_map, List.length_map, List.filter_filter]
  congr 2

theorem Sound.total (h : t.Sound) : t.bus.total = (t.made.filter (!·.removed)).length := by
  simp [EventBus.total, h.subscriptions, live]

end Traced

/-- The total is the sum of the counts of the wire names subscribed to. -/
theorem total_eq_sum_count (bus : EventBus α) :
    bus.total = ((bus.subscriptions.map (·.name)).dedup.map bus.count).sum := by
  have hc : bus.count = fun n => (bus.subscriptions.map (·.name)).count n := by
    funext n
    rw [EventBus.count, List.count, List.countP_map, List.countP_eq_length_filter]
    rfl
  rw [hc, List.sum_map_count_dedup_eq_length, List.length_map, EventBus.total]

/-- What code on a bus can rely on in every configuration it reaches. -/
structure Delivers (c : Traced α × List (Op α)) : Prop where
  /-- A publication calls the handlers subscribed to its name and not yet removed, in the order
  they subscribed, each once, and returns their number. -/
  publish : ∀ (c' : Traced α × List (Op α)) name handlers n, Move c (.published name handlers n) c' →
    handlers = (c.1.live.filter (·.name == name)).map (fun s => (s.id, s.handler)) ∧
      (handlers.map Prod.fst).Pairwise (· < ·) ∧ n = handlers.length ∧
      c'.2 = handlers.map (fun p => .call p.1 p.2) ++ c.2.tail
  /-- The count of a name is the number of subscriptions to it not yet removed. -/
  count : ∀ name, c.1.bus.count name = (c.1.made.filter fun m => m.name == name && !m.removed).length
  /-- The total is the number of subscriptions not yet removed, the sum of the counts. -/
  total : c.1.bus.total = (c.1.made.filter (!·.removed)).length ∧
    c.1.bus.total = ((c.1.bus.subscriptions.map (·.name)).dedup.map c.1.bus.count).sum
  /-- Running an `Unsubscribe` removes its own subscription, if still there, and no other. -/
  unsubscribe : ∀ k m, c.1.made[k]? = some m →
    ∃ pre post, c.1.bus.subscriptions =
        pre ++ (if m.removed then [] else [⟨m.id, m.name, m.handler⟩]) ++ post ∧
      (c.1.unsubscribe k).bus.subscriptions = pre ++ post

/-- Whatever handlers do while a publication is delivered (subscribe, unsubscribe, publish
again), every configuration reached from a fresh bus delivers as the bus promises. -/
theorem delivery_under_reentry {c : Traced α × List (Op α)} (hc : Reachable c) : Delivers c where
  publish c' name handlers n hm := by
    have h := hc.sound
    cases hm
    exact ⟨h.handlersOf name, h.handlersOf_ids name, rfl, rfl⟩
  count := hc.sound.count
  total := ⟨hc.sound.total, total_eq_sum_count _⟩
  unsubscribe k m hk := by
    have h := hc.sound
    obtain ⟨pre, post, hlive, hlive', -, -⟩ := Traced.live_unsubscribe h hk
    exact ⟨pre, post, h.subscriptions.trans hlive,
      (h.unsubscribe k).subscriptions.trans hlive'⟩

/-- Two handlers on `ping`; while the publication is delivered, the first removes the second and
publishes `ping` again. -/
theorem delivery_under_reentry_nested :
    Reachable ((({} : Traced Nat).subscribe "ping" 0).subscribe "ping" 1,
      [.unsubscribe 1, .publish "ping", .call 1 1]) ∧
    Delivers ((({} : Traced Nat).subscribe "ping" 0).subscribe "ping" 1,
      [.unsubscribe 1, .publish "ping", .call 1 1]) :=
  have hc : Reachable ((({} : Traced Nat).subscribe "ping" 0).subscribe "ping" 1,
      [.unsubscribe 1, .publish "ping", .call 1 1]) :=
    (((((Reachable.start [.subscribe "ping" 0, .subscribe "ping" 1, .publish "ping"]).move
      (.subscribe _ _ _ _)).move (.subscribe _ _ _ _)).move (.publish _ _ _)).move
      (.call _ 0 0 [.unsubscribe 1, .publish "ping"] _))
  ⟨hc, delivery_under_reentry hc⟩

end EventBus

end DaemonBridge
