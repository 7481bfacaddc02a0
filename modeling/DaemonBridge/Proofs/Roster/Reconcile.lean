import Mathlib
import DaemonBridge.Proofs.Roster.Keys

/-!
# Reconciling an observation twice

`findRecord` tries the rules in order and takes, for the first rule that accepts some record, the
first record it accepts. Bringing that record up to date keeps every rule that accepted it
accepting it (`accepts_update`), and the record made for an observation that matched nothing is
accepted by the rule of a field the observation has (`accepts_fresh`). So the second time, an
observation matches the record the first reconciliation brought up to date or made
(`findRecord_modify_update`, `findRecord_append_fresh`). Bringing a record up to date twice gives
what bringing it up to date once gives (`update_update`, `update_fresh`), so a repeated
observation leaves the roster as the first one left it (`reconcileAt_idempotent`).
-/

namespace DaemonBridge

namespace Roster

variable {α β γ : Type} {r : Roster} {rs : List ClientRecord} {o : Observation} {online : Bool}
  {seenAt i : Nat} {k : String}

/-! ## Searching lists -/

/-- A search that found the entry at `i` still finds it there once the entry is changed into one
the search also accepts. -/
theorem findIdx?_modify_self {p : α → Bool} {f : α → α} {l : List α} (h : l.findIdx? p = some i)
    (hf : ∀ a, p a = true → p (f a) = true) : (l.modify i f).findIdx? p = some i := by
  obtain ⟨hlt, hp, hbefore⟩ := List.findIdx?_eq_some_iff_getElem.mp h
  refine List.findIdx?_eq_some_iff_getElem.mpr ⟨by simpa using hlt, ?_, fun j hj => ?_⟩
  · simpa [List.getElem_modify] using hf _ hp
  · simpa [List.getElem_modify, Nat.ne_of_gt hj] using hbefore j hj

/-- A search that found nothing finds, once the entry at `i` is changed, nothing or that entry. -/
theorem findIdx?_modify_of_none {p : α → Bool} {f : α → α} {l : List α} (h : l.findIdx? p = none) :
    (l.modify i f).findIdx? p = none ∨ (l.modify i f).findIdx? p = some i := by
  rcases hj : (l.modify i f).findIdx? p with _ | j
  · exact .inl rfl
  · obtain ⟨hlt, hp, -⟩ := List.findIdx?_eq_some_iff_getElem.mp hj
    have hlt' : j < l.length := by simpa using hlt
    by_cases hij : i = j
    · exact .inr (by rw [hij])
    · -- any other entry is as it was, and the search accepted none of those
      have hold := List.findIdx?_eq_none_iff.mp h l[j] (List.getElem_mem hlt')
      simp [hij, hold] at hp

/-- A search that found nothing among the old entries finds the entry appended, if it accepts
it. -/
theorem findIdx?_concat_of_none {p : α → Bool} {l : List α} (h : l.findIdx? p = none) (a : α) :
    (l ++ [a]).findIdx? p = if p a then some l.length else none := by
  by_cases ha : p a <;> simp [List.findIdx?_append, h, List.findIdx?_cons, ha]

/-- A first search to succeed, after searches that found nothing or the same answer. -/
theorem findSome?_of_prefix {g : β → Option γ} {l₁ l₂ : List β} {a : β} {c : γ}
    (h₁ : ∀ x ∈ l₁, g x = none ∨ g x = some c) (ha : g a = some c) :
    (l₁ ++ a :: l₂).findSome? g = some c := by
  induction l₁ with
  | nil => simp [ha]
  | cons x l₁ ih =>
    rcases h₁ x (by simp) with hx | hx
    · simp [hx, ih fun y hy => h₁ y (by simp [hy])]
    · simp [hx]

theorem modify_concat (l : List α) (a : α) (f : α → α) : (l ++ [a]).modify l.length f = l ++ [f a] := by
  induction l with
  | nil => rfl
  | cons b l ih => simp [List.modify_succ_cons, ih]

/-! ## What reconciling does -/

/-- The record made for an observation that matched no record, under its key. -/
def fresh (key : String) (o : Observation) (online : Bool) (seenAt : Nat) : ClientRecord :=
  ⟨key, o.uid, o.hostname.getD "", o.address.getD "", online, some seenAt, o.screenPosition⟩

theorem reconcileAt_of_some (h : findRecord r.records o = some i) :
    r.reconcileAt o online seenAt =
      .ok ⟨r.records.modify i fun rec => ClientRecord.update rec o online seenAt⟩ := by
  simp [reconcileAt, h]

theorem reconcileAt_of_none (h : findRecord r.records o = none) (hk : o.identityKey? = some k) :
    r.reconcileAt o online seenAt = .ok ⟨r.records ++ [fresh k o online seenAt]⟩ := by
  simp [reconcileAt, h, hk, fresh]

/-- An observation has a key exactly when it names a client. -/
theorem identityKey?_isSome_iff : o.identityKey?.isSome = o.identifiable := by
  unfold Observation.identityKey? Observation.identifiable
  split <;> simp_all

/-! ## Matching again -/

/-- The record an observation matches is one of the roster's. -/
theorem findRecord_lt (h : findRecord rs o = some i) : i < rs.length := by
  obtain ⟨-, m, -, -, hm, -⟩ := List.findSome?_eq_some_iff.mp h
  exact (List.findIdx?_eq_some_iff_getElem.mp hm).1

/-- Bringing a record up to date keeps each rule that accepted it accepting it. -/
theorem accepts_update (m : Matcher) (rec : ClientRecord) (h : m.accepts rec o = true) :
    m.accepts (ClientRecord.update rec o online seenAt) o = true := by
  cases m <;> cases hr : rec.uid <;> cases ho : o.uid <;>
    simp_all [Matcher.accepts, Matcher.uidCompatible, ClientRecord.update]

/-- The record an observation matched is the one it matches once that record is brought up to
date: the rules before add at most that record, and the rule that matched still accepts it. -/
theorem findRecord_modify_update (h : findRecord rs o = some i) :
    findRecord (rs.modify i fun rec => ClientRecord.update rec o online seenAt) o = some i := by
  obtain ⟨l₁, m, l₂, hall, hm, hbefore⟩ := List.findSome?_eq_some_iff.mp h
  unfold findRecord
  rw [hall]
  exact findSome?_of_prefix (fun m' hm' => findIdx?_modify_of_none (hbefore m' hm'))
    (findIdx?_modify_self hm fun rec => accepts_update m rec)

/-- A record made for an observation that names a client is accepted by the rule of its uid,
else of its address, else of its hostname. -/
theorem accepts_fresh (ho : o.identifiable = true) :
    ∃ m ∈ Matcher.all, m.accepts (fresh k o online seenAt) o = true := by
  cases hu : o.uid with
  | some u => exact ⟨.uid, by simp [Matcher.all], by simp [Matcher.accepts, fresh, hu]⟩
  | none =>
    cases ha : o.address with
    | some a =>
      exact ⟨.address, by simp [Matcher.all],
        by simp [Matcher.accepts, Matcher.uidCompatible, fresh, hu, ha]⟩
    | none =>
      obtain ⟨n, hn⟩ : ∃ n, o.hostname = some n := by
        simpa [Observation.identifiable, hu, ha, Option.isSome_iff_exists] using ho
      exact ⟨.hostname, by simp [Matcher.all],
        by simp [Matcher.accepts, Matcher.uidCompatible, fresh, hu, hn]⟩

/-- An observation that matched no record matches the record made for it. -/
theorem findRecord_append_fresh (h : findRecord rs o = none) (ho : o.identifiable = true) :
    findRecord (rs ++ [fresh k o online seenAt]) o = some rs.length := by
  obtain ⟨m, hm, hacc⟩ : ∃ m ∈ Matcher.all, m.accepts (fresh k o online seenAt) o = true :=
    accepts_fresh ho
  -- no rule accepts an old record, so each finds the new record or nothing
  have hnew : ∀ m' ∈ Matcher.all, (rs ++ [fresh k o online seenAt]).findIdx? (m'.accepts · o) =
      if m'.accepts (fresh k o online seenAt) o then some rs.length else none := fun m' hm' =>
    findIdx?_concat_of_none (List.findIdx?_eq_none_iff.mpr (findRecord_eq_none h m' hm')) _
  obtain ⟨l₁, l₂, hall⟩ := List.append_of_mem hm
  unfold findRecord
  rw [hall]
  refine findSome?_of_prefix (fun m' hm' => ?_) (by rw [hnew m hm, if_pos hacc])
  rw [hnew m' (hall ▸ List.mem_append_left _ hm')]
  split
  · exact .inr rfl
  · exact .inl rfl

/-! ## Bringing up to date twice -/

theorem update_update (rec : ClientRecord) :
    ClientRecord.update (ClientRecord.update rec o online seenAt) o online seenAt =
      ClientRecord.update rec o online seenAt := by
  cases hu : rec.uid <;> cases hh : o.hostname <;> cases ha : o.address <;>
    cases hp : o.screenPosition <;> simp [ClientRecord.update, hu, hh, ha, hp]

theorem update_fresh : ClientRecord.update (fresh k o online seenAt) o online seenAt =
    fresh k o online seenAt := by
  cases hu : o.uid <;> cases hh : o.hostname <;> cases ha : o.address <;>
    cases hp : o.screenPosition <;> simp [ClientRecord.update, fresh, hu, hh, ha, hp]

/-- Reconciling an observation that names a client succeeds, and reconciling it again leaves the
roster as it is: the observation matches, the second time, the record the first reconciliation
brought up to date, or the one it added last. -/
theorem reconcileAt_idempotent (r : Roster) (o : Observation) (online : Bool) (seenAt : Nat)
    (ho : o.identifiable = true) :
    ∃ r₁, r.reconcileAt o online seenAt = .ok r₁ ∧ r₁.reconcileAt o online seenAt = .ok r₁ ∧
      findRecord r₁.records o = some ((findRecord r.records o).getD r.size) := by
  cases hf : findRecord r.records o with
  | some i =>
    have hf' : findRecord (⟨r.records.modify i fun rec => ClientRecord.update rec o online seenAt⟩ :
        Roster).records o = some i := findRecord_modify_update hf
    refine ⟨_, reconcileAt_of_some hf, ?_, hf'⟩
    rw [reconcileAt_of_some hf', List.modify_modify_eq]
    simp only [Function.comp_def, update_update]
  | none =>
    obtain ⟨k, hk⟩ : ∃ k, o.identityKey? = some k :=
      Option.isSome_iff_exists.mp (identityKey?_isSome_iff.trans ho)
    have hf' : findRecord (⟨r.records ++ [fresh k o online seenAt]⟩ : Roster).records o =
        some r.records.length := findRecord_append_fresh hf ho
    refine ⟨_, reconcileAt_of_none hf hk, ?_, hf'⟩
    rw [reconcileAt_of_some hf', modify_concat, update_fresh]

/-- A desk seen at its first address, seen again with a uid at another address: matched by its
hostname, and the second sighting changes nothing more. -/
theorem reconcileAt_idempotent_moved_desk :
    ({ uid := some "uid-desk", hostname := some "desk", address := some "10.0.0.2" } :
      Observation).identifiable = true ∧
    ∃ r₁, (⟨[⟨"address:10.0.0.1", none, "desk", "10.0.0.1", true, some 1, none⟩]⟩ : Roster).reconcileAt
        { uid := some "uid-desk", hostname := some "desk", address := some "10.0.0.2" } true 2 =
        .ok r₁ ∧
      r₁.reconcileAt { uid := some "uid-desk", hostname := some "desk", address := some "10.0.0.2" }
        true 2 = .ok r₁ ∧
      findRecord r₁.records { uid := some "uid-desk", hostname := some "desk", address := some "10.0.0.2" } =
        some ((findRecord [⟨"address:10.0.0.1", none, "desk", "10.0.0.1", true, some 1, none⟩]
          { uid := some "uid-desk", hostname := some "desk", address := some "10.0.0.2" }).getD 1) :=
  ⟨rfl, reconcileAt_idempotent _ _ _ _ rfl⟩

end Roster

end DaemonBridge
