import Mathlib
import DaemonBridge.Roster.Script

/-!
# Identity keys of the roster

A new record is keyed by the observation it is made from: its uid, else its address tagged
`address:`, else its hostname tagged `hostname:`. `findRecord` falls through to making a record
only when no record carries that uid, address or hostname (uids permitting), so the new key is
fresh as long as

* every record still holds its key: the key is its uid, or names its address or its hostname
  (`Roster.Anchored`), and
* no uid is spelled like a tagged key (`Observation.PlainUid`).

The roster keeps neither. A record keyed by its address can be matched by its hostname and moved
to another address; the next client seen at the old address then gets the same key
(`keys_collide_after_move`). Under the two conditions, checked before each reconciliation, keys
stay pairwise distinct along every run of reconciliations, removals and resets
(`KeysSound.runSteps`), and `get?` and `remove` then address the one record with a key
(`keys_unique_while_anchored`).
-/

namespace DaemonBridge

namespace Roster

/-- A key the roster makes up for a client seen without a uid. -/
def Tagged (k : String) : Prop :=
  "address:".toList <+: k.toList ∨ "hostname:".toList <+: k.toList

instance (k : String) : Decidable (Tagged k) := inferInstanceAs (Decidable (_ ∨ _))

theorem tagged_address (a : String) : Tagged ("address:" ++ a) :=
  .inl (by rw [String.toList_append]; exact List.prefix_append _ _)

theorem tagged_hostname (h : String) : Tagged ("hostname:" ++ h) :=
  .inr (by rw [String.toList_append]; exact List.prefix_append _ _)

theorem address_key_ne_hostname_key (a h : String) : "address:" ++ a ≠ "hostname:" ++ h := by
  intro he
  have := congrArg String.toList he
  simp [String.toList_append] at this

end Roster

namespace Observation

/-- The observation's uid, if any, is not spelled like a made-up key. -/
def PlainUid (o : Observation) : Prop := ∀ u ∈ o.uid, ¬ Roster.Tagged u

instance (o : Observation) : Decidable o.PlainUid :=
  inferInstanceAs (Decidable (∀ u ∈ o.uid, ¬ Roster.Tagged u))

/-- The key a new record gets is the observation's uid, or its address or hostname tagged. -/
theorem identityKey?_eq_some {o : Observation} {k : String} (h : o.identityKey? = some k) :
    o.uid = some k ∨ (o.uid = none ∧ ∃ a, o.address = some a ∧ k = "address:" ++ a) ∨
      (o.uid = none ∧ o.address = none ∧ ∃ n, o.hostname = some n ∧ k = "hostname:" ++ n) := by
  unfold identityKey? at h
  split at h <;> simp_all

end Observation

namespace ClientRecord

/-- A record holds its key: the key is its uid, or names its address or its hostname. -/
def HoldsKey (rec : ClientRecord) : Prop :=
  rec.uid = some rec.identityKey ∨ rec.identityKey = "address:" ++ rec.address ∨
    rec.identityKey = "hostname:" ++ rec.hostname

instance (rec : ClientRecord) : Decidable rec.HoldsKey := inferInstanceAs (Decidable (_ ∨ _ ∨ _))

end ClientRecord

namespace Roster

/-- Every record holds its key. -/
def Anchored (r : Roster) : Prop := ∀ rec ∈ r.records, rec.HoldsKey

instance (r : Roster) : Decidable r.Anchored :=
  inferInstanceAs (Decidable (∀ rec ∈ r.records, rec.HoldsKey))

/-- The keys of the records, in order. -/
def keys (r : Roster) : List String := r.records.map (·.identityKey)

/-- A roster whose keys are pairwise distinct, whose records keyed by something other than a
made-up key are keyed by their uid, and whose uids are plain. -/
structure KeysSound (r : Roster) : Prop where
  nodup : r.keys.Nodup
  uid_key : ∀ rec ∈ r.records, ¬ Tagged rec.identityKey → rec.uid = some rec.identityKey
  plain : ∀ rec ∈ r.records, ∀ u ∈ rec.uid, ¬ Tagged u

/-- A step that the key argument allows: a reconciliation finds every record holding its key and
brings a plain uid, if any. -/
def Step.Guarded (r : Roster) : Step → Prop
  | .reconcile o _ _ => r.Anchored ∧ o.PlainUid
  | _ => True

instance (r : Roster) (a : Step) : Decidable (a.Guarded r) := by
  cases a <;> unfold Step.Guarded <;> infer_instance

/-- The roster a run of steps leaves. -/
def runSteps (r : Roster) (steps : List Step) : Roster := steps.foldl (fun r a => (r.run a).2) r

/-- Every step of a run is guarded in the roster it is taken from. -/
def GuardedRun : Roster → List Step → Prop
  | _, [] => True
  | r, a :: rest => a.Guarded r ∧ GuardedRun (r.run a).2 rest

instance decGuardedRun : (r : Roster) → (steps : List Step) → Decidable (GuardedRun r steps)
  | _, [] => isTrue trivial
  | r, a :: rest =>
    have := decGuardedRun (r.run a).2 rest
    inferInstanceAs (Decidable (_ ∧ _))

variable {r r' : Roster} {o : Observation} {online : Bool} {seenAt : Nat} {k : String}

/-! ## Matching -/

/-- When no record matches, no rule accepts any record. -/
theorem findRecord_eq_none {rs : List ClientRecord} (h : findRecord rs o = none) :
    ∀ m ∈ Matcher.all, ∀ rec ∈ rs, m.accepts rec o = false := by
  simpa [findRecord] using h

/-- A record keyed by a key that is not made up carries it as its uid; with the observation's
uid equal to that key, the uid rule accepts it. -/
theorem KeysSound.uid_accepts (h : KeysSound r) {rec : ClientRecord} (hrec : rec ∈ r.records)
    (ht : ¬ Tagged rec.identityKey) (ho : o.uid = some rec.identityKey) :
    Matcher.accepts .uid rec o = true := by
  simp [Matcher.accepts, h.uid_key rec hrec ht, ho]

/-- The key of a new record is not the key of any record: the rule for the field it is made from
would have matched that record. -/
theorem KeysSound.fresh (h : KeysSound r) (ha : r.Anchored) (ho : o.PlainUid)
    (hf : findRecord r.records o = none) (hk : o.identityKey? = some k) : k ∉ r.keys := by
  have hnone := findRecord_eq_none hf
  intro hmem
  obtain ⟨rec, hrec, rfl⟩ := List.mem_map.mp hmem
  rcases Observation.identityKey?_eq_some hk with hu | ⟨hu, a, hadr, hkey⟩ | ⟨hu, hadr, n, hn, hkey⟩
  · -- keyed by the uid, which is plain: the record holding it is keyed by its uid
    have ht : ¬ Tagged rec.identityKey := ho _ hu
    have := hnone .uid (by simp [Matcher.all]) rec hrec
    rw [h.uid_accepts hrec ht hu] at this
    cases this
  · -- keyed by the address: the record holds it by its address
    rcases ha rec hrec with hk' | hk' | hk'
    · exact h.plain rec hrec _ hk' (hkey ▸ tagged_address a)
    · have hadr' : rec.address = a := by
        rw [hkey] at hk'
        exact ((String.append_right_inj _).mp hk').symm
      have := hnone .address (by simp [Matcher.all]) rec hrec
      simp [Matcher.accepts, Matcher.uidCompatible, hu, hadr, hadr'] at this
    · exact address_key_ne_hostname_key a rec.hostname (hkey ▸ hk')
  · -- keyed by the hostname: the record holds it by its hostname
    rcases ha rec hrec with hk' | hk' | hk'
    · exact h.plain rec hrec _ hk' (hkey ▸ tagged_hostname n)
    · exact address_key_ne_hostname_key rec.address n (hk'.symm.trans hkey)
    · have hn' : rec.hostname = n := by
        rw [hkey] at hk'
        exact ((String.append_right_inj _).mp hk').symm
      have := hnone .hostname (by simp [Matcher.all]) rec hrec
      simp [Matcher.accepts, Matcher.uidCompatible, hu, hn, hn'] at this

/-! ## Bringing a record up to date -/

@[simp] theorem identityKey_update (rec : ClientRecord) :
    (ClientRecord.update rec o online seenAt).identityKey = rec.identityKey := rfl

theorem uid_update (rec : ClientRecord) :
    (ClientRecord.update rec o online seenAt).uid = if rec.uid.isNone then o.uid else rec.uid := rfl

/-- Updating one record keeps every key where it is. -/
theorem keys_modify_update (i : Nat) :
    (⟨r.records.modify i fun rec => ClientRecord.update rec o online seenAt⟩ : Roster).keys =
      r.keys := by
  by_cases hi : i < r.records.length
  · obtain ⟨l₁, a, l₂, hr, -, hm⟩ := List.exists_of_modify
      (fun rec => ClientRecord.update rec o online seenAt) hi
    simp only [keys]
    rw [hm, hr]
    simp
  · rw [List.modify_eq_self (by omega)]

/-- A record of the roster after an update is a record before it, or the update of one. -/
theorem mem_modify_update {i : Nat} {rec : ClientRecord}
    (h : rec ∈ r.records.modify i fun rec => ClientRecord.update rec o online seenAt) :
    rec ∈ r.records ∨ ∃ a ∈ r.records, rec = ClientRecord.update a o online seenAt := by
  by_cases hi : i < r.records.length
  · obtain ⟨l₁, a, l₂, hr, -, hm⟩ := List.exists_of_modify
      (fun rec => ClientRecord.update rec o online seenAt) hi
    rw [hm] at h
    rw [hr]
    simp only [List.mem_append, List.mem_cons] at h
    rcases h with h | rfl | h
    · exact .inl (by simp [h])
    · exact .inr ⟨a, by simp, rfl⟩
    · exact .inl (by simp [h])
  · rw [List.modify_eq_self (by omega)] at h
    exact .inl h

/-! ## Each step keeps the keys sound -/

theorem KeysSound.empty : KeysSound {} := ⟨List.nodup_nil, by simp, by simp⟩

theorem KeysSound.update (h : KeysSound r) (ho : o.PlainUid) (i : Nat) :
    KeysSound ⟨r.records.modify i fun rec => ClientRecord.update rec o online seenAt⟩ := by
  refine ⟨by rw [keys_modify_update]; exact h.nodup, fun rec hrec ht => ?_, fun rec hrec => ?_⟩
  · rcases mem_modify_update hrec with hrec | ⟨a, ha, rfl⟩
    · exact h.uid_key rec hrec ht
    · -- a record keyed by a plain key already has its uid, which the update keeps
      have hu := h.uid_key a ha (by simpa using ht)
      simp [uid_update, hu]
  · rcases mem_modify_update hrec with hrec | ⟨a, ha, rfl⟩
    · exact h.plain rec hrec
    · rw [uid_update]
      split
      · exact ho
      · exact h.plain a ha

theorem KeysSound.append (h : KeysSound r) (ha : r.Anchored) (ho : o.PlainUid)
    (hf : findRecord r.records o = none) (hk : o.identityKey? = some k) :
    KeysSound ⟨r.records ++ [⟨k, o.uid, o.hostname.getD "", o.address.getD "", online, some seenAt,
      o.screenPosition⟩]⟩ := by
  have hfresh := h.fresh ha ho hf hk
  refine ⟨?_, fun rec hrec ht => ?_, fun rec hrec => ?_⟩
  · simpa [keys, List.nodup_append] using ⟨h.nodup, fun a ha' => by
      rintro rfl; exact hfresh (List.mem_map_of_mem ha')⟩
  · simp only [List.mem_append, List.mem_singleton] at hrec
    rcases hrec with hrec | rfl
    · exact h.uid_key rec hrec ht
    · -- a new record keyed by something other than an address or a hostname is keyed by its uid
      rcases Observation.identityKey?_eq_some hk with hu | ⟨-, a, -, rfl⟩ | ⟨-, -, n, -, rfl⟩
      · exact hu
      · exact absurd (tagged_address a) ht
      · exact absurd (tagged_hostname n) ht
  · simp only [List.mem_append, List.mem_singleton] at hrec
    rcases hrec with hrec | rfl
    · exact h.plain rec hrec
    · exact ho

theorem KeysSound.reconcileAt (h : KeysSound r) (ha : r.Anchored) (ho : o.PlainUid)
    (hr : r.reconcileAt o online seenAt = .ok r') : KeysSound r' := by
  unfold Roster.reconcileAt at hr
  split at hr
  · cases hr
    exact h.update ho _
  · next hf =>
    split at hr
    · cases hr
    · next k hk =>
      cases hr
      exact h.append ha ho hf hk

theorem KeysSound.remove (h : KeysSound r) {rec : ClientRecord}
    (hr : r.remove k = .ok (rec, r')) : KeysSound r' := by
  unfold Roster.remove at hr
  split at hr
  · next i _ =>
    split at hr
    · cases hr
      have hsub := List.eraseIdx_sublist r.records i
      exact ⟨h.nodup.sublist (hsub.map _), fun rec hrec => h.uid_key rec (hsub.subset hrec),
        fun rec hrec => h.plain rec (hsub.subset hrec)⟩
    · cases hr
  · cases hr

theorem KeysSound.run (h : KeysSound r) {a : Step} (hg : a.Guarded r) : KeysSound (r.run a).2 := by
  cases a with
  | reconcile o online at_ =>
    simp only [Roster.run]
    split
    · next r' hr => exact h.reconcileAt hg.1 hg.2 hr
    · exact h
  | remove key =>
    simp only [Roster.run]
    split
    · next rec r' hr => exact h.remove hr
    · exact h
  | get | size => exact h
  | reset => exact KeysSound.empty

/-- Along a guarded run, keys stay sound. -/
theorem KeysSound.runSteps (h : KeysSound r) {steps : List Step} (hg : GuardedRun r steps) :
    KeysSound (r.runSteps steps) := by
  induction steps generalizing r with
  | nil => exact h
  | cons a rest ih => exact ih (h.run hg.1) hg.2

/-! ## One record per key -/

/-- With distinct keys, `get?` finds the one record with a key. -/
theorem get?_eq_some_iff (h : r.keys.Nodup) {rec : ClientRecord} :
    r.get? k = some rec ↔ rec ∈ r.records ∧ rec.identityKey = k := by
  constructor
  · intro hg
    exact ⟨List.mem_of_find?_eq_some hg, by simpa using List.find?_some hg⟩
  · rintro ⟨hrec, rfl⟩
    obtain ⟨rec', hg⟩ : ∃ rec', r.get? rec.identityKey = some rec' :=
      Option.isSome_iff_exists.mp (List.find?_isSome.mpr ⟨rec, hrec, by simp⟩)
    have hk : rec'.identityKey = rec.identityKey := by simpa using List.find?_some hg
    rw [hg, List.inj_on_of_nodup_map h (List.mem_of_find?_eq_some hg) hrec hk]

/-- With distinct keys, `remove` takes out the record `get?` finds and keeps every other record
in order; with no record of the key it refuses. -/
theorem remove_eq (h : r.keys.Nodup) :
    r.remove k = match r.get? k with
      | some rec => .ok (rec, ⟨r.records.filter (·.identityKey != k)⟩)
      | none => .error (.unknownClient k) := by
  unfold Roster.remove Roster.get?
  cases hi : r.records.findIdx? (·.identityKey == k) with
  | none =>
    have hn : r.records.find? (·.identityKey == k) = none := by
      simpa [List.find?_eq_none] using List.findIdx?_eq_none_iff.mp hi
    simp [hn]
  | some i =>
    obtain ⟨hlt, hk, hbefore⟩ := List.findIdx?_eq_some_iff_getElem.mp hi
    -- the record at `i` is the first with the key, and by distinct keys the only one
    obtain ⟨l₁, l₂, hsplit, hlen⟩ : ∃ l₁ l₂, r.records = l₁ ++ r.records[i] :: l₂ ∧ l₁.length = i :=
      ⟨r.records.take i, r.records.drop (i + 1),
        by rw [← List.drop_eq_getElem_cons hlt, List.take_append_drop], by simp; omega⟩
    have hfind : r.records.find? (·.identityKey == k) = some r.records[i] := by
      rw [List.find?_eq_some_iff_getElem]
      exact ⟨hk, i, hlt, rfl, fun j hj => by simpa using hbefore j hj⟩
    have hkeys : (l₁ ++ r.records[i] :: l₂).map (·.identityKey) |>.Nodup := hsplit ▸ h
    have hki : r.records[i].identityKey = k := by simpa using hk
    have hl₁ : ∀ x ∈ l₁, x.identityKey ≠ k := by
      intro x hx hxk
      simp only [List.map_append, List.map_cons, List.nodup_append, List.nodup_cons] at hkeys
      exact hkeys.2.2 _ (List.mem_map_of_mem hx) _ (by simp) (hxk.trans hki.symm)
    have hl₂ : ∀ x ∈ l₂, x.identityKey ≠ k := by
      intro x hx hxk
      simp only [List.map_append, List.map_cons, List.nodup_append, List.nodup_cons] at hkeys
      exact hkeys.2.1.1 (hki ▸ hxk ▸ List.mem_map_of_mem hx)
    have herase : r.records.eraseIdx i = r.records.filter (·.identityKey != k) := by
      conv_lhs => rw [hsplit]
      conv_rhs => rw [hsplit]
      rw [List.eraseIdx_append_of_length_le (by omega), hlen, Nat.sub_self, List.eraseIdx_cons_zero,
        List.filter_append, List.filter_cons_of_neg (by simp [hki]),
        List.filter_eq_self.mpr (by simpa using hl₁), List.filter_eq_self.mpr (by simpa using hl₂)]
    simp [List.getElem?_eq_getElem hlt, hfind, herase]

/-- A key names at most one record: `get?` finds the record with a key, and `remove` takes out
that record and no other, or refuses when there is none. -/
structure KeysUnique (r : Roster) : Prop where
  nodup : r.keys.Nodup
  get : ∀ k rec, r.get? k = some rec ↔ rec ∈ r.records ∧ rec.identityKey = k
  remove : ∀ k, r.remove k = match r.get? k with
    | some rec => .ok (rec, ⟨r.records.filter (·.identityKey != k)⟩)
    | none => .error (.unknownClient k)

/-- Keys are pairwise distinct along every run of reconciliations, removals and resets from the
empty roster in which each reconciliation finds every record holding its key and brings a plain
uid. -/
theorem keys_unique_while_anchored (steps : List Step) (hg : GuardedRun {} steps) :
    (Roster.runSteps {} steps).KeysUnique :=
  have h := KeysSound.empty.runSteps hg
  ⟨h.nodup, fun _ _ => get?_eq_some_iff h.nodup, fun _ => remove_eq h.nodup⟩

/-- A client first seen by its address, seen again with a uid and a hostname, a second client,
and the first removed by its key. -/
def learnedUidRun : List Step :=
  [.reconcile { address := some "10.0.0.7" } true 1,
    .reconcile { uid := some "uid-7", hostname := some "laptop", address := some "10.0.0.7" } false 2,
    .reconcile { uid := some "uid-8" } true 3, .remove "address:10.0.0.7"]

theorem keys_unique_while_anchored_learned_uid :
    GuardedRun {} learnedUidRun ∧ (Roster.runSteps {} learnedUidRun).KeysUnique :=
  have hg : GuardedRun {} learnedUidRun := by decide +kernel
  ⟨hg, keys_unique_while_anchored _ hg⟩

/-- A client keyed by its address moves to another address, matched by its hostname; the next
client seen at the old address gets the same key. -/
theorem keys_collide_after_move :
    ¬ (Roster.runSteps {} [.reconcile { address := some "10.0.0.1", hostname := some "desk" } true 1,
      .reconcile { address := some "10.0.0.2", hostname := some "desk" } true 2,
      .reconcile { address := some "10.0.0.1" } true 3]).keys.Nodup := by
  decide +kernel

end Roster

end DaemonBridge
