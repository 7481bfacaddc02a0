import Mathlib
import DaemonBridge.Proofs.Roster.Reconcile

/-!
# Uids are bound for life

A record takes a uid only from an observation: when it is made, or when it is brought up to date
without one. Either way no other record carries that uid, since the uid rule, tried first, would
have matched the record that does (`uid_unclaimed`). So along every run of reconciliations,
removals and resets from the empty roster, no two records carry the same uid
(`UidsDistinct.runSteps`).

A roster keeps its records in a list, and a record is its place in it: reconciling brings one
record up to date in its place or adds one after the others, removing takes one out and closes
the gap, resetting ends them all. Through every step each record that stays keeps its key, and
its uid once known (`carries_run`). Together these make `uids_bound_for_life`.
-/

namespace DaemonBridge

namespace ClientRecord

/-- Two records carry the same uid. -/
def SharesUid (a b : ClientRecord) : Prop := ∃ u, a.uid = some u ∧ b.uid = some u

/-- `b` is record `a` after a step: it has `a`'s key, and `a`'s uid if `a` had one. -/
def Continues (a b : ClientRecord) : Prop :=
  b.identityKey = a.identityKey ∧ ∀ u, a.uid = some u → b.uid = some u

theorem SharesUid.symm {a b : ClientRecord} (h : a.SharesUid b) : b.SharesUid a :=
  let ⟨u, ha, hb⟩ := h
  ⟨u, hb, ha⟩

theorem Continues.refl (a : ClientRecord) : a.Continues a := ⟨rfl, fun _ h => h⟩

end ClientRecord

namespace Roster

variable {α : Type} {r r' : Roster} {rs : List ClientRecord} {o : Observation} {online : Bool}
  {seenAt i : Nat} {a : ClientRecord}

/-- No two records of the roster carry the same uid. -/
def UidsDistinct (r : Roster) : Prop := r.records.Pairwise fun a b => ¬ a.SharesUid b

/-- How the records of `r` live on in `r'`, after a step that answered `answer`: all of them end,
as in a reset; or the one record the step answered with ends, and the others stay as they were;
or each record stays in its place, with its key and its uid once known, and at most one new
record follows them. -/
def Carries (r : Roster) (answer : Json.Value) (r' : Roster) : Prop :=
  r'.records = [] ∨
    (∃ i rec, r.records[i]? = some rec ∧ answer = rec.toValue ∧ r'.records = r.records.eraseIdx i) ∨
    (List.Forall₂ ClientRecord.Continues r.records (r'.records.take r.size) ∧ r'.size ≤ r.size + 1)

/-! ## Lists -/

/-- Changing one entry keeps a list pairwise related when the new entry relates to the others as
the old one did. -/
theorem pairwise_modify {R : α → α → Prop} {l : List α} {f : α → α} {a : α} (h : l.Pairwise R)
    (ha : l[i]? = some a) (hl : ∀ x ∈ l, R x a → R x (f a)) (hr : ∀ x ∈ l, R a x → R (f a) x) :
    (l.modify i f).Pairwise R := by
  obtain ⟨l₁, b, l₂, hsplit, hlen, hmod⟩ := List.exists_of_modify f (List.getElem?_eq_some_iff.mp ha).1
  have hb : b = a := by
    rw [hsplit, List.getElem?_append_right (by omega), hlen, Nat.sub_self] at ha
    simpa using ha
  subst hb
  rw [hsplit, List.pairwise_append, List.pairwise_cons] at h
  obtain ⟨h₁, ⟨hb₂, h₂⟩, h₁₂⟩ := h
  have hmem₁ : ∀ x ∈ l₁, x ∈ l := fun x hx => by rw [hsplit]; exact List.mem_append_left _ hx
  have hmem₂ : ∀ x ∈ l₂, x ∈ l := fun x hx => by rw [hsplit]; simp [hx]
  rw [hmod, List.pairwise_append, List.pairwise_cons]
  refine ⟨h₁, ⟨fun y hy => hr y (hmem₂ y hy) (hb₂ y hy), h₂⟩, fun x hx y hy => ?_⟩
  rcases List.mem_cons.mp hy with rfl | hy
  · exact hl x (hmem₁ x hx) (h₁₂ x hx _ (by simp))
  · exact h₁₂ x hx y (by simp [hy])

/-- Changing one entry into one that each entry relates to leaves the list related to its old
self. -/
theorem forall₂_modify {R : α → α → Prop} {f : α → α} (hrefl : ∀ a, R a a) (hf : ∀ a, R a (f a)) :
    ∀ (l : List α) (i : Nat), List.Forall₂ R l (l.modify i f)
  | [], _ => by simp
  | a :: l, 0 => by
    rw [List.modify_zero_cons]
    exact .cons (hf a) (List.forall₂_same.mpr fun x _ => hrefl x)
  | a :: l, i + 1 => by
    rw [List.modify_succ_cons]
    exact .cons (hrefl a) (forall₂_modify hrefl hf l i)

/-! ## Uids taken from observations -/

theorem findRecord_of_uid {j : Nat} (h : rs.findIdx? (Matcher.accepts .uid · o) = some j) :
    findRecord rs o = some j := by
  simp [findRecord, Matcher.all, h]

/-- When an observation with uid `u` matches a record that has no uid, no record carries `u`:
the uid rule, tried first, would have matched it. -/
theorem uid_unclaimed {u : String} (h : findRecord rs o = some i) (ha : rs[i]? = some a)
    (hnone : a.uid = none) (hu : o.uid = some u) : ∀ rec ∈ rs, rec.uid ≠ some u := by
  intro rec hrec hr
  have hacc : Matcher.accepts .uid rec o = true := by simp [Matcher.accepts, hr, hu]
  obtain ⟨j, hj⟩ : ∃ j, rs.findIdx? (Matcher.accepts .uid · o) = some j :=
    Option.isSome_iff_exists.mp (List.findIdx?_isSome.trans (List.any_eq_true.mpr ⟨rec, hrec, hacc⟩))
  rw [findRecord_of_uid hj] at h
  obtain rfl := Option.some.inj h
  obtain ⟨hlt, hacc', -⟩ := List.findIdx?_eq_some_iff_getElem.mp hj
  rw [List.getElem?_eq_getElem hlt, Option.some.injEq] at ha
  rw [ha] at hacc'
  simp [Matcher.accepts, hnone] at hacc'

/-- The record an observation matched, brought up to date, shares a uid with a record of the
roster only if it did before. -/
theorem sharesUid_update (h : findRecord rs o = some i) (ha : rs[i]? = some a) {x : ClientRecord}
    (hx : x ∈ rs) (hs : x.SharesUid (ClientRecord.update a o online seenAt)) : x.SharesUid a := by
  obtain ⟨u, hxu, hau⟩ := hs
  rw [uid_update] at hau
  cases hna : a.uid with
  | some v =>
    rw [hna] at hau
    exact ⟨u, hxu, by rw [hna]; simpa using hau⟩
  | none =>
    rw [hna] at hau
    exact absurd hxu (uid_unclaimed h ha hna (by simpa using hau) x hx)

/-- The record made for an observation that matched nothing shares its uid with no record. -/
theorem not_sharesUid_fresh {k : String} (h : findRecord rs o = none) {x : ClientRecord}
    (hx : x ∈ rs) : ¬ x.SharesUid (fresh k o online seenAt) := by
  rintro ⟨u, hxu, hu⟩
  have := findRecord_eq_none h .uid (by simp [Matcher.all]) x hx
  simp [Matcher.accepts, hxu, show o.uid = some u from hu] at this

/-! ## Each step keeps uids distinct -/

theorem UidsDistinct.empty : UidsDistinct {} := List.Pairwise.nil

theorem UidsDistinct.reconcileAt (h : r.UidsDistinct) (hr : r.reconcileAt o online seenAt = .ok r') :
    r'.UidsDistinct := by
  cases hf : findRecord r.records o with
  | some i =>
    rw [reconcileAt_of_some hf] at hr
    cases hr
    obtain ⟨a, ha⟩ : ∃ a, r.records[i]? = some a :=
      ⟨_, List.getElem?_eq_getElem (findRecord_lt hf)⟩
    exact pairwise_modify h ha (fun x hx hne hs => hne (sharesUid_update hf ha hx hs))
      fun x hx hne hs => hne (sharesUid_update hf ha hx hs.symm).symm
  | none =>
    cases hk : o.identityKey? with
    | none => simp [Roster.reconcileAt, hf, hk] at hr
    | some k =>
      rw [reconcileAt_of_none hf hk] at hr
      cases hr
      exact List.pairwise_append.mpr ⟨h, List.pairwise_singleton _ _, fun x hx y hy => by
        rw [List.mem_singleton.mp hy]
        exact not_sharesUid_fresh hf hx⟩

theorem remove_eq_ok {k : String} {rec : ClientRecord} (hr : r.remove k = .ok (rec, r')) :
    ∃ i, r.records[i]? = some rec ∧ r'.records = r.records.eraseIdx i := by
  unfold Roster.remove at hr
  split at hr
  · next i _ =>
    split at hr
    · next rec' hrec =>
      cases hr
      exact ⟨i, hrec, rfl⟩
    · cases hr
  · cases hr

theorem UidsDistinct.remove (h : r.UidsDistinct) {k : String} {rec : ClientRecord}
    (hr : r.remove k = .ok (rec, r')) : r'.UidsDistinct := by
  obtain ⟨i, -, hrecords⟩ := remove_eq_ok hr
  unfold UidsDistinct
  rw [hrecords]
  exact h.sublist (List.eraseIdx_sublist _ i)

theorem UidsDistinct.run (h : r.UidsDistinct) (a : Step) : (r.run a).2.UidsDistinct := by
  cases a with
  | reconcile o online at_ =>
    simp only [Roster.run]
    split
    · next r' hr => exact h.reconcileAt hr
    · exact h
  | remove key =>
    simp only [Roster.run]
    split
    · next rec r' hr => exact h.remove hr
    · exact h
  | get | size => exact h
  | reset => exact UidsDistinct.empty

/-- Along every run, uids stay distinct. -/
theorem UidsDistinct.runSteps (h : r.UidsDistinct) (steps : List Step) :
    (r.runSteps steps).UidsDistinct := by
  induction steps generalizing r with
  | nil => exact h
  | cons a rest ih => exact ih (h.run a)

/-! ## Each step carries the records on -/

/-- A record brought up to date is the same record: its key stays, and so does its uid once
known. -/
theorem continues_update (a : ClientRecord) : a.Continues (ClientRecord.update a o online seenAt) :=
  ⟨rfl, fun u hu => by simp [uid_update, hu]⟩

/-- A roster that a step leaves as it was carries every record on. -/
theorem carries_self (r : Roster) (answer : Json.Value) : r.Carries answer r :=
  .inr (.inr ⟨by rw [size, List.take_length]; exact List.forall₂_same.mpr fun a _ => .refl a,
    Nat.le_succ _⟩)

theorem carries_reconcileAt (hr : r.reconcileAt o online seenAt = .ok r') (answer : Json.Value) :
    r.Carries answer r' := by
  cases hf : findRecord r.records o with
  | some i =>
    rw [reconcileAt_of_some hf] at hr
    cases hr
    refine .inr (.inr ⟨?_, by simp [size]⟩)
    rw [size, List.take_of_length_le (by simp)]
    exact forall₂_modify ClientRecord.Continues.refl continues_update _ _
  | none =>
    cases hk : o.identityKey? with
    | none => simp [Roster.reconcileAt, hf, hk] at hr
    | some k =>
      rw [reconcileAt_of_none hf hk] at hr
      cases hr
      refine .inr (.inr ⟨?_, by simp [size]⟩)
      rw [size, List.take_left']
      · exact List.forall₂_same.mpr fun a _ => .refl a
      · rfl

/-- Every step carries the records of the roster on: a reset ends them all, a removal ends the
one it answers with, and any other step keeps each in its place with its key and its uid once
known. -/
theorem carries_run (r : Roster) (a : Step) : r.Carries (r.run a).1 (r.run a).2 := by
  cases a with
  | reconcile o online at_ =>
    simp only [Roster.run]
    split
    · next r' hr => exact carries_reconcileAt hr _
    · exact carries_self r _
  | remove key =>
    simp only [Roster.run]
    split
    · next rec r' hr =>
      obtain ⟨i, hi, hrecords⟩ := remove_eq_ok hr
      exact .inr (.inl ⟨i, rec, hi, rfl, hrecords⟩)
    · exact carries_self r _
  | get | size => exact carries_self r _
  | reset => exact .inl rfl

/-- Along every run of reconciliations, removals and resets from the empty roster, no two records
carry the same uid, and every further step carries each record on: a record that stays keeps its
key, and its uid once it has one, for as long as it exists. -/
theorem uids_bound_for_life (steps : List Step) (a : Step) :
    (runSteps {} steps).UidsDistinct ∧
      (runSteps {} steps).Carries ((runSteps {} steps).run a).1 ((runSteps {} steps).run a).2 :=
  ⟨UidsDistinct.empty.runSteps steps, carries_run _ a⟩

end Roster

end DaemonBridge
