import Mathlib
import DaemonBridge.Proofs.Roster.Reconcile

/-!
# What reconciling changes

Reconciling an observation fails exactly when the observation names nobody: it has no uid, no
address and no hostname. Every rule needs one of these fields, so no record matches such an
observation, and it has no key for a new record either. Any other observation is matched by a
rule or has a key (`reconcileAt_eq_error_iff`). A failed reconciliation leaves the roster as it
was.

Otherwise exactly one record changes. When `findRecord` picks record `i`, that record alone is
brought up to date and the others keep their places (`Roster.Refreshes`). Its key stays, a uid is
filled in only where none was known, and the hostname, address and screen position change only
to what the observation holds. The record is marked online or offline and seen now
(`ClientRecord.Refreshed`). When no record matches, one record keyed by the observation's key is
appended after the others (`reconcileAt_effect`).
-/

namespace DaemonBridge

namespace ClientRecord

/-- `rec'` is `rec` brought up to date by an observation `o` made at `seenAt`: the key stays, a
uid is taken from `o` only when `rec` had none, the hostname, address and screen position are
replaced by those `o` holds and kept otherwise, and `rec'` is online as `online` says and was seen
at `seenAt`. -/
structure Refreshed (o : Observation) (online : Bool) (seenAt : Nat) (rec rec' : ClientRecord) :
    Prop where
  key : rec'.identityKey = rec.identityKey
  uid : rec'.uid = rec.uid.or o.uid
  hostname : rec'.hostname = o.hostname.getD rec.hostname
  address : rec'.address = o.address.getD rec.address
  screenPosition : rec'.screenPosition = o.screenPosition.or rec.screenPosition
  online : rec'.online = online
  lastSeenAt : rec'.lastSeenAt = some seenAt

end ClientRecord

namespace Roster

/-- `r'` is `r` with its record at `i` brought up to date by `o`, and every other record where
it was. -/
structure Refreshes (o : Observation) (online : Bool) (seenAt i : Nat) (r r' : Roster) :
    Prop where
  size_eq : r'.size = r.size
  others : ∀ j, j ≠ i → r'.records[j]? = r.records[j]?
  refreshed : ∃ rec rec', r.records[i]? = some rec ∧ r'.records[i]? = some rec' ∧
    ClientRecord.Refreshed o online seenAt rec rec'

variable {r : Roster} {rs : List ClientRecord} {o : Observation} {online : Bool} {seenAt i : Nat}

theorem refreshed_update (rec : ClientRecord) :
    ClientRecord.Refreshed o online seenAt rec (ClientRecord.update rec o online seenAt) where
  key := rfl
  uid := by cases h : rec.uid <;> simp [ClientRecord.update, h]
  hostname := rfl
  address := rfl
  screenPosition := by cases h : o.screenPosition <;> simp [ClientRecord.update, h]
  online := rfl
  lastSeenAt := rfl

/-- Updating the record at an index of the roster changes that record alone. -/
theorem refreshes_modify (hi : i < r.records.length) :
    Refreshes o online seenAt i r
      ⟨r.records.modify i fun rec => ClientRecord.update rec o online seenAt⟩ where
  size_eq := by simp [size]
  others j hj := by simp [Ne.symm hj]
  refreshed := ⟨r.records[i], _, List.getElem?_eq_getElem hi,
    by simp [List.getElem?_eq_getElem hi], refreshed_update _⟩

/-- Every rule needs a uid, an address or a hostname of the observation: none matches an
observation that has none of them. -/
theorem findRecord_anonymous (h : o.uid = none ∧ o.address = none ∧ o.hostname = none) :
    findRecord rs o = none := by
  obtain ⟨hu, ha, hh⟩ := h
  simp [findRecord, Matcher.all, Matcher.accepts, hu, ha, hh]

/-- Reconciling fails exactly for an observation that names nobody. -/
theorem reconcileAt_eq_error_iff :
    r.reconcileAt o online seenAt = .error .unidentifiable ↔
      o.uid = none ∧ o.address = none ∧ o.hostname = none := by
  constructor
  · intro h
    -- a match, or a key for a new record, would have given a roster
    cases hf : findRecord r.records o with
    | some i => simp [reconcileAt_of_some hf] at h
    | none =>
      cases hk : o.identityKey? with
      | some k => simp [reconcileAt_of_none hf hk] at h
      | none =>
        have hid : o.identifiable = false := by
          rw [← identityKey?_isSome_iff, hk, Option.isSome_none]
        simpa [Observation.identifiable, and_assoc] using hid
  · intro h
    have hk : o.identityKey? = none := by
      obtain ⟨hu, ha, hh⟩ := h
      simp [Observation.identityKey?, hu, ha, hh]
    simp [reconcileAt, findRecord_anonymous h, hk]

/-- What reconciling an observation `o` made at `seenAt` does to a roster. It fails, with the
unidentifiable-client error, exactly when `o` has no uid, no address and no hostname, and the
roster is then kept as it was. When `findRecord` picks record `i`, that record alone is brought
up to date, its key kept, and the roster keeps its size. When no record matches an observation
that names a client, exactly one record, keyed by the observation's key, is appended after the
records there were. -/
theorem reconcileAt_effect (r : Roster) (o : Observation) (online : Bool) (seenAt : Nat) :
    (r.reconcileAt o online seenAt = .error .unidentifiable ↔
        o.uid = none ∧ o.address = none ∧ o.hostname = none) ∧
      (r.reconcileAt o online seenAt = .error .unidentifiable →
        r.run (.reconcile o online seenAt) = (RosterError.unidentifiable.toValue, r)) ∧
      (∀ i, findRecord r.records o = some i →
        ∃ r', r.reconcileAt o online seenAt = .ok r' ∧ Refreshes o online seenAt i r r') ∧
      (findRecord r.records o = none → o.identifiable = true →
        ∃ rec, r.reconcileAt o online seenAt = .ok ⟨r.records ++ [rec]⟩ ∧
          o.identityKey? = some rec.identityKey) := by
  refine ⟨reconcileAt_eq_error_iff, fun h => by simp [run, h], fun i hf => ?_, fun hf ho => ?_⟩
  · exact ⟨_, reconcileAt_of_some hf, refreshes_modify (findRecord_lt hf)⟩
  · -- an observation that names a client has a key
    obtain ⟨k, hk⟩ : ∃ k, o.identityKey? = some k :=
      Option.isSome_iff_exists.mp (identityKey?_isSome_iff.trans ho)
    exact ⟨fresh k o online seenAt, reconcileAt_of_none hf hk, hk⟩

/-- A desk known by its address, seen again offline with a uid at another address: its hostname
picks it, and it takes the uid and the new address under its old key. -/
theorem reconcileAt_effect_moved_desk :
    findRecord [⟨"address:10.0.0.1", none, "desk", "10.0.0.1", true, some 1, some "left"⟩]
        { uid := some "uid-desk", hostname := some "desk", address := some "10.0.0.2" } = some 0 ∧
      ∃ r', (⟨[⟨"address:10.0.0.1", none, "desk", "10.0.0.1", true, some 1, some "left"⟩]⟩ :
          Roster).reconcileAt
          { uid := some "uid-desk", hostname := some "desk", address := some "10.0.0.2" } false 7 =
          .ok r' ∧
        Refreshes { uid := some "uid-desk", hostname := some "desk", address := some "10.0.0.2" }
          false 7 0
          ⟨[⟨"address:10.0.0.1", none, "desk", "10.0.0.1", true, some 1, some "left"⟩]⟩ r' :=
  ⟨rfl, (reconcileAt_effect _ _ false 7).2.2.1 0 rfl⟩

end Roster

end DaemonBridge
