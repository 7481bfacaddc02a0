import Mathlib
import DaemonBridge.Proofs.Registry.Basic

/-!
# Release conservation

A registry gives back every token it is handed exactly once. Its owners are modelled by a
`Ledger`: the registry (none once its last handle is dropped), the tokens it gave back that are
still to run, the tokens run, in the order they ran, and every token it was handed. A `Move` is
one of the registry's operations, or the run of one token it gave back. The run of a token may
itself operate on the registry, and tokens given back together run one after another, so
operations interleave with runs in every way that re-entrant release tokens allow: any list of
moves is a run (`Ledger.run`).

Along every run (`release_conservation`):

* the tokens handed in are exactly the tokens stored, waiting to run and run, each once; in
  particular no token runs twice;
* every key held has one entry and at least one holder;
* an operation gives back exactly what `Op.taken` reads off the registry before it: the token of
  an add on a held key at once, a key's token when its last holder releases it or it is forced
  out, and every token when all are released or the registry is dropped;
* a key's count is one, plus the shared adds, less the releases, made on it since the move that
  created its entry;
* once the registry is dropped and the tokens it gave back have run, every token handed in has
  run exactly once.
-/

namespace DaemonBridge

namespace Registry

/-- An operation of a registry's owners. -/
inductive Op (α : Type) where
  | addShared (key : String) (token : α)
  | addOnce (key : String) (token : α)
  | release (key : String)
  | forceRelease (key : String)
  | releaseAll
  /-- The last handle is dropped: every entry is released and the registry is gone. -/
  | drop
  deriving DecidableEq, Repr

/-- One move of a registry's owners: an operation, or the run of a token given back. -/
inductive Move (α : Type) where
  | op (o : Op α)
  | invoke (token : α)
  deriving DecidableEq, Repr

/-- A registry in use, with the tokens it gave back. -/
structure Ledger (α : Type) where
  registry : Option (Registry α) := some empty
  /-- Tokens given back and not yet run. -/
  pending : List α := []
  /-- Tokens run, in the order they ran. -/
  invoked : List α := []
  /-- Every token the registry was handed, in order. -/
  handed : List α := []
  deriving Repr

/-- A registry whose keys are held once each, every one by at least one holder. -/
structure WellFormed {α : Type} (r : Registry α) : Prop where
  keys_nodup : r.keys.Nodup
  holders_pos : ∀ p ∈ r.entries, 1 ≤ p.2.holders

variable {α : Type} {r : Registry α} {key k : String} {e : Entry α}

/-- How many hold a key: zero when it is not held. -/
def count (r : Registry α) (key : String) : Nat := (r.holders? key).getD 0

namespace Op

/-- The token an add hands in. -/
def token? : Op α → Option α
  | .addShared _ t | .addOnce _ t => some t
  | _ => none

/-- Run an operation on a live registry: the tokens it gives back to be run, and the registry
after, none once dropped. -/
def apply (r : Registry α) : Op α → List α × Option (Registry α)
  | .addShared key t => let (_, extra, r') := r.addShared key t; (extra.toList, some r')
  | .addOnce key t => let (_, extra, r') := r.addOnce key t; (extra.toList, some r')
  | .release key =>
    match r.release key with
    | (.removed t, r') => ([t], some r')
    | (_, r') => ([], some r')
  | .forceRelease key => let (t, r') := r.forceRelease key; (t.toList, some r')
  | .releaseAll => let (ts, r') := r.releaseAll; (ts, some r')
  | .drop => (r.releaseAll.1, none)

/-- What an operation is to give back, read off the registry before it: the token of an add on a
held key, at once; a key's stored token when its last holder releases it or it is forced out;
every stored token when all are released or the registry is dropped. -/
def taken (r : Registry α) : Op α → List α
  | .addShared key t | .addOnce key t => if key ∈ r.keys then [t] else []
  | .release key => if r.holders? key = some 1 then ((r.find? key).map (·.token)).toList else []
  | .forceRelease key => ((r.find? key).map (·.token)).toList
  | .releaseAll | .drop => r.tokens

/-- The operation is a shared add on `key`. -/
def joins (key : String) : Op α → Bool
  | .addShared k _ => k == key
  | _ => false

/-- The operation is a release of `key`. -/
def releases (key : String) : Op α → Bool
  | .release k => k == key
  | _ => false

end Op

namespace Move

def token? : Move α → Option α
  | .op o => o.token?
  | .invoke _ => none

def joins (key : String) : Move α → Bool
  | .op o => o.joins key
  | .invoke _ => false

def releases (key : String) : Move α → Bool
  | .op o => o.releases key
  | .invoke _ => false

end Move

namespace Ledger

variable [DecidableEq α]

/-- The registry as its owners see it: empty once dropped. -/
def current (L : Ledger α) : Registry α := L.registry.getD empty

/-- One move. A dropped registry takes no more operations; a token runs only once given back. -/
def step (L : Ledger α) : Move α → Ledger α
  | .op o =>
    match L.registry with
    | none => L
    | some r =>
      let (out, r') := o.apply r
      { L with registry := r', pending := L.pending ++ out, handed := L.handed ++ o.token?.toList }
  | .invoke t =>
    if t ∈ L.pending then { L with pending := L.pending.erase t, invoked := L.invoked ++ [t] }
    else L

/-- The ledger after a list of moves from a fresh registry. -/
def run (ms : List (Move α)) : Ledger α := ms.foldl step {}

end Ledger

/-! ## Each operation on the entry list -/

namespace Op

variable {t : α}

theorem apply_addShared_held (h : r.find? key = some e) :
    (addShared key t).apply r = ([t], some (r.join key)) := by
  simp [apply, Registry.addShared, h]

theorem apply_addShared_new (h : r.find? key = none) :
    (addShared key t).apply r = ([], some ⟨r.entries ++ [(key, ⟨t, 1⟩)]⟩) := by
  simp [apply, Registry.addShared, h]

theorem apply_addOnce_held (h : r.find? key = some e) : (addOnce key t).apply r = ([t], some r) := by
  simp [apply, Registry.addOnce, h]

theorem apply_addOnce_new (h : r.find? key = none) :
    (addOnce key t).apply r = ([], some ⟨r.entries ++ [(key, ⟨t, 1⟩)]⟩) := by
  simp [apply, Registry.addOnce, h]

theorem apply_release_none (h : r.find? key = none) : (release key).apply r = ([], some r) := by
  simp [apply, Registry.release, h]

theorem apply_release_held (h : r.find? key = some e) (hlt : 1 < e.holders) :
    (release key).apply r = ([], some (r.leave key)) := by
  simp [apply, Registry.release, h, hlt]

theorem apply_release_last (h : r.find? key = some e) (hle : e.holders ≤ 1) :
    (release key).apply r = ([e.token], some (r.erase key)) := by
  simp [apply, Registry.release, h, Nat.not_lt.mpr hle]

theorem apply_forceRelease_none (h : r.find? key = none) :
    (forceRelease key).apply r = ([], some r) := by
  simp [apply, Registry.forceRelease, h]

theorem apply_forceRelease_held (h : r.find? key = some e) :
    (forceRelease key).apply r = ([e.token], some (r.erase key)) := by
  simp [apply, Registry.forceRelease, h]

theorem apply_releaseAll : (releaseAll : Op α).apply r = (r.tokens, some empty) := rfl

theorem apply_drop : (drop : Op α).apply r = (r.tokens, none) := rfl

end Op

/-! ## Well-formed registries -/

namespace WellFormed

theorem empty : (empty : Registry α).WellFormed :=
  ⟨List.nodup_nil, by simp [Registry.empty]⟩

theorem holders_of_find? (h : r.WellFormed) (hf : r.find? k = some e) : 1 ≤ e.holders :=
  h.holders_pos _ (mem_of_find? hf)

theorem join (h : r.WellFormed) : (r.join k).WellFormed := by
  refine ⟨by simpa using h.keys_nodup, fun ⟨k', e'⟩ hp => ?_⟩
  obtain ⟨e₀, h₀, rfl⟩ := mem_join.mp hp
  have h₁ := h.holders_pos _ h₀
  split <;> simp only <;> omega

theorem leave (h : r.WellFormed) (hf : r.find? k = some e) (hlt : 1 < e.holders) :
    (r.leave k).WellFormed := by
  refine ⟨by simpa using h.keys_nodup, fun ⟨k', e'⟩ hp => ?_⟩
  obtain ⟨e₀, h₀, rfl⟩ := mem_leave.mp hp
  split
  · next hk =>
    -- the entry under `k` is the one found, held more than once
    subst hk
    have he : r.find? k' = some e₀ := (find?_eq_some_iff h.keys_nodup).mpr h₀
    rw [hf] at he
    cases he
    simp only
    omega
  · exact h.holders_pos _ h₀

theorem erase (h : r.WellFormed) : (r.erase k).WellFormed :=
  ⟨keys_erase_nodup h.keys_nodup, fun ⟨_, _⟩ hp => h.holders_pos _ (mem_erase.mp hp).1⟩

theorem create (h : r.WellFormed) (hf : r.find? k = none) (t : α) :
    (⟨r.entries ++ [(k, ⟨t, 1⟩)]⟩ : Registry α).WellFormed := by
  refine ⟨keys_create_nodup h.keys_nodup hf _, fun p hp => ?_⟩
  rcases List.mem_append.mp hp with hp | hp
  · exact h.holders_pos p hp
  · rw [List.mem_singleton.mp hp]

end WellFormed

theorem find?_of_mem_keys (h : key ∈ r.keys) : ∃ e, r.find? key = some e :=
  Option.ne_none_iff_exists'.mp (mt find?_eq_none_iff.mp (not_not.mpr h))

theorem holders?_of_mem_keys (hk : key ∈ r.keys) : r.holders? key = some (r.count key) := by
  obtain ⟨e, he⟩ := find?_of_mem_keys hk
  simp [holders?, count, he]

theorem keys_create : (⟨r.entries ++ [(k, e)]⟩ : Registry α).keys = r.keys ++ [k] := by
  simp [keys]

/-! ## What each operation gives back, keeps and counts -/

namespace Op

variable {t : α} {o : Op α}

/-- The registry an operation leaves, empty once dropped. -/
abbrev after (r : Registry α) (o : Op α) : Registry α := ((o.apply r).2).getD Registry.empty

theorem apply_wellFormed (h : r.WellFormed) (o : Op α) : (after r o).WellFormed := by
  cases o with
  | addShared key t =>
    cases hf : r.find? key with
    | some e => simpa [after, apply_addShared_held hf] using h.join
    | none => simpa [after, apply_addShared_new hf] using h.create hf t
  | addOnce key t =>
    cases hf : r.find? key with
    | some e => simpa [after, apply_addOnce_held hf] using h
    | none => simpa [after, apply_addOnce_new hf] using h.create hf t
  | release key =>
    cases hf : r.find? key with
    | none => simpa [after, apply_release_none hf] using h
    | some e =>
      by_cases hlt : 1 < e.holders
      · simpa [after, apply_release_held hf hlt] using h.leave hf hlt
      · simpa [after, apply_release_last hf (Nat.not_lt.mp hlt)] using h.erase
  | forceRelease key =>
    cases hf : r.find? key with
    | none => simpa [after, apply_forceRelease_none hf] using h
    | some e => simpa [after, apply_forceRelease_held hf] using h.erase
  | releaseAll => simpa [after, apply_releaseAll] using WellFormed.empty
  | drop => simpa [after, apply_drop] using WellFormed.empty

/-- An operation loses no token: what was stored, with the token handed in, is what is stored
after and what is given back. -/
theorem apply_conserves (h : r.WellFormed) (o : Op α) :
    (r.tokens ++ o.token?.toList).Perm ((after r o).tokens ++ (o.apply r).1) := by
  cases o with
  | addShared key t =>
    cases hf : r.find? key with
    | some e => simp [after, apply_addShared_held hf, token?]
    | none => simp [after, apply_addShared_new hf, token?, tokens]
  | addOnce key t =>
    cases hf : r.find? key with
    | some e => simp [after, apply_addOnce_held hf, token?]
    | none => simp [after, apply_addOnce_new hf, token?, tokens]
  | release key =>
    cases hf : r.find? key with
    | none => simp [after, apply_release_none hf, token?]
    | some e =>
      by_cases hlt : 1 < e.holders
      · simp [after, apply_release_held hf hlt, token?]
      · simpa [after, apply_release_last hf (Nat.not_lt.mp hlt), token?] using
          (tokens_erase_perm h.keys_nodup hf).trans (List.perm_append_singleton _ _).symm
  | forceRelease key =>
    cases hf : r.find? key with
    | none => simp [after, apply_forceRelease_none hf, token?]
    | some e =>
      simpa [after, apply_forceRelease_held hf, token?] using
        (tokens_erase_perm h.keys_nodup hf).trans (List.perm_append_singleton _ _).symm
  | releaseAll => simp [after, apply_releaseAll, token?, tokens, Registry.empty]
  | drop => simp [after, apply_drop, token?, tokens, Registry.empty]

/-- An operation gives back exactly what `taken` says. -/
theorem apply_taken (h : r.WellFormed) (o : Op α) : (o.apply r).1 = o.taken r := by
  cases o with
  | addShared key t | addOnce key t =>
    cases hf : r.find? key with
    | some e =>
      have hk : key ∈ r.keys := not_not.mp (mt find?_eq_none_iff.mpr (by simp [hf]))
      simp [apply_addShared_held hf, apply_addOnce_held hf, taken, hk]
    | none =>
      have hk : key ∉ r.keys := find?_eq_none_iff.mp hf
      simp [apply_addShared_new hf, apply_addOnce_new hf, taken, hk]
  | release key =>
    cases hf : r.find? key with
    | none => simp [apply_release_none hf, taken, holders?, hf]
    | some e =>
      by_cases hlt : 1 < e.holders
      · simp [apply_release_held hf hlt, taken, holders?, hf, Nat.ne_of_gt hlt]
      · -- a key is held at least once, so the last holder leaves
        have he : e.holders = 1 := by have := h.holders_of_find? hf; omega
        simp [apply_release_last hf (Nat.not_lt.mp hlt), taken, holders?, hf, he]
  | forceRelease key =>
    cases hf : r.find? key with
    | none => simp [apply_forceRelease_none hf, taken, hf]
    | some e => simp [apply_forceRelease_held hf, taken, hf]
  | releaseAll => rfl
  | drop => rfl

/-- On a key held before and after, an operation moves the count by its shared adds and
releases of that key; `addOnce` leaves it as it was. -/
theorem count_apply (o : Op α) (hk : key ∈ r.keys)
    (hk' : key ∈ (after r o).keys) :
    (after r o).count key + (if o.releases key then 1 else 0) =
      r.count key + (if o.joins key then 1 else 0) := by
  obtain ⟨e₀, h₀⟩ := find?_of_mem_keys hk
  cases o with
  | addShared k t =>
    cases hf : r.find? k with
    | some e =>
      simp only [after, apply_addShared_held hf, Option.getD_some, count, holders?, find?_join, h₀,
        releases, joins, beq_iff_eq]
      by_cases hkk : key = k <;> simp [hkk, eq_comm]
    | none =>
      -- a new key is not the one held
      have hkk : k ≠ key := fun hkk => by rw [hkk, h₀] at hf; cases hf
      simp [after, apply_addShared_new hf, count, holders?, find?_create, h₀, releases, joins, hkk]
  | addOnce k t =>
    cases hf : r.find? k with
    | some e => simp [after, apply_addOnce_held hf, releases, joins]
    | none => simp [after, apply_addOnce_new hf, count, holders?, find?_create, h₀, releases, joins]
  | release k =>
    cases hf : r.find? k with
    | none =>
      have hkk : k ≠ key := fun hkk => by rw [hkk, h₀] at hf; cases hf
      simp [after, apply_release_none hf, releases, joins, hkk]
    | some e =>
      by_cases hlt : 1 < e.holders
      · simp only [after, apply_release_held hf hlt, Option.getD_some, count, holders?, find?_leave,
          h₀, releases, joins, beq_iff_eq]
        by_cases hkk : key = k
        · subst hkk
          rw [h₀] at hf
          cases hf
          simp only [↓reduceIte, Option.map_some, Option.getD_some, Bool.false_eq_true]
          omega
        · simp [hkk, Ne.symm hkk]
      · rw [after, apply_release_last hf (Nat.not_lt.mp hlt), Option.getD_some] at hk' ⊢
        -- the last release takes the key out, so it is not the one held after
        have hkk : key ≠ k := fun hkk => not_mem_keys_erase (hkk ▸ hk')
        simp [count, holders?, find?_erase, hkk, releases, joins, Ne.symm hkk]
  | forceRelease k =>
    cases hf : r.find? k with
    | none => simp [after, apply_forceRelease_none hf, releases, joins]
    | some e =>
      rw [after, apply_forceRelease_held hf, Option.getD_some] at hk' ⊢
      have hkk : key ≠ k := fun hkk => not_mem_keys_erase (hkk ▸ hk')
      simp [count, holders?, find?_erase, hkk, releases, joins]
  | releaseAll => simp [after, apply_releaseAll, keys, Registry.empty] at hk'
  | drop => simp [after, apply_drop, keys, Registry.empty] at hk'

/-- A key an operation newly holds is held once: the operation created its entry. -/
theorem count_apply_new (o : Op α) (hk : key ∉ r.keys) (hk' : key ∈ (after r o).keys) :
    (after r o).count key = 1 := by
  have hf₀ : r.find? key = none := find?_eq_none_iff.mpr hk
  cases o with
  | addShared k t | addOnce k t =>
    cases hf : r.find? k with
    | some e =>
      simp [after, apply_addShared_held hf, apply_addOnce_held hf] at hk'
      all_goals exact absurd hk' hk
    | none =>
      simp only [after, apply_addShared_new hf, apply_addOnce_new hf, Option.getD_some,
        keys_create, List.mem_append, List.mem_singleton] at hk' ⊢
      have hkk : key = k := hk'.resolve_left hk
      simp [count, holders?, find?_create, hf, hkk]
  | release k =>
    cases hf : r.find? k with
    | none => simp [after, apply_release_none hf] at hk'; exact absurd hk' hk
    | some e =>
      by_cases hlt : 1 < e.holders
      · simp [after, apply_release_held hf hlt] at hk'; exact absurd hk' hk
      · simp only [after, apply_release_last hf (Nat.not_lt.mp hlt), Option.getD_some] at hk'
        obtain ⟨e', he'⟩ := mem_keys.mp hk'
        exact absurd (mem_keys.mpr ⟨e', (mem_erase.mp he').1⟩) hk
  | forceRelease k =>
    cases hf : r.find? k with
    | none => simp [after, apply_forceRelease_none hf] at hk'; exact absurd hk' hk
    | some e =>
      simp only [after, apply_forceRelease_held hf, Option.getD_some] at hk'
      obtain ⟨e', he'⟩ := mem_keys.mp hk'
      exact absurd (mem_keys.mpr ⟨e', (mem_erase.mp he').1⟩) hk
  | releaseAll => simp [after, apply_releaseAll, keys, Registry.empty] at hk'
  | drop => simp [after, apply_drop, keys, Registry.empty] at hk'

end Op

/-! ## Ledgers -/

namespace Ledger

variable [DecidableEq α] {L : Ledger α} {o : Op α} {m : Move α}

/-- What every ledger along a run satisfies: its registry is well formed, and the tokens handed in
are the tokens stored, waiting to run and run. -/
structure Sound (L : Ledger α) : Prop where
  wellFormed : L.current.WellFormed
  conserved : L.handed.Perm (L.current.tokens ++ L.pending ++ L.invoked)

theorem step_op_live {r : Registry α} (hL : L.registry = some r) (o : Op α) :
    L.step (.op o) =
      ⟨(o.apply r).2, L.pending ++ (o.apply r).1, L.invoked, L.handed ++ o.token?.toList⟩ := by
  simp [step, hL]

theorem step_op_dropped (hL : L.registry = none) (o : Op α) : L.step (.op o) = L := by
  simp [step, hL]

omit [DecidableEq α] in
theorem current_live {r : Registry α} (hL : L.registry = some r) : L.current = r := by
  simp [current, hL]

theorem current_step_invoke (t : α) : (L.step (.invoke t)).current = L.current := by
  simp only [step]
  split <;> rfl

/-- Counting moves each token handed in to where the operation put it. -/
theorem perm_shift {H T P I x T' O : List α} (hc : H.Perm (T ++ P ++ I))
    (ho : (T ++ x).Perm (T' ++ O)) : (H ++ x).Perm (T' ++ (P ++ O) ++ I) := by
  rw [List.perm_iff_count] at *
  intro a
  have h₁ := hc a
  have h₂ := ho a
  simp only [List.count_append] at *
  omega

omit [DecidableEq α] in
theorem Sound.init : ({} : Ledger α).Sound :=
  ⟨WellFormed.empty, by simp [current, tokens, Registry.empty]⟩

theorem Sound.next (h : L.Sound) : ∀ m : Move α, (L.step m).Sound
  | .op o => by
    cases hL : L.registry with
    | none => rwa [step_op_dropped hL]
    | some r =>
      have hr : r.WellFormed := current_live hL ▸ h.wellFormed
      have hc := h.conserved
      rw [current_live hL] at hc
      rw [step_op_live hL]
      exact ⟨o.apply_wellFormed hr, perm_shift hc (o.apply_conserves hr)⟩
  | .invoke t => by
    refine ⟨(current_step_invoke t).symm ▸ h.wellFormed, ?_⟩
    simp only [step]
    split
    · next ht =>
      -- the token leaves the waiting list for the list of tokens run
      refine h.conserved.trans (List.perm_iff_count.mpr fun a => ?_)
      have hp := List.perm_iff_count.mp (List.perm_cons_erase ht) a
      simp only [current, List.count_append, List.count_cons, List.count_nil] at hp ⊢
      omega
    · exact h.conserved

theorem Sound.foldl (h : L.Sound) (ms : List (Move α)) : (ms.foldl step L).Sound := by
  induction ms generalizing L with
  | nil => exact h
  | cons m ms ih => exact ih (h.next m)

theorem sound_run (ms : List (Move α)) : (run ms).Sound :=
  Sound.init.foldl ms

/-- The registry is handed only the tokens of the adds it takes. -/
theorem handed_step (L : Ledger α) (m : Move α) :
    (L.step m).handed.Sublist (L.handed ++ m.token?.toList) := by
  cases m with
  | op o =>
    cases hL : L.registry with
    | none => simp [step_op_dropped hL]
    | some r => simp [step_op_live hL, Move.token?]
  | invoke t =>
    simp only [step]
    split <;> simp [Move.token?]

theorem handed_foldl (L : Ledger α) (ms : List (Move α)) :
    (ms.foldl step L).handed.Sublist (L.handed ++ ms.filterMap Move.token?) := by
  induction ms generalizing L with
  | nil => simp
  | cons m ms ih =>
    refine (ih (L.step m)).trans ?_
    have := (handed_step L m).append_right (ms.filterMap Move.token?)
    cases hm : m.token? <;> simpa [hm, List.filterMap_cons] using this

theorem handed_run (ms : List (Move α)) : (run ms).handed.Sublist (ms.filterMap Move.token?) := by
  simpa [run] using handed_foldl {} ms

/-! ## Counting the holders of a key -/

/-- One move changes the count of a key held before and after it by its shared adds and its
releases of that key. -/
theorem count_step (m : Move α) (hk : key ∈ L.current.keys) (hk' : key ∈ (L.step m).current.keys) :
    (L.step m).current.count key + (if m.releases key then 1 else 0) =
      L.current.count key + (if m.joins key then 1 else 0) := by
  cases m with
  | op o =>
    cases hL : L.registry with
    | none => simp [current, hL, keys, Registry.empty] at hk
    | some r =>
      rw [current_live hL] at hk
      rw [step_op_live hL] at hk' ⊢
      rw [current_live hL]
      exact o.count_apply hk hk'
  | invoke t => simp [current_step_invoke, Move.releases, Move.joins]

/-- The move after which a key is held, not held before, created its entry with one holder. -/
theorem count_step_new (m : Move α) (hk : key ∉ L.current.keys)
    (hk' : key ∈ (L.step m).current.keys) : (L.step m).current.count key = 1 := by
  cases m with
  | op o =>
    cases hL : L.registry with
    | none => rw [step_op_dropped hL] at hk'; exact absurd hk' hk
    | some r =>
      rw [current_live hL] at hk
      rw [step_op_live hL] at hk' ⊢
      exact o.count_apply_new hk hk'
  | invoke t => rw [current_step_invoke] at hk'; exact absurd hk' hk

/-- Along moves that keep a key held, its count follows the shared adds and releases of it. -/
theorem count_foldl (L : Ledger α) (post : List (Move α))
    (hheld : ∀ n ≤ post.length, key ∈ ((post.take n).foldl step L).current.keys) :
    (post.foldl step L).current.count key + post.countP (Move.releases key) =
      L.current.count key + post.countP (Move.joins key) := by
  induction post generalizing L with
  | nil => simp
  | cons m post ih =>
    have h₀ : key ∈ L.current.keys := by simpa using hheld 0 (Nat.zero_le _)
    have h₁ : key ∈ (L.step m).current.keys := by simpa using hheld 1 (by simp)
    have hs := count_step m h₀ h₁
    have hrest := ih (L.step m) fun n hn => by simpa using hheld (n + 1) (by simpa using hn)
    simp only [List.foldl_cons, List.countP_cons] at hrest ⊢
    omega

end Ledger

/-! ## Conservation along every run -/

open Ledger

/-- What a registry guarantees along the moves `ms` of its owners. -/
structure Conserves [DecidableEq α] (ms : List (Move α)) : Prop where
  /-- No token runs twice. -/
  invoked_nodup : (run ms).invoked.Nodup
  /-- Every key held has one entry, with at least one holder. -/
  wellFormed : (run ms).current.WellFormed
  /-- Each token handed in is stored, waiting to run, or run: in one place only, and once. -/
  handed_nodup : (run ms).handed.Nodup
  placed : (run ms).handed.Perm ((run ms).current.tokens ++ (run ms).pending ++ (run ms).invoked)
  /-- No token is stored under two keys. -/
  stored_nodup : (run ms).current.tokens.Nodup
  /-- A key's count is one for the move that created its entry, plus one for each shared add on
  it since, less one for each release of it since. -/
  counted : ∀ pre c post key, ms = pre ++ c :: post → key ∉ (run pre).current.keys →
    (∀ n ≤ post.length, key ∈ (run (pre ++ c :: post.take n)).current.keys) →
    ∃ n, (run ms).current.holders? key = some n ∧
      n + post.countP (Move.releases key) = 1 + post.countP (Move.joins key)
  /-- Each operation gives back exactly what `Op.taken` reads off the registry, to be run. -/
  gives : ∀ (o : Op α) r, (run ms).registry = some r →
    ((run ms).step (.op o)).pending = (run ms).pending ++ o.taken r ∧
      ((run ms).step (.op o)).invoked = (run ms).invoked
  /-- Once the registry is dropped and what it gave back has run, every token handed in has run
  exactly once. -/
  drained : (run ms).registry = none → (run ms).pending = [] →
    (run ms).invoked.Perm (run ms).handed

variable [DecidableEq α]

theorem run_append (ms ms' : List (Move α)) : run (ms ++ ms') = ms'.foldl step (run ms) := by
  simp [run, List.foldl_append]

/-- Given distinct tokens, a registry gives back every token exactly once, stores each at most
once, counts the holders of each key by its adds and releases, and leaves nothing behind once
dropped, whatever the operations and however they interleave with the runs of the tokens. -/
theorem release_conservation {ms : List (Move α)} (hfresh : (ms.filterMap Move.token?).Nodup) :
    Conserves ms := by
  have hs := sound_run ms
  have hnd : (run ms).handed.Nodup := hfresh.sublist (handed_run ms)
  -- the three places a token can be are disjoint, since no token is handed in twice
  have hall := hs.conserved.nodup_iff.mp hnd
  refine ⟨(List.nodup_append.mp hall).2.1, hs.wellFormed, hnd, hs.conserved,
    (List.nodup_append.mp (List.nodup_append.mp hall).1).1, ?_, ?_, ?_⟩
  · intro pre c post key hms hk hheld
    subst hms
    have h₀ : key ∈ ((run pre).step c).current.keys := by simpa [run_append] using hheld 0 (by simp)
    have hc := count_foldl ((run pre).step c) post fun n hn => by
      simpa [run_append] using hheld n hn
    rw [count_step_new c hk h₀] at hc
    have hend : key ∈ (run (pre ++ c :: post)).current.keys := by
      simpa using hheld post.length le_rfl
    refine ⟨_, holders?_of_mem_keys hend, ?_⟩
    simpa [run_append] using hc
  · intro o r hL
    rw [step_op_live hL, ← o.apply_taken (current_live hL ▸ hs.wellFormed)]
    exact ⟨rfl, rfl⟩
  · intro hL hp
    have hc := hs.conserved
    simp only [current, hL, Option.getD_none, hp, tokens, Registry.empty, List.map_nil,
      List.nil_append] at hc
    exact hc.symm

/-- Two holders of one key, a redundant token, a release, a second key, then the drop and the
runs of what it gave back. -/
theorem release_conservation_shared :
    ([Move.op (.addShared "a" 1), .op (.addShared "a" 2), .invoke 2, .op (.release "a"),
        .op (.addOnce "b" 3), .op .drop, .invoke 1, .invoke 3].filterMap Move.token?).Nodup ∧
      Conserves [Move.op (.addShared "a" 1), .op (.addShared "a" 2), .invoke 2,
        .op (.release "a"), .op (.addOnce "b" 3), .op .drop, .invoke 1, .invoke 3] :=
  ⟨by decide, release_conservation (by decide)⟩

end Registry

end DaemonBridge
