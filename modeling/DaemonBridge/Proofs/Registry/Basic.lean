import Mathlib
import DaemonBridge.Registry

/-!
# The registry's entry list

Lemmas that read each registry operation back in terms of the entry list: which keys it holds,
which entry a key has, and how `erase`, `join`, `leave` and a creation change them. As long as
no key is held twice (`keys.Nodup`, which every operation keeps), `find?` finds exactly the
entry listed under a key.
-/

namespace DaemonBridge

namespace Registry

variable {α : Type} {r : Registry α} {k k' : String} {e e' : Entry α}

/-- The keys a registry holds, in the order they were created. -/
def keys (r : Registry α) : List String := r.entries.map Prod.fst

/-- The tokens a registry holds, in the order their keys were created. -/
def tokens (r : Registry α) : List α := r.entries.map (·.2.token)

theorem mem_keys : k ∈ r.keys ↔ ∃ e, (k, e) ∈ r.entries := by
  simp [keys]

theorem mem_of_find? (h : r.find? k = some e) : (k, e) ∈ r.entries := by
  obtain ⟨l₁, l₂, hl, -⟩ := List.lookup_eq_some_iff.mp h
  simp [hl]

theorem find?_eq_some_iff (hr : r.keys.Nodup) : r.find? k = some e ↔ (k, e) ∈ r.entries := by
  refine ⟨mem_of_find?, fun h => ?_⟩
  obtain ⟨l₁, l₂, hl⟩ := List.append_of_mem h
  refine List.lookup_eq_some_iff.mpr ⟨l₁, l₂, hl, fun p hp => ?_⟩
  -- the keys listed in front of `k` differ from it, since no key is held twice
  have hnd : (l₁.map Prod.fst ++ k :: l₂.map Prod.fst).Nodup := by simpa [keys, hl] using hr
  have hne : p.1 ≠ k :=
    (List.nodup_append.mp hnd).2.2 p.1 (List.mem_map_of_mem hp) k List.mem_cons_self
  exact bne_iff_ne.mpr (Ne.symm hne)

theorem find?_eq_none_iff : r.find? k = none ↔ k ∉ r.keys := by
  simp only [find?, keys, List.lookup_eq_none_iff, List.mem_map, not_exists, not_and, bne_iff_ne,
    ne_eq]
  exact ⟨fun h p hp hk => h p hp hk.symm, fun h p hp hk => h p hp hk.symm⟩

theorem contains_iff : r.contains k = true ↔ k ∈ r.keys := by
  rw [contains, Option.isSome_iff_ne_none, ne_eq, find?_eq_none_iff, not_not]

@[simp] theorem mem_erase : (k', e) ∈ (r.erase k).entries ↔ (k', e) ∈ r.entries ∧ k' ≠ k := by
  simp [erase, List.mem_filter]

/-- Erasing a key the registry does not hold changes nothing. -/
theorem erase_of_find?_none (h : r.find? k = none) : r.erase k = r := by
  have hk := find?_eq_none_iff.mp h
  cases r with
  | mk entries =>
    simp only [erase, Registry.mk.injEq]
    refine List.filter_eq_self.mpr fun ⟨k', e'⟩ hp => ?_
    have hne : k' ≠ k := fun he => hk (he ▸ List.mem_map_of_mem (f := Prod.fst) hp)
    simpa using hne

theorem keys_erase_nodup (hr : r.keys.Nodup) : (r.erase k).keys.Nodup :=
  hr.sublist (List.Sublist.map _ List.filter_sublist)

theorem not_mem_keys_erase : k ∉ (r.erase k).keys := by
  simp [mem_keys]

theorem mem_join : (k', e') ∈ (r.join k).entries ↔
    ∃ e, (k', e) ∈ r.entries ∧ e' = if k' = k then { e with holders := e.holders + 1 } else e := by
  simp only [join, List.mem_map, beq_iff_eq]
  constructor
  · rintro ⟨⟨k₀, e₀⟩, h, h'⟩
    by_cases hk : k₀ = k
    · subst hk
      obtain ⟨rfl, rfl⟩ := Prod.mk.inj (by simpa using h')
      exact ⟨e₀, h, by simp⟩
    · obtain ⟨rfl, rfl⟩ := Prod.mk.inj (by simpa [hk] using h')
      exact ⟨e₀, h, by simp [hk]⟩
  · rintro ⟨e₀, h, rfl⟩
    exact ⟨(k', e₀), h, by by_cases hk : k' = k <;> simp [hk]⟩

theorem mem_leave : (k', e') ∈ (r.leave k).entries ↔
    ∃ e, (k', e) ∈ r.entries ∧ e' = if k' = k then { e with holders := e.holders - 1 } else e := by
  simp only [leave, List.mem_map, beq_iff_eq]
  constructor
  · rintro ⟨⟨k₀, e₀⟩, h, h'⟩
    by_cases hk : k₀ = k
    · subst hk
      obtain ⟨rfl, rfl⟩ := Prod.mk.inj (by simpa using h')
      exact ⟨e₀, h, by simp⟩
    · obtain ⟨rfl, rfl⟩ := Prod.mk.inj (by simpa [hk] using h')
      exact ⟨e₀, h, by simp [hk]⟩
  · rintro ⟨e₀, h, rfl⟩
    exact ⟨(k', e₀), h, by by_cases hk : k' = k <;> simp [hk]⟩

@[simp] theorem keys_join : (r.join k).keys = r.keys := by
  simp only [keys, join, List.map_map]
  congr 1
  funext p
  by_cases hk : p.1 = k <;> simp [hk]

@[simp] theorem keys_leave : (r.leave k).keys = r.keys := by
  simp only [keys, leave, List.map_map]
  congr 1
  funext p
  by_cases hk : p.1 = k <;> simp [hk]

/-- A key created anew is held once more, at the end. -/
theorem keys_create_nodup (hr : r.keys.Nodup) (hk : r.find? k = none) (e : Entry α) :
    (⟨r.entries ++ [(k, e)]⟩ : Registry α).keys.Nodup := by
  have hnew : k ∉ r.keys := find?_eq_none_iff.mp hk
  simp only [keys, List.map_append, List.map_singleton]
  exact hr.append (List.nodup_singleton k) (List.disjoint_singleton.mpr hnew)

/-! ## Entries found after each operation -/

theorem lookup_cons_ite {a k : String} {b : Entry α} {as : List (String × Entry α)} :
    ((k, b) :: as).lookup a = if a = k then some b else as.lookup a := by
  rw [List.lookup_cons]
  by_cases h : a = k
  · simp [h]
  · simp [beq_false_of_ne h, h]

theorem find?_erase : (r.erase k).find? k' = if k' = k then none else r.find? k' := by
  obtain ⟨entries⟩ := r
  induction entries with
  | nil => simp [erase, find?]
  | cons p rest ih =>
    obtain ⟨k₀, e₀⟩ := p
    simp only [erase, find?] at ih ⊢
    rw [List.filter_cons, lookup_cons_ite]
    by_cases h₀ : k₀ = k
    · -- the head is the entry erased
      rw [if_neg (by simpa using h₀), ih]
      by_cases h₁ : k' = k <;> simp [h₁, h₀]
    · rw [if_pos (by simpa using h₀), lookup_cons_ite, ih]
      by_cases h₁ : k' = k₀
      · simp [h₁, h₀]
      · simp [h₁]

/-- Changing every entry in place changes the entry found. -/
theorem find?_map {f : String → Entry α → Entry α} :
    (⟨r.entries.map fun p => (p.1, f p.1 p.2)⟩ : Registry α).find? k' = (r.find? k').map (f k') := by
  obtain ⟨entries⟩ := r
  induction entries with
  | nil => rfl
  | cons p rest ih =>
    obtain ⟨k₀, e₀⟩ := p
    simp only [find?, List.map_cons, lookup_cons_ite] at ih ⊢
    by_cases h₁ : k' = k₀
    · simp [h₁]
    · simp [h₁, ih]

theorem find?_join : (r.join k).find? k' =
    (r.find? k').map fun e => if k' = k then { e with holders := e.holders + 1 } else e := by
  have hj : r.join k = ⟨r.entries.map fun p =>
      (p.1, if p.1 = k then ⟨p.2.token, p.2.holders + 1⟩ else p.2)⟩ := by
    simp only [join, Registry.mk.injEq]
    refine List.map_congr_left fun ⟨k₀, e₀⟩ _ => ?_
    by_cases h : k₀ = k <;> simp [h]
  rw [hj]
  exact find?_map (f := fun k₀ e => if k₀ = k then ⟨e.token, e.holders + 1⟩ else e)

theorem find?_leave : (r.leave k).find? k' =
    (r.find? k').map fun e => if k' = k then { e with holders := e.holders - 1 } else e := by
  have hl : r.leave k = ⟨r.entries.map fun p =>
      (p.1, if p.1 = k then ⟨p.2.token, p.2.holders - 1⟩ else p.2)⟩ := by
    simp only [leave, Registry.mk.injEq]
    refine List.map_congr_left fun ⟨k₀, e₀⟩ _ => ?_
    by_cases h : k₀ = k <;> simp [h]
  rw [hl]
  exact find?_map (f := fun k₀ e => if k₀ = k then ⟨e.token, e.holders - 1⟩ else e)

theorem find?_create : (⟨r.entries ++ [(k, e)]⟩ : Registry α).find? k' =
    (r.find? k').or (if k' = k then some e else none) := by
  simp [find?, List.lookup_append, lookup_cons_ite]

/-! ## Tokens held after each operation -/

@[simp] theorem tokens_join : (r.join k).tokens = r.tokens := by
  simp only [tokens, join, List.map_map]
  congr 1
  funext p
  by_cases hk : p.1 = k <;> simp [hk]

@[simp] theorem tokens_leave : (r.leave k).tokens = r.tokens := by
  simp only [tokens, leave, List.map_map]
  congr 1
  funext p
  by_cases hk : p.1 = k <;> simp [hk]

/-- Erasing a held key takes out exactly its token. -/
theorem tokens_erase_perm (hr : r.keys.Nodup) (h : r.find? k = some e) :
    r.tokens.Perm (e.token :: (r.erase k).tokens) := by
  obtain ⟨l₁, l₂, hl⟩ := List.append_of_mem (mem_of_find? h)
  -- no other entry is held under `k`
  have hnd : (l₁.map Prod.fst ++ k :: l₂.map Prod.fst).Nodup := by simpa [keys, hl] using hr
  have h₁ : ∀ p ∈ l₁, (p.1 != k) = true := fun p hp => bne_iff_ne.mpr fun he =>
    (List.nodup_append.mp hnd).2.2 p.1 (List.mem_map_of_mem hp) k List.mem_cons_self he
  have h₂ : ∀ p ∈ l₂, (p.1 != k) = true := fun p hp => bne_iff_ne.mpr fun he =>
    (List.nodup_cons.mp (List.nodup_append.mp hnd).2.1).1 (he ▸ List.mem_map_of_mem hp)
  have he : (r.erase k).entries = l₁ ++ l₂ := by
    simp only [erase, hl, List.filter_append, List.filter_cons, bne_self_eq_false,
      Bool.false_eq_true, ↓reduceIte, List.filter_eq_self.mpr h₁, List.filter_eq_self.mpr h₂]
  simp only [tokens, he, hl, List.map_append, List.map_cons]
  exact List.perm_middle

end Registry

end DaemonBridge
