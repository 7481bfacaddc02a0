import Mathlib
import DaemonBridge.Json.Read
import DaemonBridge.Json.Write

/-!
# Documents the reader gives back

What a document must be for its compact text to read back as itself, and what that text looks
like.

* `Value.Canonical`: the document is one the reader can produce. Its objects are maps, keys
  strictly increasing, since the reader collects members with `Fields.insert`; its integers are
  of the kind and range the reader gives them (an unsigned integer below `2 ^ 64`, a negative one
  not below `-2 ^ 63`).
* `Value.depth`: how many containers nest in the document. The reader lets 127 nest.
* `Binary64.ReadsBack`: the text written for a double reads back as that double. Whether it does
  depends on how the reader rounds a decimal to a double; it is taken as an assumption on each
  double a document holds (`Value.floats`).

The compact text of a document starts with a character that tells its kind
(`compact_head`), and the text of a double is a sign, then digits, points, exponent marks and
signs, starting with a digit (`FloatStyle.render_shape`).
-/

namespace DaemonBridge

namespace Json

namespace Number

/-- A number of the kind and range the reader gives it. -/
def InRange : Number → Prop
  | .nat n => n < 2 ^ 64
  | .negInt n => -2 ^ 63 ≤ n ∧ n < 0
  | .float _ => True

end Number

namespace Value

/-- A document the reader can produce: numbers in range, and objects that are maps. -/
inductive Canonical : Value → Prop
  | null : Canonical .null
  | bool (b : Bool) : Canonical (.bool b)
  | number {n : Number} : n.InRange → Canonical (.number n)
  | string (s : String) : Canonical (.string s)
  | array {items : List Value} : (∀ v ∈ items, Canonical v) → Canonical (.array items)
  | object {fields : Fields} : fields.Pairwise (fun a b => a.1 < b.1) →
      (∀ kv ∈ fields, Canonical kv.2) → Canonical (.object fields)

mutual

/-- How many containers nest in the document. -/
def depth : Value → Nat
  | .array items => depthItems items + 1
  | .object fields => depthFields fields + 1
  | _ => 0

/-- The deepest nesting among some items. -/
def depthItems : List Value → Nat
  | [] => 0
  | v :: vs => max (depth v) (depthItems vs)

/-- The deepest nesting among the values of some members. -/
def depthFields : Fields → Nat
  | [] => 0
  | (_, v) :: fs => max (depth v) (depthFields fs)

end

mutual

/-- The doubles the document holds. -/
def floats : Value → List Binary64
  | .number (.float x) => [x]
  | .array items => floatsItems items
  | .object fields => floatsFields fields
  | _ => []

/-- The doubles some items hold. -/
def floatsItems : List Value → List Binary64
  | [] => []
  | v :: vs => floats v ++ floatsItems vs

/-- The doubles the values of some members hold. -/
def floatsFields : Fields → List Binary64
  | [] => []
  | (_, v) :: fs => floats v ++ floatsFields fs

end

theorem floats_subset_floatsItems {w : Value} : ∀ {items : List Value}, w ∈ items →
    w.floats ⊆ floatsItems items
  | v :: vs, h => by
    rw [floatsItems]
    rcases List.mem_cons.mp h with rfl | h
    · exact List.subset_append_left _ _
    · exact List.subset_append_of_subset_right _ (floats_subset_floatsItems h)

theorem floats_subset_floatsFields {kv : String × Value} : ∀ {fields : Fields}, kv ∈ fields →
    kv.2.floats ⊆ floatsFields fields
  | (k, v) :: fs, h => by
    rw [floatsFields]
    rcases List.mem_cons.mp h with rfl | h
    · exact List.subset_append_left _ _
    · exact List.subset_append_of_subset_right _ (floats_subset_floatsFields h)

theorem mem_floatsFields {x : Binary64} :
    ∀ {fs : Fields}, x ∈ floatsFields fs ↔ ∃ kv ∈ fs, x ∈ kv.2.floats
  | [] => by simp [floatsFields]
  | (k, v) :: fs => by simp [floatsFields, mem_floatsFields]

end Value

/-- A key greater than every key of a map goes at its end. -/
theorem Fields.insert_of_lt {k : String} {v : Value} :
    ∀ {acc : Fields}, (∀ kv ∈ acc, kv.1 < k) → Fields.insert acc k v = acc ++ [(k, v)]
  | [], _ => rfl
  | (k', v') :: rest, h => by
    have hlt : k' < k := h (k', v') List.mem_cons_self
    rw [Fields.insert, if_neg (lt_asymm hlt), if_neg (ne_of_gt hlt),
      Fields.insert_of_lt fun kv hkv => h kv (List.mem_cons_of_mem _ hkv)]
    rfl

namespace Fields

variable {fs : Fields} {k : String} {v : Value}

theorem mem_insert {kv : String × Value} : kv ∈ insert fs k v → kv = (k, v) ∨ kv ∈ fs := by
  induction fs with
  | nil => simp [insert]
  | cons kv' rest ih =>
    obtain ⟨k', v'⟩ := kv'
    rw [insert]
    split_ifs
    · simp
    · intro h
      rcases List.mem_cons.mp h with rfl | h
      · exact .inl rfl
      · exact .inr (List.mem_cons_of_mem _ h)
    · intro h
      rcases List.mem_cons.mp h with rfl | h
      · exact .inr List.mem_cons_self
      · exact (ih h).imp id (List.mem_cons_of_mem _)

/-- Inserting into a map with sorted keys keeps them sorted. -/
theorem pairwise_insert (h : fs.Pairwise fun a b => a.1 < b.1) :
    (insert fs k v).Pairwise fun a b => a.1 < b.1 := by
  induction fs with
  | nil => simp [insert]
  | cons kv' rest ih =>
    obtain ⟨k', v'⟩ := kv'
    obtain ⟨hhead, hrest⟩ := List.pairwise_cons.mp h
    rw [insert]
    split_ifs with hlt heq
    · refine List.Pairwise.cons (fun b hb => ?_) h
      rcases List.mem_cons.mp hb with rfl | hb
      · exact hlt
      · exact hlt.trans (hhead b hb)
    · subst heq
      exact List.Pairwise.cons hhead hrest
    · have hgt : k' < k := lt_of_le_of_ne (not_lt.mp hlt) (Ne.symm heq)
      refine List.Pairwise.cons (fun b hb => ?_) (ih hrest)
      rcases mem_insert hb with rfl | hb
      · exact hgt
      · exact hhead b hb

@[simp] theorem get?_insert_self : get? (insert fs k v) k = some v := by
  induction fs with
  | nil => simp [insert, get?]
  | cons kv' rest ih =>
    obtain ⟨k', v'⟩ := kv'
    rw [insert]
    split_ifs with hlt heq
    · simp [get?]
    · simp [get?]
    · simpa [get?, Ne.symm heq] using ih

@[simp] theorem erase_insert_self : erase (insert fs k v) k = erase fs k := by
  induction fs with
  | nil => simp [insert, erase]
  | cons kv' rest ih =>
    obtain ⟨k', v'⟩ := kv'
    rw [insert]
    split_ifs with hlt heq
    · simp [erase]
    · subst heq
      simp [erase]
    · have hne : (k' != k) = true := bne_iff_ne.mpr (Ne.symm heq)
      simp only [erase] at ih ⊢
      simp only [List.filter_cons, hne, if_true, ih]

theorem get?_eq_none (h : k ∉ fs.map Prod.fst) : get? fs k = none := by
  simp only [get?, Option.map_eq_none_iff, List.find?_eq_none, beq_iff_eq]
  exact fun kv hkv hk => h (hk ▸ List.mem_map_of_mem hkv)

/-- Erasing a key leaves a map as it is exactly when the key is not in it. -/
theorem erase_eq_self_iff : erase fs k = fs ↔ k ∉ fs.map Prod.fst := by
  simp only [erase, List.filter_eq_self, bne_iff_ne, ne_eq, List.mem_map, not_exists, not_and]

/-- A member whose key is new adds its nesting to the map's. -/
theorem depthFields_insert (h : k ∉ fs.map Prod.fst) :
    Value.depthFields (insert fs k v) = max (Value.depthFields fs) v.depth := by
  induction fs with
  | nil => simp [insert, Value.depthFields]
  | cons kv' rest ih =>
    obtain ⟨k', v'⟩ := kv'
    simp only [List.map_cons, List.mem_cons, not_or] at h
    rw [insert]
    split_ifs with hlt heq
    · simp only [Value.depthFields]
      omega
    · exact absurd heq h.1
    · simp only [Value.depthFields, ih h.2]
      omega

end Fields

end Json

/-- The text written for the double reads back as the same double. -/
def Binary64.ReadsBack (x : Binary64) : Prop :=
  Json.Value.parse (Json.Value.number (.float x)).compact = .ok (.number (.float x))

namespace Json

/-- A document the reader gives back from its text: one it can produce, whose doubles read back. -/
def Value.Readable (v : Value) : Prop := v.Canonical ∧ ∀ x ∈ v.floats, x.ReadsBack

/-- A character of the text of a number. -/
def NumberChar (c : Char) : Prop := c.isDigit = true ∨ c = '.' ∨ c = 'e' ∨ c = '+' ∨ c = '-'

instance (c : Char) : Decidable (NumberChar c) := inferInstanceAs (Decidable (_ ∨ _))

theorem numberChar_of_mem_toDigits {c : Char} {n : Nat} (h : c ∈ Nat.toDigits 10 n) :
    NumberChar c :=
  .inl (Nat.isDigit_of_mem_toDigits (by omega) (by omega) h)

theorem toList_repeatChar (c : Char) (n : Nat) : (repeatChar c n).toList = List.replicate n c := by
  simp [repeatChar]

/-- The text of a double: its sign, then a body of number characters starting with a digit. -/
theorem FloatStyle.render_shape (style : FloatStyle) (x : Binary64) :
    ∃ body, (style.render x).toList = (if x.sign then "-" else "").toList ++ body ∧
      (∃ c cs, body = c :: cs ∧ c.isDigit = true) ∧ ∀ ch ∈ body, NumberChar ch := by
  obtain ⟨d, ds, hds⟩ := List.exists_cons_of_ne_nil
    (Nat.toDigits_ne_nil (b := 10) (n := x.shortest.digits))
  have hdigits : ∀ ch ∈ d :: ds, NumberChar ch := fun ch h =>
    numberChar_of_mem_toDigits (n := x.shortest.digits) (by rw [hds]; exact h)
  have hd : d.isDigit = true := Nat.isDigit_of_mem_toDigits (b := 10) (n := x.shortest.digits)
    (by omega) (by omega) (by rw [hds]; exact List.mem_cons_self)
  have hnat : ∀ n, ∀ ch ∈ (natText n).toList, NumberChar ch := fun n ch h =>
    numberChar_of_mem_toDigits (by simpa [natText] using h)
  have hzero : ∀ n, ∀ ch ∈ List.replicate n '0', NumberChar ch := fun n ch h => by
    rw [List.eq_of_mem_replicate h]; exact .inl rfl
  have hmarks : NumberChar '.' ∧ NumberChar 'e' ∧ NumberChar '+' ∧ NumberChar '-' := by decide
  unfold FloatStyle.render
  dsimp only
  generalize (if x.sign then "-" else "") = sign
  split_ifs with hz hk hn hw
  all_goals simp only [String.toList_append, String.toList_ofList, hds, toList_repeatChar,
    List.append_assoc, String.reduceToList]
  · exact ⟨_, rfl, ⟨'0', _, rfl, rfl⟩, by simp [NumberChar]⟩
  · refine ⟨_, rfl, ⟨d, _, rfl, hd⟩, ?_⟩
    simp only [List.forall_mem_append]
    exact ⟨hdigits, hzero _, by simp [NumberChar]⟩
  · refine ⟨_, rfl, ⟨d, _, by rw [List.take_succ_cons]; rfl, hd⟩, ?_⟩
    simp only [List.forall_mem_append]
    exact ⟨fun ch h => hdigits ch (List.mem_of_mem_take h), by simp [NumberChar],
      fun ch h => hdigits ch (List.mem_of_mem_drop h)⟩
  · refine ⟨_, rfl, ⟨'0', _, rfl, rfl⟩, ?_⟩
    simp only [List.forall_mem_append]
    exact ⟨by simp [NumberChar], hzero _, hdigits⟩
  -- the scientific form: the digits with a point after the first when there are more, `e`, the
  -- exponent's sign when it is written, and the exponent's digits
  all_goals
    rcases ds with _ | ⟨e, es⟩
    all_goals
      simp only [List.forall_mem_cons] at hdigits
      simp only [Char.toString_eq_singleton, String.toList_singleton, String.toList_append,
        String.toList_ofList, String.reduceToList, List.cons_append, List.nil_append]
      refine ⟨_, rfl, ⟨d, _, rfl, hd⟩, ?_⟩
      simp only [List.forall_mem_append, List.forall_mem_cons, hdigits, hmarks, true_and]
    · exact hnat _
    · exact ⟨hdigits.2.2, hnat _⟩

/-- The decimal text of a natural number starts with a digit. -/
theorem natText_head (n : Nat) : ∃ d ds, (natText n).toList = d :: ds ∧ d.isDigit = true := by
  obtain ⟨d, ds, hds⟩ := List.exists_cons_of_ne_nil (Nat.toDigits_ne_nil (b := 10) (n := n))
  refine ⟨d, ds, by simp [natText, hds], ?_⟩
  exact Nat.isDigit_of_mem_toDigits (b := 10) (n := n) (by omega) (by omega)
    (by rw [hds]; exact List.mem_cons_self)

/-- A character that can open a document. -/
def OpensValue (c : Char) : Prop :=
  c = 'n' ∨ c = 't' ∨ c = 'f' ∨ c = '"' ∨ c = '[' ∨ c = '{' ∨ c = '-' ∨ c.isDigit = true

/-- The compact text of a number opens with a digit or a minus sign, or is `null`. -/
theorem Number.render_head (n : Number) : ∃ c cs, n.render.toList = c :: cs ∧ OpensValue c := by
  cases n with
  | nat n =>
    obtain ⟨d, ds, hds, hd⟩ := natText_head n
    exact ⟨d, ds, hds, .inr (.inr (.inr (.inr (.inr (.inr (.inr hd))))))⟩
  | negInt n =>
    obtain ⟨d, ds, hds, hd⟩ := natText_head n.natAbs
    dsimp only [Number.render, intText]
    split_ifs
    · exact ⟨'-', d :: ds, by simp [hds], .inr (.inr (.inr (.inr (.inr (.inr (.inl rfl))))))⟩
    · exact ⟨d, ds, hds, .inr (.inr (.inr (.inr (.inr (.inr (.inr hd))))))⟩
  | float x =>
    dsimp only [Number.render]
    split_ifs
    · obtain ⟨body, hbody, ⟨d, ds, rfl, hd⟩, -⟩ := FloatStyle.json.render_shape x
      rw [hbody]
      split_ifs
      · exact ⟨'-', d :: ds, by simp, .inr (.inr (.inr (.inr (.inr (.inr (.inl rfl))))))⟩
      · exact ⟨d, ds, by simp, .inr (.inr (.inr (.inr (.inr (.inr (.inr hd))))))⟩
    · exact ⟨'n', ['u', 'l', 'l'], by simp, .inl rfl⟩

/-- The compact text of a document is never empty, and its first character opens a value. -/
theorem Value.compact_head (v : Value) : ∃ c cs, v.compact.toList = c :: cs ∧ OpensValue c := by
  cases v with
  | null => exact ⟨'n', ['u', 'l', 'l'], by simp [compact], .inl rfl⟩
  | bool b =>
    cases b
    · exact ⟨'f', ['a', 'l', 's', 'e'], by simp [compact], .inr (.inr (.inl rfl))⟩
    · exact ⟨'t', ['r', 'u', 'e'], by simp [compact], .inr (.inl rfl)⟩
  | number n => simpa [compact] using n.render_head
  | string s =>
    exact ⟨'"', s.toList.flatMap escapeChar ++ ['"'], by simp [compact, quote],
      .inr (.inr (.inr (.inl rfl)))⟩
  | array items =>
    exact ⟨'[', (compactItems items).toList ++ [']'], by simp [compact],
      .inr (.inr (.inr (.inr (.inl rfl))))⟩
  | object fields =>
    exact ⟨'{', (compactFields fields).toList ++ ['}'], by simp [compact],
      .inr (.inr (.inr (.inr (.inr (.inl rfl)))))⟩

end Json

end DaemonBridge
