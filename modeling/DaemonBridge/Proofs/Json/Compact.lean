import Mathlib
import DaemonBridge.Proofs.Json.Steps
import DaemonBridge.Proofs.Json.Documents

/-!
# Compact text reads back

The reader gives back every document it can produce from the document's compact text, as long as
the document nests no deeper than the room the reader is given; a deeper one fails
(`compactReads_of_canonical`; for whole texts `Value.parse_compact` and
`Value.parse_compact_deep`).

The proof follows the reader: one lemma for each character that opens a value
(`reads_value_null`, `reads_value_array`, ...), one for each container loop (`items_loop`,
`members_loop`), and an induction over `Value.Canonical` that joins them. Doubles are the one
place where the reader's rounding matters. For them the hypothesis `Binary64.ReadsBack` (the
double's own text reads back) is moved to any place in a larger text by the scanner's locality
(`number_extends`).
-/

namespace DaemonBridge.Json

namespace Reader

open Scan

variable {cs mid rest : List Char} {room : Nat}

theorem OpensValue.not_isBlank {c : Char} (h : OpensValue c) : ¬ IsBlank c ∧ c ≠ ']' := by
  -- a value opens with one of seven marks or with a digit
  have hmarks : ['n', 't', 'f', '"', '[', '{', '-'] ⊆ ['[', ']', '{', '}', ',', ':', '"', 'n', 't',
      'f', '-'] := by decide
  obtain hm | hd : c ∈ ['n', 't', 'f', '"', '[', '{', '-'] ∨ c.isDigit = true := by
    simpa only [OpensValue, List.mem_cons, List.not_mem_nil, or_false, or_assoc] using h
  · exact ⟨not_isBlank_of_mem (hmarks hm), by rintro rfl; simp at hm⟩
  · exact ⟨by rintro (rfl | rfl | rfl | rfl) <;> simp at hd, by rintro rfl; simp at hd⟩

/-! ## One step at one offset -/

theorem blank_bind_run {c : Char} (hb : ¬ IsBlank c) (cs : List Char) (off : Nat)
    {β : Type} (f : Option Char → Reader β) :
    (blank >>= f).run.run ⟨c :: cs, off⟩ = (f (some c)).run.run ⟨c :: cs, off⟩ := by
  rw [ExceptT.run_bind, StateT.run_bind, blank_run, skipBlank_cons hb]
  rfl

theorem bump_bind_run (c : Char) (cs : List Char) (off : Nat) {β : Type} (f : Unit → Reader β) :
    (bump >>= f).run.run ⟨c :: cs, off⟩ = (f ()).run.run ⟨cs, off + c.utf8Size⟩ := rfl

/-- On a digit the reader reads a number, with the scanner for unsigned numbers. -/
theorem value_run_digit {c : Char} (hc : isDigit c = true) (cs : List Char) (room off : Nat) :
    (value room).run.run ⟨c :: cs, off⟩ =
      (do let n ← scan (Scan.number true); pure (Value.number n) : Reader Value).run.run
        ⟨c :: cs, off⟩ := by
  have hb : ¬ IsBlank c := by
    rintro (rfl | rfl | rfl | rfl) <;> simp [isDigit] at hc
  rw [value.eq_def, blank_bind_run hb]
  split <;> rename_i heq
  -- every other opening character is not a digit
  all_goals (cases heq; try exact absurd hc (by decide))
  rw [if_pos hc]

/-- After a minus sign the reader reads a number, with the scanner for negative numbers. -/
theorem value_run_minus (cs : List Char) (room off : Nat) :
    (value room).run.run ⟨'-' :: cs, off⟩ =
      (do let n ← scan (Scan.number false); pure (Value.number n) : Reader Value).run.run
        ⟨cs, off + 1⟩ := by
  rw [value.eq_def, blank_bind_run (not_isBlank_of_mem (by simp))]
  exact bump_bind_run '-' cs off _

theorem scan_run_ok {α : Type} {s : List Char → Nat → Scanned α} {off off' : Nat} {a : α}
    (h : s cs off = .ok (a, rest, off')) : (scan s).run.run ⟨cs, off⟩ = (.ok a, ⟨rest, off'⟩) := by
  rw [scan, get_bind_run]
  simp only [h]
  rfl

/-! ## What the reader does on each opening character -/

theorem reads_value_digit {c : Char} (hc : isDigit c = true) {n : Number}
    (h : Scans (Scan.number true) (c :: cs) n rest) :
    Reads (value room) (c :: cs) (.number n) rest := by
  intro off
  rw [value_run_digit hc]
  exact ((reads_scan h).bind (f := fun n => pure (Value.number n)) (reads_pure _ _)) off

theorem reads_value_minus {n : Number}
    (h : ∀ off, ∃ off', Scan.number false cs (off + 1) = .ok (n, rest, off')) :
    Reads (value room) ('-' :: cs) (.number n) rest := by
  intro off
  obtain ⟨off', h⟩ := h off
  refine ⟨off', ?_⟩
  rw [value_run_minus, ExceptT.run_bind, StateT.run_bind, scan_run_ok h]
  rfl

theorem reads_value_null (rest : List Char) :
    Reads (value room) ('n' :: 'u' :: 'l' :: 'l' :: rest) .null rest := by
  rw [value.eq_def]
  refine (reads_blank (not_isBlank_of_mem (by simp)) _).bind ?_
  show Reads (do bump; word ['u', 'l', 'l']; pure Value.null) _ _ _
  exact (reads_bump _ _).bind ((reads_word ['u', 'l', 'l'] rest).bind (reads_pure _ _))

theorem reads_value_true (rest : List Char) :
    Reads (value room) ('t' :: 'r' :: 'u' :: 'e' :: rest) (.bool true) rest := by
  rw [value.eq_def]
  refine (reads_blank (not_isBlank_of_mem (by simp)) _).bind ?_
  show Reads (do bump; word ['r', 'u', 'e']; pure (Value.bool true)) _ _ _
  exact (reads_bump _ _).bind ((reads_word ['r', 'u', 'e'] rest).bind (reads_pure _ _))

theorem reads_value_false (rest : List Char) :
    Reads (value room) ('f' :: 'a' :: 'l' :: 's' :: 'e' :: rest) (.bool false) rest := by
  rw [value.eq_def]
  refine (reads_blank (not_isBlank_of_mem (by simp)) _).bind ?_
  show Reads (do bump; word ['a', 'l', 's', 'e']; pure (Value.bool false)) _ _ _
  exact (reads_bump _ _).bind ((reads_word ['a', 'l', 's', 'e'] rest).bind (reads_pure _ _))

theorem reads_value_string (s : String) (rest : List Char) :
    Reads (value room) ((quote s).toList ++ rest) (.string s) rest := by
  rw [toList_quote, List.cons_append, List.append_assoc, List.singleton_append, value.eq_def]
  refine (reads_blank (not_isBlank_of_mem (by simp)) _).bind ?_
  show Reads (do bump; let s ← stringBody; pure (Value.string s)) _ _ _
  exact (reads_bump _ _).bind ((reads_stringBody s rest).bind (reads_pure _ _))

/-- A list is read by the item loop, with one step of fuel for each character after its bracket,
then closed. -/
theorem reads_value_array {vs : List Value}
    (h : Reads (items room (cs.length + 1) true []) cs vs mid) (hclose : Reads closeList mid () rest) :
    Reads (value (room + 1)) ('[' :: cs) (.array vs) rest := by
  rw [value.eq_def]
  refine (reads_blank (not_isBlank_of_mem (by simp)) _).bind ?_
  show Reads (do
    bump
    let c ← get
    let vs ← enclosed (items room (c.rest.length + 1) true []) closeList
    pure (Value.array vs)) _ _ _
  exact (reads_bump _ _).bind
    (reads_get_bind fun _ => (reads_enclosed h hclose).bind (reads_pure _ _))

theorem fails_value_array (h : Fails (items room (cs.length + 1) true []) cs) :
    Fails (value (room + 1)) ('[' :: cs) := by
  rw [value.eq_def]
  refine (reads_blank (not_isBlank_of_mem (by simp)) _).bind_fails ?_
  show Fails (do
    bump
    let c ← get
    let vs ← enclosed (items room (c.rest.length + 1) true []) closeList
    pure (Value.array vs)) _
  exact (reads_bump _ _).bind_fails (fails_get_bind fun _ => (fails_enclosed h).bind)

/-- With no room left, a list is refused. -/
theorem fails_value_array_zero (cs : List Char) : Fails (value 0) ('[' :: cs) := by
  rw [value.eq_def]
  exact (reads_blank (not_isBlank_of_mem (by simp)) _).bind_fails (fails_failAhead _ _)

theorem reads_value_object {fs : Fields}
    (h : Reads (members room (cs.length + 1) true []) cs fs mid)
    (hclose : Reads closeObject mid () rest) :
    Reads (value (room + 1)) ('{' :: cs) (.object fs) rest := by
  rw [value.eq_def]
  refine (reads_blank (not_isBlank_of_mem (by simp)) _).bind ?_
  show Reads (do
    bump
    let c ← get
    let fs ← enclosed (members room (c.rest.length + 1) true []) closeObject
    pure (Value.object fs)) _ _ _
  exact (reads_bump _ _).bind
    (reads_get_bind fun _ => (reads_enclosed h hclose).bind (reads_pure _ _))

theorem fails_value_object (h : Fails (members room (cs.length + 1) true []) cs) :
    Fails (value (room + 1)) ('{' :: cs) := by
  rw [value.eq_def]
  refine (reads_blank (not_isBlank_of_mem (by simp)) _).bind_fails ?_
  show Fails (do
    bump
    let c ← get
    let fs ← enclosed (members room (c.rest.length + 1) true []) closeObject
    pure (Value.object fs)) _
  exact (reads_bump _ _).bind_fails (fails_get_bind fun _ => (fails_enclosed h).bind)

/-- With no room left, an object is refused. -/
theorem fails_value_object_zero (cs : List Char) : Fails (value 0) ('{' :: cs) := by
  rw [value.eq_def]
  exact (reads_blank (not_isBlank_of_mem (by simp)) _).bind_fails (fails_failAhead _ _)

/-! ## Doubles -/

theorem NumberChar.not_isBlank {c : Char} (h : NumberChar c) : ¬ IsBlank c := by
  rcases h with h | rfl | rfl | rfl | rfl
  · rintro (rfl | rfl | rfl | rfl) <;> revert h <;> decide
  all_goals decide

/-- Only blanks left means nothing left, in a text without blanks. -/
theorem eq_nil_of_skipBlank {r : List Char} {off : Nat} (h : ∀ c ∈ r, ¬ IsBlank c)
    (hs : (skipBlank r off).1 = []) : r = [] := by
  rcases r with _ | ⟨c, r⟩
  · rfl
  · rw [skipBlank_cons (h c List.mem_cons_self)] at hs
    cases hs

/-- A number read at one offset, from the reader's run. -/
theorem number_run_inv {p : Bool} {off : Nat} {v : Value} {c : Cursor}
    (h : (do let n ← scan (Scan.number p); pure (Value.number n) : Reader Value).run.run
      ⟨cs, off⟩ = (.ok v, c)) :
    ∃ n, Scan.number p cs off = .ok (n, c.rest, c.offset) ∧ v = .number n := by
  rw [run_bind_run] at h
  rcases hs : Scan.number p cs off with _ | ⟨n, r, o⟩
  · rw [scan, get_bind_run] at h
    simp only [hs] at h
    cases h
  · rw [scan_run_ok hs] at h
    cases h
    exact ⟨n, rfl, rfl⟩

/-- A double without JSON text is written `null`, which reads back as `null`: a double that reads
back is finite. -/
theorem isFinite_of_readsBack {x : Binary64} (hx : x.ReadsBack) : x.isFinite = true := by
  by_contra hne
  have hnull : Value.parse (Value.number (.float x)).compact = .ok .null := by
    apply runText_of_reads
    simp only [Value.compact, Number.render, hne, if_false, String.reduceToList]
    exact reads_value_null []
  rw [Binary64.ReadsBack, hnull] at hx
  cases hx

/-- The text of a double that reads back on its own reads back inside any compact text, before
a delimiter. The one run the hypothesis gives, from offset zero, is moved to every offset and
every delimiter by the scanner's locality. -/
theorem reads_value_float {x : Binary64} (hx : x.ReadsBack) (hr : Delimited rest) (room : Nat) :
    Reads (value room) ((Value.number (.float x)).compact.toList ++ rest)
      (.number (.float x)) rest := by
  -- a double without JSON text is written `null`, which reads back as `null`
  have hfin := isFinite_of_readsBack hx
  obtain ⟨body, hbody, ⟨d, ds, rfl, hd⟩, hchars⟩ := FloatStyle.json.render_shape x
  have htext : (Value.number (.float x)).compact.toList =
      (if x.sign then "-" else "").toList ++ d :: ds := by
    simp only [Value.compact, Number.render, hfin, if_true, hbody]
  have hnb : ∀ ch ∈ d :: ds, ¬ IsBlank ch := fun ch h => NumberChar.not_isBlank (hchars ch h)
  obtain ⟨c, hrun, hblank⟩ := runText_ok_inv hx
  rw [htext] at hrun ⊢
  cases hsign : x.sign
  all_goals simp only [hsign, Bool.false_eq_true, if_false, if_true, String.reduceToList,
    List.nil_append, List.cons_append] at hrun ⊢
  -- the run from offset zero, which the hypothesis gives, reads the whole text
  · rw [value_run_digit hd] at hrun
    obtain ⟨n, hn, hv⟩ := number_run_inv hrun
    cases hv
    have hnil : c.rest = [] :=
      eq_nil_of_skipBlank (fun ch h => hnb ch ((number_suffix true _ _ _ _ _ hn).subset h)) hblank
    refine reads_value_digit hd fun off => ⟨c.offset + off, ?_⟩
    have := number_extends true _ _ _ _ _ hn rest off (fun _ => hr)
    rwa [hnil, List.nil_append, Nat.zero_add] at this
  · rw [value_run_minus] at hrun
    obtain ⟨n, hn, hv⟩ := number_run_inv hrun
    cases hv
    have hnil : c.rest = [] :=
      eq_nil_of_skipBlank (fun ch h => hnb ch ((number_suffix false _ _ _ _ _ hn).subset h)) hblank
    refine reads_value_minus fun off => ⟨c.offset + off, ?_⟩
    have := number_extends false _ _ _ _ _ hn rest off (fun _ => hr)
    rwa [hnil, List.nil_append, show 0 + 1 + off = off + 1 by omega] at this

/-- Of the documents whose doubles read back, only `null` is written starting with `n`. -/
theorem compact_head_ne_n {v : Value} (hf : ∀ x ∈ v.floats, x.ReadsBack) (hv : v ≠ .null) :
    ∃ c cs, v.compact.toList = c :: cs ∧ ¬ IsBlank c ∧ c ≠ 'n' := by
  obtain ⟨c, cs, hc, hopen⟩ := v.compact_head
  refine ⟨c, cs, hc, (OpensValue.not_isBlank hopen).1, ?_⟩
  rintro rfl
  cases v with
  | null => exact hv rfl
  | bool b => cases b <;> simp [Value.compact] at hc
  | number n =>
    cases n with
    | nat n =>
      obtain ⟨d, ds, hds, hd⟩ := natText_head n
      simp only [Value.compact, Number.render, hds, List.cons.injEq] at hc
      rw [hc.1] at hd
      exact absurd hd (by decide)
    | negInt n =>
      obtain ⟨d, ds, hds, hd⟩ := natText_head n.natAbs
      simp only [Value.compact, Number.render, intText] at hc
      split_ifs at hc
      · simp [hds] at hc
      · rw [hds, List.cons.injEq] at hc
        rw [hc.1] at hd
        exact absurd hd (by decide)
    | float x =>
      obtain ⟨body, hbody, ⟨d, ds, rfl, hd⟩, -⟩ := FloatStyle.json.render_shape x
      have hfin := isFinite_of_readsBack (hf x (by simp [Value.floats]))
      simp only [Value.compact, Number.render, hfin, if_true, hbody] at hc
      split_ifs at hc
      · simp at hc
      · simp only [String.reduceToList, List.nil_append, List.cons.injEq] at hc
        rw [hc.1] at hd
        exact absurd hd (by decide)
  | string s => simp [Value.compact, quote] at hc
  | array items => simp [Value.compact] at hc
  | object fields => simp [Value.compact] at hc

/-! ## Reading within a nesting limit -/

section Within

variable {α β : Type} {r : Reader α} {f : α → Reader β} {a : α} {b : β} {d d₁ d₂ : Nat}

/-- The reader `r` reads `a` from `cs`, leaving `rest`, when the nesting `depth` fits in `room`,
and fails otherwise. -/
def ReadsWithin (r : Reader α) (cs : List Char) (a : α) (rest : List Char) (depth room : Nat) :
    Prop :=
  (depth ≤ room → Reads r cs a rest) ∧ (room < depth → Fails r cs)

theorem Reads.within (h : Reads r cs a rest) : ReadsWithin r cs a rest 0 room :=
  ⟨fun _ => h, fun hd => absurd hd (Nat.not_lt_zero room)⟩

theorem Reads.bind_within (h : Reads r cs a mid) (hf : ReadsWithin (f a) mid b rest d room) :
    ReadsWithin (r >>= f) cs b rest d room :=
  ⟨fun hd => h.bind (hf.1 hd), fun hd => h.bind_fails (hf.2 hd)⟩

/-- Two readers in a row fit when both fit: the deeper one decides. -/
theorem ReadsWithin.bind (h : ReadsWithin r cs a mid d₁ room)
    (hf : ReadsWithin (f a) mid b rest d₂ room) :
    ReadsWithin (r >>= f) cs b rest (max d₁ d₂) room := by
  refine ⟨fun hd => (h.1 (le_of_max_le_left hd)).bind (hf.1 (le_of_max_le_right hd)), fun hd => ?_⟩
  rcases lt_or_ge room d₁ with h₁ | h₁
  · exact (h.2 h₁).bind
  · exact (h.1 h₁).bind_fails (hf.2 (by omega))

end Within

/-- A list, read by the item loop and closed, nests one deeper than its items; with no room left
it is refused. -/
theorem within_value_array {vs : List Value} {d : Nat}
    (h : ∀ room, ReadsWithin (items room (cs.length + 1) true []) cs vs (']' :: rest) d room) :
    ReadsWithin (value room) ('[' :: cs) (.array vs) rest (d + 1) room := by
  cases room with
  | zero => exact ⟨fun hd => absurd hd (by omega), fun _ => fails_value_array_zero cs⟩
  | succ room =>
    exact ⟨fun hd => reads_value_array ((h room).1 (by omega)) (reads_closeList rest),
      fun hd => fails_value_array ((h room).2 (by omega))⟩

theorem within_value_object {fs : Fields} {d : Nat}
    (h : ∀ room, ReadsWithin (members room (cs.length + 1) true []) cs fs ('}' :: rest) d room) :
    ReadsWithin (value room) ('{' :: cs) (.object fs) rest (d + 1) room := by
  cases room with
  | zero => exact ⟨fun hd => absurd hd (by omega), fun _ => fails_value_object_zero cs⟩
  | succ room =>
    exact ⟨fun hd => reads_value_object ((h room).1 (by omega)) (reads_closeObject rest),
      fun hd => fails_value_object ((h room).2 (by omega))⟩

/-! ## Containers -/

/-- What the reader makes of a document's compact text followed by a delimiter, in every room:
the document when the room suffices for its nesting, a failure otherwise. -/
def CompactReads (v : Value) : Prop :=
  ∀ room rest, Delimited rest → ReadsWithin (value room) (v.compact.toList ++ rest) v rest v.depth room

/-- Items after the first: each behind its comma. -/
def commaItems (vs : List Value) : List Char := vs.flatMap fun v => ',' :: v.compact.toList

/-- Members after the first: each behind its comma. -/
def commaFields (fs : Fields) : List Char :=
  fs.flatMap fun kv => ',' :: ((quote kv.1).toList ++ ':' :: kv.2.compact.toList)

theorem toList_compactItems_cons (v : Value) (vs : List Value) :
    (Value.compactItems (v :: vs)).toList = v.compact.toList ++ commaItems vs := by
  induction vs generalizing v with
  | nil => simp [Value.compactItems, commaItems]
  | cons w ws ih =>
    rw [Value.compactItems.eq_3 v (w :: ws) (List.cons_ne_nil w ws), String.toList_append,
      String.toList_append, ih]
    simp [commaItems]

theorem toList_compactFields_cons (k : String) (v : Value) (fs : Fields) :
    (Value.compactFields ((k, v) :: fs)).toList =
      (quote k).toList ++ ':' :: v.compact.toList ++ commaFields fs := by
  induction fs generalizing k v with
  | nil => simp [Value.compactFields, commaFields]
  | cons kw fs ih =>
    obtain ⟨k', w⟩ := kw
    rw [Value.compactFields.eq_3 k v ((k', w) :: fs) (List.cons_ne_nil _ fs), String.toList_append,
      String.toList_append, ih]
    simp [commaFields]

theorem delimited_commaItems (vs : List Value) (rest : List Char) :
    Delimited (commaItems vs ++ ']' :: rest) := by
  cases vs with
  | nil => exact .inr (.inl rfl)
  | cons v vs => exact .inl rfl

theorem delimited_commaFields (fs : Fields) (rest : List Char) :
    Delimited (commaFields fs ++ '}' :: rest) := by
  cases fs with
  | nil => exact .inr (.inr rfl)
  | cons kv fs => exact .inl rfl

theorem length_le_commaItems (vs : List Value) : vs.length ≤ (commaItems vs).length := by
  induction vs with
  | nil => simp [commaItems]
  | cons v vs ih => simp only [commaItems, List.flatMap_cons] at ih ⊢; simp; omega

theorem length_le_commaFields (fs : Fields) : fs.length ≤ (commaFields fs).length := by
  induction fs with
  | nil => simp [commaFields]
  | cons kv fs ih => simp only [commaFields, List.flatMap_cons] at ih ⊢; simp; omega

/-- One turn of the item loop, once `moreItems` has said that an item follows and left the
reader at it: the item, then the loop over the items after it. -/
theorem items_step {first : Bool} {text : List Char} {w : Value} {ws acc : List Value} {fuel : Nat}
    (hmore : Reads (moreItems first) text true (w.compact.toList ++ (commaItems ws ++ ']' :: rest)))
    (hw : CompactReads w)
    (hrec : ReadsWithin (items room fuel false (w :: acc)) (commaItems ws ++ ']' :: rest)
      (acc.reverse ++ w :: ws) (']' :: rest) (Value.depthItems ws) room) :
    ReadsWithin (items room (fuel + 1) first acc) text (acc.reverse ++ w :: ws) (']' :: rest)
      (Value.depthItems (w :: ws)) room := by
  rw [items.eq_2]
  refine hmore.bind_within ?_
  rw [if_pos rfl]
  exact (hw room _ (delimited_commaItems ws rest)).bind hrec

/-- The item loop after the first item: each further item is read behind its comma, until the
closing bracket. The accumulator holds the items read so far, last first. -/
theorem items_loop (ws : List Value) (hws : ∀ w ∈ ws, CompactReads w) (fuel : Nat)
    (acc : List Value) (hfuel : ws.length < fuel) :
    ReadsWithin (items room fuel false acc) (commaItems ws ++ ']' :: rest) (acc.reverse ++ ws)
      (']' :: rest) (Value.depthItems ws) room := by
  induction ws generalizing fuel acc with
  | nil =>
    obtain ⟨fuel, rfl⟩ : ∃ f, fuel = f + 1 := ⟨fuel - 1, by simp at hfuel; omega⟩
    rw [items.eq_2]
    refine (reads_moreItems_close false rest).bind_within ?_
    simpa [Value.depthItems] using (reads_pure acc.reverse (']' :: rest)).within
  | cons w ws ih =>
    obtain ⟨fuel, rfl⟩ : ∃ f, fuel = f + 1 := ⟨fuel - 1, by simp at hfuel; omega⟩
    obtain ⟨c, cs, hc, hopen⟩ := w.compact_head
    have hnext := reads_moreItems_next (OpensValue.not_isBlank hopen).1
      (OpensValue.not_isBlank hopen).2 (cs ++ (commaItems ws ++ ']' :: rest))
    rw [← List.cons_append, ← hc] at hnext
    have htext : commaItems (w :: ws) ++ ']' :: rest =
        ',' :: (w.compact.toList ++ (commaItems ws ++ ']' :: rest)) := by
      simp [commaItems]
    have hrec := ih (fun w' h => hws w' (List.mem_cons_of_mem _ h)) fuel (w :: acc)
      (by simp at hfuel; omega)
    rw [List.reverse_cons, List.append_assoc, List.singleton_append] at hrec
    rw [htext]
    exact items_step hnext (hws w List.mem_cons_self) hrec

/-- The item loop from the opening bracket on. -/
theorem items_start (vs : List Value) (hvs : ∀ v ∈ vs, CompactReads v) (fuel : Nat)
    (hfuel : vs.length < fuel) :
    ReadsWithin (items room fuel true []) ((Value.compactItems vs).toList ++ ']' :: rest) vs
      (']' :: rest) (Value.depthItems vs) room := by
  obtain ⟨fuel, rfl⟩ : ∃ f, fuel = f + 1 := ⟨fuel - 1, by omega⟩
  cases vs with
  | nil =>
    rw [items.eq_2]
    simp only [Value.compactItems, String.reduceToList, List.nil_append]
    refine (reads_moreItems_close true rest).bind_within ?_
    simpa [Value.depthItems] using (reads_pure [] (']' :: rest)).within
  | cons v ws =>
    obtain ⟨c, cs, hc, hopen⟩ := v.compact_head
    have hfirst := reads_moreItems_first (OpensValue.not_isBlank hopen).1
      (OpensValue.not_isBlank hopen).2 (cs ++ (commaItems ws ++ ']' :: rest))
    rw [← List.cons_append, ← hc] at hfirst
    rw [toList_compactItems_cons, List.append_assoc]
    exact items_step hfirst (hvs v List.mem_cons_self)
      (items_loop ws (fun w h => hvs w (List.mem_cons_of_mem _ h)) fuel [v] (by simp at hfuel; omega))

/-- One turn of the member loop, once `moreMembers` has said that a member follows and left the
reader at its key: the key, the colon, the value, then the loop over the members after it. -/
theorem members_step {first : Bool} {text : List Char} {k : String} {w : Value} {fs acc : Fields}
    {fuel : Nat}
    (hmore : Reads (moreMembers first) text true
      ((quote k).toList ++ ':' :: (w.compact.toList ++ (commaFields fs ++ '}' :: rest))))
    (hw : CompactReads w) (hlt : ∀ kv ∈ acc, kv.1 < k)
    (hrec : ReadsWithin (members room fuel false (acc ++ [(k, w)])) (commaFields fs ++ '}' :: rest)
      (acc ++ (k, w) :: fs) ('}' :: rest) (Value.depthFields fs) room) :
    ReadsWithin (members room (fuel + 1) first acc) text (acc ++ (k, w) :: fs) ('}' :: rest)
      (Value.depthFields ((k, w) :: fs)) room := by
  rw [members.eq_2]
  refine hmore.bind_within ?_
  rw [if_pos rfl]
  refine (reads_key k _).bind_within ((reads_colon _).bind_within ?_)
  -- every key read so far is below `k`, so the member goes at the end of the map
  simp only [Fields.insert_of_lt hlt]
  exact (hw room _ (delimited_commaFields fs rest)).bind hrec

/-- The member loop after the first member. Keys come in increasing order. -/
theorem members_loop (fs : Fields) (hfs : ∀ kv ∈ fs, CompactReads kv.2) (fuel : Nat) (acc : Fields)
    (hfuel : fs.length < fuel) (hsorted : (acc ++ fs).Pairwise (fun a b => a.1 < b.1)) :
    ReadsWithin (members room fuel false acc) (commaFields fs ++ '}' :: rest) (acc ++ fs)
      ('}' :: rest) (Value.depthFields fs) room := by
  induction fs generalizing fuel acc with
  | nil =>
    obtain ⟨fuel, rfl⟩ : ∃ f, fuel = f + 1 := ⟨fuel - 1, by simp at hfuel; omega⟩
    rw [members.eq_2]
    refine (reads_moreMembers_close false rest).bind_within ?_
    simpa [Value.depthFields] using (reads_pure acc ('}' :: rest)).within
  | cons kw fs ih =>
    obtain ⟨k, w⟩ := kw
    obtain ⟨fuel, rfl⟩ : ∃ f, fuel = f + 1 := ⟨fuel - 1, by simp at hfuel; omega⟩
    have hnext := reads_moreMembers_next ((k.toList.flatMap escapeChar ++ ['"']) ++
      ':' :: (w.compact.toList ++ (commaFields fs ++ '}' :: rest)))
    rw [← List.cons_append, ← toList_quote] at hnext
    have htext : commaFields ((k, w) :: fs) ++ '}' :: rest =
        ',' :: ((quote k).toList ++ ':' :: (w.compact.toList ++ (commaFields fs ++ '}' :: rest))) := by
      simp [commaFields]
    have hlt : ∀ kv ∈ acc, kv.1 < k := fun kv hkv =>
      (List.pairwise_append.mp hsorted).2.2 kv hkv (k, w) List.mem_cons_self
    have hrec := ih (fun kv h => hfs kv (List.mem_cons_of_mem _ h)) fuel (acc ++ [(k, w)])
      (by simp at hfuel; omega) (by simpa using hsorted)
    rw [List.append_assoc, List.singleton_append] at hrec
    rw [htext]
    exact members_step hnext (hfs (k, w) List.mem_cons_self) hlt hrec

/-- The member loop from the opening brace on. -/
theorem members_start (fs : Fields) (hfs : ∀ kv ∈ fs, CompactReads kv.2) (fuel : Nat)
    (hfuel : fs.length < fuel) (hsorted : fs.Pairwise (fun a b => a.1 < b.1)) :
    ReadsWithin (members room fuel true []) ((Value.compactFields fs).toList ++ '}' :: rest) fs
      ('}' :: rest) (Value.depthFields fs) room := by
  obtain ⟨fuel, rfl⟩ : ∃ f, fuel = f + 1 := ⟨fuel - 1, by omega⟩
  cases fs with
  | nil =>
    rw [members.eq_2]
    simp only [Value.compactFields, String.reduceToList, List.nil_append]
    refine (reads_moreMembers_close true rest).bind_within ?_
    simpa [Value.depthFields] using (reads_pure [] ('}' :: rest)).within
  | cons kw fs =>
    obtain ⟨k, w⟩ := kw
    have hfirst := reads_moreMembers_first ((k.toList.flatMap escapeChar ++ ['"']) ++
      ':' :: (w.compact.toList ++ (commaFields fs ++ '}' :: rest)))
    rw [← List.cons_append, ← toList_quote] at hfirst
    rw [toList_compactFields_cons]
    simp only [List.append_assoc, List.cons_append] at hfirst ⊢
    exact members_step hfirst (hfs (k, w) List.mem_cons_self) (by simp)
      (members_loop fs (fun kv h => hfs kv (List.mem_cons_of_mem _ h)) fuel [(k, w)]
        (by simp at hfuel; omega) hsorted)

theorem length_le_compactItems (vs : List Value) :
    vs.length ≤ (Value.compactItems vs).toList.length := by
  cases vs with
  | nil => simp
  | cons v vs =>
    obtain ⟨c, cs, hc, -⟩ := v.compact_head
    have := length_le_commaItems vs
    rw [toList_compactItems_cons, hc]
    simp only [List.length_cons, List.cons_append, List.length_append]
    omega

theorem length_le_compactFields (fs : Fields) :
    fs.length ≤ (Value.compactFields fs).toList.length := by
  cases fs with
  | nil => simp
  | cons kv fs =>
    have := length_le_commaFields fs
    rw [toList_compactFields_cons, toList_quote]
    simp only [List.length_cons, List.cons_append, List.length_append]
    omega

mutual

/-- A document nests no deeper than its compact text is long: every level opens with a
bracket. -/
theorem depth_le_length_compact : (v : Value) → v.depth ≤ v.compact.toList.length
  | .null | .bool _ | .number _ | .string _ => by simp [Value.depth]
  | .array [] => by simp [Value.depth, Value.depthItems, Value.compact, Value.compactItems]
  | .array (v :: vs) => by
    have hv := depth_le_length_compact v
    have hvs := depthItems_le_length_commaItems vs
    simp only [Value.depth, Value.depthItems, Value.compact, String.toList_append,
      toList_compactItems_cons, List.length_append]
    simp
    omega
  | .object [] => by simp [Value.depth, Value.depthFields, Value.compact, Value.compactFields]
  | .object ((k, v) :: fs) => by
    have hv := depth_le_length_compact v
    have hfs := depthFields_le_length_commaFields fs
    simp only [Value.depth, Value.depthFields, Value.compact, String.toList_append,
      toList_compactFields_cons, List.length_append]
    simp
    omega

theorem depthItems_le_length_commaItems : (vs : List Value) →
    Value.depthItems vs ≤ (commaItems vs).length
  | [] => by simp [Value.depthItems]
  | v :: vs => by
    have hv := depth_le_length_compact v
    have hvs := depthItems_le_length_commaItems vs
    simp only [commaItems, List.flatMap_cons, List.length_append, List.length_cons] at hvs ⊢
    rw [Value.depthItems]
    exact max_le (by omega) (by omega)

theorem depthFields_le_length_commaFields : (fs : Fields) →
    Value.depthFields fs ≤ (commaFields fs).length
  | [] => by simp [Value.depthFields]
  | (k, v) :: fs => by
    have hv := depth_le_length_compact v
    have hfs := depthFields_le_length_commaFields fs
    simp only [commaFields, List.flatMap_cons, List.length_append, List.length_cons] at hfs ⊢
    rw [Value.depthFields]
    exact max_le (by omega) (by omega)

end

/-! ## Every document -/

/-- Every document the reader can produce whose doubles read back reads back from its compact
text in every room its nesting fits, and fails in every room it does not. The induction follows
`Value.Canonical`; containers go through their loops, whose fuel (one step for each character
after the bracket) the compact text always leaves enough of. -/
theorem compactReads_of_canonical {v : Value} (hv : v.Canonical)
    (hf : ∀ x ∈ v.floats, x.ReadsBack) : CompactReads v := by
  induction hv with
  | null =>
    intro room rest _
    exact (reads_value_null rest).within
  | bool b =>
    intro room rest _
    cases b
    · exact (reads_value_false rest).within
    · exact (reads_value_true rest).within
  | @number n hn =>
    intro room rest hr
    cases n with
    | nat n =>
      obtain ⟨d, ds, hds, hd⟩ := natText_head n
      have hscan := scans_natText hn hr
      rw [hds] at hscan
      show ReadsWithin _ ((natText n).toList ++ rest) _ _ 0 _
      rw [hds]
      exact (reads_value_digit hd hscan).within
    | negInt n =>
      obtain ⟨h₁, h₂⟩ := hn
      have hscan := scans_negText (n := n.natAbs) (by omega) (by omega) hr
      rw [show (-(n.natAbs : Int)) = n by omega] at hscan
      show ReadsWithin _ ((intText n).toList ++ rest) _ _ 0 _
      rw [intText, if_pos h₂, String.toList_append]
      exact (reads_value_minus fun off => hscan (off + 1)).within
    | float x => exact (reads_value_float (hf x (by simp [Value.floats])) hr room).within
  | string s =>
    intro room rest _
    exact (reads_value_string s rest).within
  | @array items _ ih =>
    intro room rest _
    have hitems : ∀ w ∈ items, CompactReads w := fun w hw =>
      ih w hw fun x hx => hf x (Value.floats_subset_floatsItems hw hx)
    have htext : (Value.array items).compact.toList ++ rest =
        '[' :: ((Value.compactItems items).toList ++ ']' :: rest) := by
      simp [Value.compact]
    rw [htext]
    refine within_value_array fun room => items_start items hitems _ ?_
    have := length_le_compactItems items
    simp only [List.length_append, List.length_cons]
    omega
  | @object fields hsorted _ ih =>
    intro room rest _
    have hfields : ∀ kv ∈ fields, CompactReads kv.2 := fun kv hkv =>
      ih kv hkv fun x hx => hf x (Value.floats_subset_floatsFields hkv hx)
    have htext : (Value.object fields).compact.toList ++ rest =
        '{' :: ((Value.compactFields fields).toList ++ '}' :: rest) := by
      simp [Value.compact]
    rw [htext]
    refine within_value_object fun room => members_start fields hfields _ ?_ hsorted
    have := length_le_compactFields fields
    simp only [List.length_append, List.length_cons]
    omega

end Reader

namespace Value

open Reader

/-- A document the reader can produce, whose doubles read back, reads back from its compact text
when it nests no deeper than the reader allows. -/
theorem parse_compact {v : Value} (hv : v.Canonical) (hf : ∀ x ∈ v.floats, x.ReadsBack)
    (hd : v.depth ≤ nestingLimit) : Value.parse v.compact = .ok v := by
  apply runText_of_reads
  simpa using (compactReads_of_canonical hv hf nestingLimit [] trivial).1 hd

/-- A document that nests deeper than the reader allows does not read back from its compact
text. -/
theorem parse_compact_deep {v : Value} (hv : v.Canonical) (hf : ∀ x ∈ v.floats, x.ReadsBack)
    (hd : nestingLimit < v.depth) : ∃ e, Value.parse v.compact = .error e := by
  apply runText_of_fails
  simpa using (compactReads_of_canonical hv hf nestingLimit [] trivial).2 hd

end Value

end DaemonBridge.Json
