import Mathlib
import DaemonBridge.Proofs.Json.Compact
import DaemonBridge.Json.Shape.Read
import DaemonBridge.Wire

/-!
# Reading records

What the shaped reader makes of the compact text of a record: each member is read in the shape of
the field its key names, and the record completes the fields found with the defaults of the others.
A notification's line is such a record, and it reads back as the notification, up to optional
documents written as `null`, whenever its documents are ones the reader produces and it nests no
deeper than the reader allows; deeper, it is refused.

What the envelope round trip takes of a text format is that it reads the notifications it writes
back (`Text.ReadsNotifications`). The standard format does so up to its nesting limit; the same
reader with room for every nesting its text can hold (`Text.unlimited`) does so for every
notification.
-/

namespace DaemonBridge.Json

namespace Reader

open Scan

variable {α : Type} {cs rest : List Char} {room : Nat}

/-- Readers that run alike at every offset read alike. -/
theorem ReadsWithin.of_run_eq {r₁ r₂ : Reader α} {a : α} {d : Nat}
    (h : ∀ off, r₁.run.run ⟨cs, off⟩ = r₂.run.run ⟨cs, off⟩) (h₂ : ReadsWithin r₂ cs a rest d room) :
    ReadsWithin r₁ cs a rest d room :=
  ⟨fun hd off => by rw [h]; exact h₂.1 hd off, fun hd off => by rw [h]; exact h₂.2 hd off⟩

theorem reads_shaped_string (fuel room : Nat) (s : String) (rest : List Char) :
    Reads (shaped (fuel + 1) room .string) ((quote s).toList ++ rest) (.string s) rest := by
  rw [shaped.eq_def, toList_quote, List.cons_append, List.append_assoc, List.singleton_append]
  dsimp only
  refine reads_placed ((reads_blank (not_isBlank_of_mem (by simp)) _).bind ?_)
  show Reads (do bump; let s ← stringBody; pure (Value.string s)) _ _ _
  exact (reads_bump _ _).bind ((reads_stringBody s rest).bind (reads_pure _ _))

theorem reads_shaped_option_null (fuel room : Nat) (inner : Shape) (rest : List Char) :
    Reads (shaped (fuel + 1) room (.option inner)) ('n' :: 'u' :: 'l' :: 'l' :: rest) .null rest := by
  rw [shaped.eq_def]
  dsimp only
  refine (reads_blank (not_isBlank_of_mem (by simp)) _).bind ?_
  show Reads (do bump; word ['u', 'l', 'l']; pure Value.null) _ _ _
  exact (reads_bump _ _).bind ((reads_word ['u', 'l', 'l'] rest).bind (reads_pure _ _))

/-- An optional value that does not start with `n` is read in the inner shape. -/
theorem shaped_option_run {c : Char} (hb : ¬ IsBlank c) (hn : c ≠ 'n') (fuel room : Nat)
    (inner : Shape) (cs : List Char) (off : Nat) :
    (shaped (fuel + 1) room (.option inner)).run.run ⟨c :: cs, off⟩ =
      (shaped fuel room inner).run.run ⟨c :: cs, off⟩ := by
  rw [shaped.eq_def]
  dsimp only
  rw [blank_bind_run hb]
  split
  · rename_i heq
    cases heq
    exact absurd rfl hn
  · rfl

/-- A record given as an object: its members are read into the fields found, which the record
then completes. The record nests one deeper than its members; with no room left it is refused. -/
theorem within_shaped_record {name : String} {fields : List Field} {fuel d : Nat}
    {found : List (Nat × Value)} {canon : List (String × Value)}
    (h : ∀ room, ReadsWithin (namedMembers fuel room fields true []) cs found ('}' :: rest) d room)
    (hcanon : completeRecord fields found = .ok canon) :
    ReadsWithin (shaped (fuel + 1) room (.record name fields)) ('{' :: cs) (.object canon) rest
      (d + 1) room := by
  rw [shaped.eq_def]
  dsimp only
  have hb := reads_blank (not_isBlank_of_mem (c := '{') (by simp)) cs
  cases room with
  | zero =>
    refine ⟨fun hd => absurd hd (by omega), fun _ => fails_placed (hb.bind_fails ?_)⟩
    exact fails_failAhead _ _
  | succ room =>
    refine ⟨fun hd => reads_placed (hb.bind ?_), fun hd => fails_placed (hb.bind_fails ?_)⟩
    · show Reads (do
        bump
        let found ← enclosed (namedMembers fuel room fields true []) closeObject
        let c ← verdict (completeRecord fields found)
        pure (Value.object c)) _ _ _
      refine (reads_bump _ _).bind ((reads_enclosed ((h room).1 (by omega)) (reads_closeObject rest)).bind ?_)
      rw [hcanon]
      exact (reads_pure _ _).bind (reads_pure _ _)
    · show Fails (do
        bump
        let found ← enclosed (namedMembers fuel room fields true []) closeObject
        let c ← verdict (completeRecord fields found)
        pure (Value.object c)) _
      exact (reads_bump _ _).bind_fails (fails_enclosed ((h room).2 (by omega))).bind

/-- A member `(k, v)` of a record's text that names field `i`, and whose value reads as itself in
that field's shape, in every room its nesting fits. -/
def MemberReads (fields : List Field) (i : Nat) (kv : String × Value) : Prop :=
  fieldIndex? fields kv.1 = some i ∧ ∃ f, fields[i]? = some f ∧
    ∀ fuel room after, 1 ≤ fuel → Delimited after →
      ReadsWithin (shaped (fuel + 1) room f.shape) (kv.2.compact.toList ++ after) kv.2 after
        kv.2.depth room

variable {fields : List Field} {i : Nat} {k name : String} {aliases : List String}
  {fallback : Option Value}

theorem memberReads_string (s : String) (hidx : fieldIndex? fields k = some i)
    (hf : fields[i]? = some (.mk name aliases .string fallback)) :
    MemberReads fields i (k, .string s) :=
  ⟨hidx, _, hf, fun fuel room after _ _ => (reads_shaped_string fuel room s after).within⟩

theorem memberReads_optionString (s : String) (hidx : fieldIndex? fields k = some i)
    (hf : fields[i]? = some (.mk name aliases (.option .string) fallback)) :
    MemberReads fields i (k, .string s) := by
  refine ⟨hidx, _, hf, fun fuel room after hfuel _ => ?_⟩
  obtain ⟨fuel, rfl⟩ : ∃ g, fuel = g + 1 := ⟨fuel - 1, by omega⟩
  have htext : (Value.string s).compact.toList ++ after =
      '"' :: (s.toList.flatMap escapeChar ++ '"' :: after) := by
    simp [Value.compact, toList_quote]
  rw [htext]
  refine ReadsWithin.of_run_eq (shaped_option_run (not_isBlank_of_mem (by simp)) (by decide)
    (fuel + 1) room .string _) ?_
  rw [← htext]
  exact (reads_shaped_string fuel room s after).within

/-- An optional document: `null` reads as `null`, anything else as itself. -/
theorem memberReads_optionAny {v : Value} (hv : v.Readable) (hidx : fieldIndex? fields k = some i)
    (hf : fields[i]? = some (.mk name aliases (.option .any) fallback)) :
    MemberReads fields i (k, v) := by
  refine ⟨hidx, _, hf, fun fuel room after hfuel hafter => ?_⟩
  by_cases hnull : v = .null
  · subst hnull
    have htext : Value.null.compact.toList ++ after = 'n' :: 'u' :: 'l' :: 'l' :: after := by
      simp [Value.compact]
    dsimp only
    rw [htext]
    exact (reads_shaped_option_null fuel room .any after).within
  · obtain ⟨c, cs, hc, hb, hn⟩ := compact_head_ne_n hv.2 hnull
    obtain ⟨fuel, rfl⟩ : ∃ g, fuel = g + 1 := ⟨fuel - 1, by omega⟩
    have hread := compactReads_of_canonical hv.1 hv.2 room after hafter
    rw [hc, List.cons_append] at hread ⊢
    refine ReadsWithin.of_run_eq (shaped_option_run hb hn (fuel + 1) room .any _) ?_
    rw [shaped.eq_2]
    exact hread

/-- One turn of the member loop of a record, once `moreMembers` has said that a member follows:
its key names a field not found yet, and its value is read in that field's shape. -/
theorem namedMembers_step {first : Bool} {text : List Char} {i fuel : Nat} {k : String} {v : Value}
    {ms : Fields} {found res : List (Nat × Value)}
    (hmore : Reads (moreMembers first) text true
      ((quote k).toList ++ ':' :: (v.compact.toList ++ (commaFields ms ++ '}' :: rest))))
    (hm : MemberReads fields i (k, v)) (hfresh : found.lookup i = none) (hfuel : 1 ≤ fuel)
    (hrec : ReadsWithin (namedMembers (fuel + 1) room fields false ((i, v) :: found))
      (commaFields ms ++ '}' :: rest) res ('}' :: rest) (Value.depthFields ms) room) :
    ReadsWithin (namedMembers (fuel + 2) room fields first found) text res ('}' :: rest)
      (Value.depthFields ((k, v) :: ms)) room := by
  obtain ⟨hidx, f, hf, hread⟩ := hm
  dsimp only at hidx hread
  rw [namedMembers.eq_2]
  refine hmore.bind_within ?_
  rw [if_pos rfl]
  refine (reads_key k _).bind_within ?_
  simp only [hidx, hf, hfresh, Option.isSome_none, Bool.false_eq_true, if_false]
  refine (reads_colon _).bind_within ?_
  exact (hread fuel room _ hfuel (delimited_commaFields ms rest)).bind hrec

/-- The member loop of a record after its first member: members that name distinct fields not
found yet, each read in its field's shape. -/
theorem namedMembers_loop {is : List Nat} {ms : Fields} (hms : List.Forall₂ (MemberReads fields) is ms) :
    ∀ (found : List (Nat × Value)) (fuel : Nat), (found.map Prod.fst ++ is).Nodup →
      ms.length + 1 < fuel →
      ReadsWithin (namedMembers fuel room fields false found) (commaFields ms ++ '}' :: rest)
        ((is.zip (ms.map Prod.snd)).reverse ++ found) ('}' :: rest) (Value.depthFields ms) room := by
  induction hms with
  | nil =>
    intro found fuel _ hfuel
    obtain ⟨fuel, rfl⟩ : ∃ g, fuel = g + 1 := ⟨fuel - 1, by simp at hfuel; omega⟩
    rw [namedMembers.eq_2]
    refine (reads_moreMembers_close false rest).bind_within ?_
    simpa [Value.depthFields] using (reads_pure found ('}' :: rest)).within
  | @cons i kv is ms hm _ ih =>
    intro found fuel hnodup hfuel
    obtain ⟨k, v⟩ := kv
    obtain ⟨fuel, rfl⟩ : ∃ g, fuel = g + 2 := ⟨fuel - 2, by simp at hfuel; omega⟩
    have hnext := reads_moreMembers_next ((k.toList.flatMap escapeChar ++ ['"']) ++
      ':' :: (v.compact.toList ++ (commaFields ms ++ '}' :: rest)))
    rw [← List.cons_append, ← toList_quote] at hnext
    have htext : commaFields ((k, v) :: ms) ++ '}' :: rest =
        ',' :: ((quote k).toList ++ ':' :: (v.compact.toList ++ (commaFields ms ++ '}' :: rest))) := by
      simp [commaFields]
    -- the field is not among those found, since the indices are distinct
    have hnodup' := List.nodup_middle.mp hnodup
    have hfresh : found.lookup i = none := by
      refine List.lookup_eq_none_iff.mpr fun p hp => bne_iff_ne.mpr fun h => ?_
      exact (List.nodup_cons.mp hnodup').1 (List.mem_append_left _ (h ▸ List.mem_map_of_mem hp))
    have hrec := ih ((i, v) :: found) (fuel + 1) hnodup' (by simp at hfuel; omega)
    rw [htext]
    simpa using namedMembers_step hnext hm hfresh (by simp at hfuel; omega) hrec

/-- The member loop of a record from its opening brace on. -/
theorem namedMembers_start {is : List Nat} {ms : Fields}
    (hms : List.Forall₂ (MemberReads fields) is ms) (hnodup : is.Nodup) (fuel : Nat)
    (hfuel : ms.length + 1 < fuel) :
    ReadsWithin (namedMembers fuel room fields true [])
      ((Value.compactFields ms).toList ++ '}' :: rest) (is.zip (ms.map Prod.snd)).reverse
      ('}' :: rest) (Value.depthFields ms) room := by
  cases hms with
  | nil =>
    obtain ⟨fuel, rfl⟩ : ∃ g, fuel = g + 1 := ⟨fuel - 1, by simp at hfuel; omega⟩
    rw [namedMembers.eq_2]
    simp only [Value.compactFields, String.reduceToList, List.nil_append]
    refine (reads_moreMembers_close true rest).bind_within ?_
    simpa [Value.depthFields] using (reads_pure [] ('}' :: rest)).within
  | @cons i kv is ms hm htail =>
    obtain ⟨k, v⟩ := kv
    obtain ⟨fuel, rfl⟩ : ∃ g, fuel = g + 2 := ⟨fuel - 2, by simp at hfuel; omega⟩
    have hfirst := reads_moreMembers_first ((k.toList.flatMap escapeChar ++ ['"']) ++
      ':' :: (v.compact.toList ++ (commaFields ms ++ '}' :: rest)))
    rw [← List.cons_append, ← toList_quote] at hfirst
    rw [toList_compactFields_cons]
    simp only [List.append_assoc, List.cons_append]
    rw [show ((i :: is).zip (((k, v) :: ms).map Prod.snd)).reverse =
      (is.zip (ms.map Prod.snd)).reverse ++ [(i, v)] by simp]
    exact namedMembers_step hfirst hm rfl (by simp at hfuel; omega)
      (namedMembers_loop htail [(i, v)] (fuel + 1) (by simpa using hnodup) (by simp at hfuel; omega))

end Reader

end DaemonBridge.Json

namespace DaemonBridge

open Json Reader

namespace WireEvent

/-- The fields of a notification record. -/
def fields : List Field := match shape with
  | .record _ fs => fs
  | _ => []

/-- What reading gives back of a notification: an optional document written as `null` reads as
absent. -/
def normalize (w : WireEvent) : WireEvent :=
  { w with data := w.data.bind Value.toOption, metadata := w.metadata.bind Value.toOption }

/-- The members a notification is written with, each beside the index of the field it fills. -/
def indexed (w : WireEvent) : List (Nat × (String × Value)) :=
  [(0, ("event_type", Value.string w.eventType))] ++ (w.data.map fun v => (1, ("data", v))).toList ++
    [(2, ("timestamp", Value.string w.timestamp)), (3, ("source", Value.string w.source))] ++
    (w.message.map fun m => (4, ("message", Value.string m))).toList ++
    (w.metadata.map fun v => (5, ("metadata", v))).toList

theorem render_eq (w : WireEvent) : w.render = w.toValue.compact := rfl

theorem parse_eq (line : String) : parse line = ofCanonical <$> shape.readText line := rfl

theorem toValue_eq_indexed (w : WireEvent) : w.toValue = .object (w.indexed.map Prod.snd) := by
  obtain ⟨et, data, ts, src, msg, md⟩ := w
  cases data <;> cases msg <;> cases md <;> rfl

/-- A notification's line nests one deeper than its deepest optional document. -/
theorem depth_toValue (w : WireEvent) :
    w.toValue.depth = max ((w.data.map Value.depth).getD 0) ((w.metadata.map Value.depth).getD 0) + 1 := by
  rw [toValue_eq_indexed]
  obtain ⟨et, data, ts, src, msg, md⟩ := w
  cases data <;> cases msg <;> cases md <;> simp [indexed, Value.depth, Value.depthFields]

/-- The record reading completes a notification's members into: every field in declared order,
the absent ones at their defaults. -/
def canon (w : WireEvent) : Fields :=
  [("event_type", .string w.eventType), ("data", w.data.getD .null),
    ("timestamp", .string w.timestamp), ("source", .string w.source),
    ("message", (w.message.map .string).getD .null), ("metadata", w.metadata.getD .null)]

theorem completeRecord_indexed (w : WireEvent) :
    completeRecord fields (w.indexed.map fun p => (p.1, p.2.2)).reverse = .ok w.canon := by
  obtain ⟨et, data, ts, src, msg, md⟩ := w
  cases data <;> cases msg <;> cases md <;> rfl

theorem ofCanonical_canon (w : WireEvent) : ofCanonical (.object w.canon) = w.normalize := by
  obtain ⟨et, data, ts, src, msg, md⟩ := w
  cases data <;> cases msg <;> cases md <;> rfl

theorem nodup_indexed (w : WireEvent) : (w.indexed.map Prod.fst).Nodup := by
  obtain ⟨et, data, ts, src, msg, md⟩ := w
  cases data <;> cases msg <;> cases md <;> simp [indexed]

/-- Every member of a notification's line names its field and reads as itself. -/
theorem memberReads_indexed (w : WireEvent) (hdata : ∀ v ∈ w.data, v.Readable)
    (hmeta : ∀ v ∈ w.metadata, v.Readable) : ∀ p ∈ w.indexed, MemberReads fields p.1 p.2 := by
  intro p hp
  simp only [indexed, List.mem_append, List.mem_cons, List.not_mem_nil, or_false,
    Option.mem_toList, Option.map_eq_some_iff] at hp
  rcases hp with (((rfl | ⟨v, hv, rfl⟩) | rfl | rfl) | ⟨m, -, rfl⟩) | ⟨v, hv, rfl⟩
  · exact memberReads_string _ rfl rfl
  · exact memberReads_optionAny (hdata v hv) rfl rfl
  · exact memberReads_string _ rfl rfl
  · exact memberReads_string _ rfl rfl
  · exact memberReads_optionString _ rfl rfl
  · exact memberReads_optionAny (hmeta v hv) rfl rfl

/-- The line of a notification whose documents the reader can produce reads as the notification's
canonical record in every room its nesting fits, and is refused in every room it does not, given
fuel for more steps than the line has characters. -/
theorem within_render (w : WireEvent) (hdata : ∀ v ∈ w.data, v.Readable)
    (hmeta : ∀ v ∈ w.metadata, v.Readable) (fuel room : Nat) (hfuel : w.render.length + 2 < fuel) :
    ReadsWithin (shaped fuel room shape) w.render.toList (.object w.canon) [] w.toValue.depth room := by
  obtain ⟨fuel, rfl⟩ : ∃ g, fuel = g + 1 := ⟨fuel - 1, by omega⟩
  have hms : List.Forall₂ (MemberReads fields) (w.indexed.map Prod.fst) (w.indexed.map Prod.snd) := by
    rw [List.forall₂_map_left_iff, List.forall₂_map_right_iff, List.forall₂_same]
    exact w.memberReads_indexed hdata hmeta
  have htext : w.render.toList =
      '{' :: ((Value.compactFields (w.indexed.map Prod.snd)).toList ++ ['}']) := by
    rw [render_eq, toValue_eq_indexed]
    simp [Value.compact]
  have hlen := length_le_compactFields (w.indexed.map Prod.snd)
  have hzip : ((w.indexed.map Prod.fst).zip ((w.indexed.map Prod.snd).map Prod.snd)).reverse =
      (w.indexed.map fun p => (p.1, p.2.2)).reverse := by
    rw [List.map_map, List.zip_map']
    rfl
  rw [htext, toValue_eq_indexed, Value.depth]
  refine within_shaped_record (fun room => hzip ▸ namedMembers_start hms w.nodup_indexed fuel ?_)
    w.completeRecord_indexed
  rw [← String.length_toList, htext] at hfuel
  simp only [List.length_cons, List.length_append] at hfuel
  omega

/-- The fuel the reader gives a line is more than the line has characters. -/
theorem length_lt_readFuel (text : String) (depth : Nat) : text.length + 2 < Shape.readFuel text depth := by
  have h : (text.length + 2) * 2 ≤ (text.length + 2) * (depth + 2) * 2 :=
    Nat.mul_le_mul_right 2 (Nat.le_mul_of_pos_right _ (by omega))
  rw [Shape.readFuel]
  omega

/-- A notification whose documents the reader can produce reads back from its line when it nests
no deeper than the reader allows, up to the optional documents written as `null`, which read
as absent. -/
theorem parse_render (w : WireEvent) (hdata : ∀ v ∈ w.data, v.Readable)
    (hmeta : ∀ v ∈ w.metadata, v.Readable) (hd : w.toValue.depth ≤ nestingLimit) :
    parse w.render = .ok w.normalize := by
  have h := (w.within_render hdata hmeta _ nestingLimit (length_lt_readFuel _ shape.depth)).1 hd
  rw [parse_eq, Shape.readText, runText_of_reads h, ← w.ofCanonical_canon]
  rfl

/-- The line of a notification that nests deeper than the reader allows is refused. -/
theorem parse_render_deep (w : WireEvent) (hdata : ∀ v ∈ w.data, v.Readable)
    (hmeta : ∀ v ∈ w.metadata, v.Readable) (hd : nestingLimit < w.toValue.depth) :
    ∃ e, parse w.render = .error e := by
  have h := (w.within_render hdata hmeta _ nestingLimit (length_lt_readFuel _ shape.depth)).2 hd
  obtain ⟨e, he⟩ := runText_of_fails h
  exact ⟨e, by rw [parse_eq, Shape.readText, he]; rfl⟩

end WireEvent

namespace Json

/-- A text format reads back the notifications it writes: the text written for a notification
whose documents are readable, read as a notification, is the notification's record with every
field present, the absent ones at their defaults. Of the JSON library, this is all the envelope
round trip takes: that it reads its own text for a document back. -/
def Text.ReadsNotifications (text : Text) : Prop :=
  ∀ w : WireEvent, (∀ v ∈ w.data, v.Readable) → (∀ v ∈ w.metadata, v.Readable) →
    text.read WireEvent.shape (text.write w.toValue) = .ok (.object w.canon)

/-- Compact text, read with room for as many levels as the text has characters, so with no
nesting limit a text could reach. -/
def Text.unlimited : Text :=
  ⟨Value.compact, fun shape text =>
    runText (shaped (Shape.readFuel text shape.depth) text.length shape) text⟩

/-- The reader without a nesting limit reads back every notification it writes. -/
theorem Text.unlimited_readsNotifications : Text.unlimited.ReadsNotifications := by
  intro w hdata hmeta
  have hdepth : w.toValue.depth ≤ w.render.length := by
    rw [WireEvent.render_eq, ← String.length_toList]
    exact depth_le_length_compact w.toValue
  have h := (w.within_render hdata hmeta _ w.render.length
    (WireEvent.length_lt_readFuel _ WireEvent.shape.depth)).1 hdepth
  exact runText_of_reads h

end Json

namespace WireEvent

/-- In a text format that reads back the notifications it writes, a notification whose documents
are readable reads back from its line, up to the optional documents written as `null`. -/
theorem parseIn_renderIn {text : Text} (htext : text.ReadsNotifications) (w : WireEvent)
    (hdata : ∀ v ∈ w.data, v.Readable) (hmeta : ∀ v ∈ w.metadata, v.Readable) :
    parseIn text (w.renderIn text) = .ok w.normalize := by
  rw [parseIn, renderIn, htext w hdata hmeta, ← w.ofCanonical_canon]
  rfl

end WireEvent

end DaemonBridge
