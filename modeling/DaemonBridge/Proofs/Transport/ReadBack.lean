import Mathlib
import DaemonBridge.Proofs.Transport.Steps
import DaemonBridge.Proofs.Transport.FrameEnd

/-!
# Frames read back under any segmentation

Texts written one after another with `Frame.encode` into one buffer, then cut into chunks of any
sizes and fed to one fresh reader, come back as the same texts in the same order and nothing
else; nothing is left buffered, and the end of the stream adds nothing (`frames_read_back`).
That holds exactly when the reader's oversize bound, `limit + suffixLength + 1`, fits in the
machine word: at the five largest limits the reader traps on its first read, whatever it is fed.

The texts are those the writer accepts and the reader does not misread (`Frame.Readable`): at
most `limit` bytes, no newline, fewer than `2 ^ 32` bytes, and not a text of `0x0909090A` bytes
ending in a tab. The frame of that text closes a byte early: the reader hands out the text
without its tab and keeps the frame's last newline (`misread_tab_dropped`).

The proof follows the reader's loop. When the buffer starts with a whole frame the search stops
at its last newline (`Boundary.searchFrom_complete`); on the start of a frame it runs to the end
(`Boundary.searchFrom_incomplete`), and such a start is never long enough to make the reader
discard. `drainFor_frames` takes the whole frames off a buffer one by one, and `feed_frames`
carries the stream through the chunks: after each one the buffer is the start of the next frame.
-/

namespace DaemonBridge

namespace Boundary

variable {buf : Bytes}

theorem getElem?_of_closesAt {e : Nat} (h : closesAt buf e = true) : buf[e]? = some newline := by
  simp only [closesAt, Bool.and_eq_true, beq_iff_eq] at h
  exact h.1.1

theorem lt_length_of_closesAt {e : Nat} (h : closesAt buf e = true) : e < buf.length :=
  (List.getElem?_eq_some_iff.mp (getElem?_of_closesAt h)).1

/-- A frame that ends within four bytes after the newline at `i` lets the search pass it. -/
theorem endsSoonAfter_of_closesAt {i e : Nat} (he : closesAt buf e = true) (hlt : i < e)
    (hle : e ≤ i + suffixLength) : endsSoonAfter buf i = true := by
  have hlen := lt_length_of_closesAt he
  rw [endsSoonAfter, List.any_eq_true]
  refine ⟨e - i - 1, List.mem_range.mpr ?_, ?_⟩
  · simp only [suffixLength] at hle ⊢
    omega
  · rw [show i + 1 + (e - i - 1) = e by omega]
    exact he

/-- The search stops at a newline that closes a frame when every newline before it closes
nothing and stands within four bytes of it. -/
theorem searchFrom_complete {e : Nat} (he : closesAt buf e = true)
    (hbefore : ∀ j < e, buf[j]? = some newline → closesAt buf j = false ∧ e ≤ j + suffixLength)
    (i : Nat) (hi : i ≤ e) : searchFrom buf i (buf.drop i) = .complete e := by
  have hlen := lt_length_of_closesAt he
  rw [List.drop_eq_getElem_cons (by omega), searchFrom]
  by_cases hb : buf[i] = newline
  · rcases Nat.lt_or_ge i e with hlt | hge
    · -- a newline inside the frame's length, which the frame's end explains
      obtain ⟨hno, hnear⟩ := hbefore i hlt (by rw [List.getElem?_eq_getElem (by omega), hb])
      simp only [hb, bne_self_eq_false, hno, endsSoonAfter_of_closesAt he hlt hnear]
      exact searchFrom_complete he hbefore (i + 1) hlt
    · obtain rfl : i = e := by omega
      simp [hb, he]
  · have hlt : i < e := by
      refine lt_of_le_of_ne hi fun hie => hb ?_
      subst hie
      have hnl := getElem?_of_closesAt he
      rw [List.getElem?_eq_getElem hlen] at hnl
      exact Option.some.inj hnl
    simp only [bne_iff_ne, ne_eq, hb, not_false_eq_true, if_true]
    exact searchFrom_complete he hbefore (i + 1) hlt
termination_by e - i

/-- With no newline that closes a frame or stands four bytes before the end, the search runs to
the end of the buffer without finding a boundary. -/
theorem searchFrom_incomplete
    (hnone : ∀ j < buf.length, buf[j]? = some newline →
      closesAt buf j = false ∧ buf.length ≤ j + suffixLength)
    (i : Nat) (hi : i ≤ buf.length) :
    ∃ r ≤ buf.length, searchFrom buf i (buf.drop i) = .incomplete r := by
  rcases Nat.lt_or_ge i buf.length with hlt | hge
  · rw [List.drop_eq_getElem_cons hlt, searchFrom]
    by_cases hb : buf[i] = newline
    · obtain ⟨hno, hnear⟩ := hnone i hlt (by rw [List.getElem?_eq_getElem hlt, hb])
      by_cases hsoon : endsSoonAfter buf i = true
      · simp only [hb, bne_self_eq_false, hno, hsoon]
        exact searchFrom_incomplete hnone (i + 1) hlt
      · simp only [hb, bne_self_eq_false, hno, hsoon, hnear]
        exact ⟨i, hlt.le, by simp⟩
    · simp only [bne_iff_ne, ne_eq, hb, not_false_eq_true, if_true]
      exact searchFrom_incomplete hnone (i + 1) hlt
  · rw [List.drop_eq_nil_of_le hge, searchFrom]
    exact ⟨i, hi, rfl⟩
termination_by buf.length - i

end Boundary

namespace Frame

theorem length_wrap (bytes : Bytes) : (wrap bytes).length = bytes.length + suffixLength + 1 := by
  simp [wrap, Bytes.length_toBigEndian, suffixLength]

/-- A newline in a frame whose text has none lies past the text. -/
theorem le_of_newline {bytes more : Bytes} {j : Nat} (hnl : newline ∉ bytes)
    (hj : (wrap bytes ++ more)[j]? = some newline) : bytes.length ≤ j := by
  by_contra hlt
  rw [wrap, List.append_assoc, List.append_assoc, List.getElem?_append_left (by omega)] at hj
  exact hnl (List.mem_of_getElem? hj)

/-- A text the reader reads back as it was written: the writer accepts it, and its length is
not the one the reader misreads. -/
structure Readable (limit : Nat) (text : String) : Prop where
  fits : (Utf8.encode text).length ≤ limit
  no_newline : newline ∉ Utf8.encode text
  counted : (Utf8.encode text).length < Nat.pow 2 32
  sound : ¬ Misread (Utf8.encode text)

instance (limit : Nat) (text : String) : Decidable (Readable limit text) :=
  decidable_of_iff ((Utf8.encode text).length ≤ limit ∧ newline ∉ Utf8.encode text ∧
      (Utf8.encode text).length < Nat.pow 2 32 ∧ ¬ Misread (Utf8.encode text))
    ⟨fun h => ⟨h.1, h.2.1, h.2.2.1, h.2.2.2⟩, fun h => ⟨h.fits, h.no_newline, h.counted, h.sound⟩⟩

theorem Readable.empty (limit : Nat) : Readable limit "" where
  fits := by simp [Utf8.encode]
  no_newline := by simp [Utf8.encode]
  counted := by simp [Utf8.encode]
  sound := by simp [Utf8.encode, Misread]

theorem Readable.encode_eq {limit : Nat} {text : String} (h : Readable limit text) :
    encode limit text = .ok (wrap (Utf8.encode text)) := by
  simp [encode, Nat.not_lt.mpr h.fits, h.no_newline, Nat.not_le.mpr h.counted]

/-- Every newline of a readable text's frame before its last one closes nothing and stands
inside the length. -/
theorem Readable.newline_inside {limit : Nat} {text : String} (h : Readable limit text)
    {more : Bytes} {j : Nat} (hj : j < (Utf8.encode text).length + suffixLength)
    (hnl : (wrap (Utf8.encode text) ++ more)[j]? = some newline) :
    closesAt (wrap (Utf8.encode text) ++ more) j = false ∧ (Utf8.encode text).length ≤ j :=
  ⟨closesAt_wrap_early h.no_newline (fun _ hb => Utf8.lt_of_mem_encode hb) h.counted h.sound hj,
    le_of_newline h.no_newline hnl⟩

/-- Bytes the reader holds of the next frame: a readable text's frame, short of its end. The
empty buffer is the start of any frame. -/
def Partial (limit : Nat) (pre : Bytes) : Prop :=
  ∃ text rest, Readable limit text ∧ rest ≠ [] ∧ pre ++ rest = wrap (Utf8.encode text)

theorem Partial.nil (limit : Nat) : Partial limit [] :=
  ⟨"", wrap (Utf8.encode ""), Readable.empty limit, by simp [wrap], rfl⟩

/-- Bytes of a stream of frames, shorter than the stream's first frame, are the start of it. -/
theorem Partial.of_stream {limit : Nat} {texts : List String} {pre rest : Bytes}
    (htexts : ∀ t ∈ texts, Readable limit t)
    (h : pre ++ rest = texts.flatMap fun t => wrap (Utf8.encode t))
    (hshort : ∀ t ∈ texts.head?, pre.length < (wrap (Utf8.encode t)).length) :
    Partial limit pre := by
  cases texts with
  | nil =>
    obtain ⟨rfl, -⟩ := List.append_eq_nil_iff.mp h
    exact Partial.nil limit
  | cons t ts =>
    have hlt := hshort t rfl
    have hpre : pre = (wrap (Utf8.encode t)).take pre.length := by
      have htake := congrArg (List.take pre.length) h
      rwa [List.take_left, List.flatMap_cons, List.take_append_of_le_length hlt.le] at htake
    refine ⟨t, (wrap (Utf8.encode t)).drop pre.length, htexts t (by simp), ?_, ?_⟩
    · simpa using hlt
    · rw [hpre, List.length_take_of_le hlt.le, List.take_append_drop]

/-- The start of a stream of frames is whole frames, then the start of the next one. -/
theorem split_stream {texts : List String} {x rest : Bytes}
    (h : x ++ rest = texts.flatMap fun t => wrap (Utf8.encode t)) :
    ∃ ts more pre, texts = ts ++ more ∧ x = (ts.flatMap fun t => wrap (Utf8.encode t)) ++ pre ∧
      pre ++ rest = (more.flatMap fun t => wrap (Utf8.encode t)) ∧
      ∀ t ∈ more.head?, pre.length < (wrap (Utf8.encode t)).length := by
  induction texts generalizing x with
  | nil =>
    obtain ⟨rfl, rfl⟩ := List.append_eq_nil_iff.mp h
    exact ⟨[], [], [], rfl, rfl, rfl, by simp⟩
  | cons t ts ih =>
    by_cases hx : x.length < (wrap (Utf8.encode t)).length
    · -- `x` ends inside the first frame
      refine ⟨[], t :: ts, x, rfl, by simp, h, fun u hu => ?_⟩
      cases hu
      exact hx
    · -- `x` holds the first frame whole; the rest of it starts the stream of the others
      rw [List.flatMap_cons] at h
      have hdrop := congrArg (List.drop (wrap (Utf8.encode t)).length) h
      rw [List.drop_append_of_le_length (by omega), List.drop_left] at hdrop
      have htake := congrArg (List.take (wrap (Utf8.encode t)).length) h
      rw [List.take_append_of_le_length (by omega), List.take_left] at htake
      obtain ⟨us, more, pre, h1, h2, h3, h4⟩ := ih hdrop
      refine ⟨t :: us, more, pre, by rw [h1, List.cons_append], ?_, h3, h4⟩
      rw [← List.take_append_drop (wrap (Utf8.encode t)).length x, htake, h2, List.flatMap_cons,
        List.append_assoc]

end Frame

theorem length_le_flatMap_wrap (texts : List String) :
    texts.length ≤ (texts.flatMap fun t => Frame.wrap (Utf8.encode t)).length := by
  induction texts with
  | nil => simp
  | cons t ts ih =>
    simp only [List.length_cons, List.flatMap_cons, List.length_append, Frame.length_wrap]
    omega

/-- The buffer of texts the writer accepts is their frames, one after another. -/
theorem encodeAll_readable {limit : Nat} {texts : List String}
    (h : ∀ t ∈ texts, Frame.Readable limit t) :
    (Frame.encodeAll limit texts).2 = texts.flatMap fun t => Frame.wrap (Utf8.encode t) := by
  -- the fold from any outcomes and buffer appends the frames to that buffer
  rw [Frame.encodeAll, show (texts.flatMap fun t => Frame.wrap (Utf8.encode t)) =
    (([] : List (Except FrameError Nat)), ([] : Bytes)).2 ++
      texts.flatMap fun t => Frame.wrap (Utf8.encode t) from rfl]
  generalize (([] : List (Except FrameError Nat)), ([] : Bytes)) = acc
  induction texts generalizing acc with
  | nil => simp
  | cons t ts ih =>
    obtain ⟨outcomes, buf⟩ := acc
    simp only [List.foldl_cons, (h t (by simp)).encode_eq, List.flatMap_cons]
    rw [ih (fun u hu => h u (by simp [hu])), List.append_assoc]

namespace FrameDecoder

variable {d : FrameDecoder}

theorem frameOf_readable {limit : Nat} {t : String} (ht : Frame.Readable limit t) :
    frameOf limit (Utf8.encode t) = .text t := by
  simp [frameOf, Nat.not_lt.mpr ht.fits, Utf8.decode_encode]

/-- A reader whose buffer starts with a readable text's frame hands the text out and keeps the
bytes after the frame. -/
theorem next_wrap {t : String} {more : Bytes} (ht : Frame.Readable d.limit t)
    (hd : d.discarding = false) (hbuf : d.buffer = Frame.wrap (Utf8.encode t) ++ more)
    (hres : d.resume ≤ (Utf8.encode t).length + suffixLength) :
    d.next = .ok (some (.text t), { d with buffer := more, resume := 0 }) := by
  have hsearch : Boundary.search d.buffer (min d.resume d.buffer.length) =
      .complete ((Utf8.encode t).length + suffixLength) := by
    rw [Boundary.search, hbuf]
    refine Boundary.searchFrom_complete (closesAt_wrap _ _ ht.counted) (fun j hj hnl => ?_) _
      (by omega)
    obtain ⟨hno, hle⟩ := ht.newline_inside hj hnl
    exact ⟨hno, by omega⟩
  have htake : d.buffer.take ((Utf8.encode t).length + suffixLength - suffixLength) =
      Utf8.encode t := by
    rw [hbuf, Nat.add_sub_cancel, Frame.wrap, List.append_assoc, List.append_assoc,
      List.take_left]
  have hdrop : d.buffer.drop ((Utf8.encode t).length + suffixLength + 1) = more := by
    rw [hbuf, ← Frame.length_wrap, List.drop_left]
  simp only [next, hd, hsearch, htake, hdrop, frameOf_readable ht, Bool.false_eq_true, if_false]

/-- A reader holding the start of a readable text's frame hands out nothing, keeps its buffer,
and does not start discarding. -/
theorem next_partial {pre : Bytes} (hw : d.limit + suffixLength + 1 ≤ maxWord)
    (hpre : Frame.Partial d.limit pre) (hd : d.discarding = false) (hbuf : d.buffer = pre) :
    ∃ r ≤ pre.length, d.next = .ok (none, { d with resume := r }) := by
  obtain ⟨t, rest, ht, hrest, hwrap⟩ := hpre
  have hshort : pre.length < (Utf8.encode t).length + suffixLength + 1 := by
    have hlen := congrArg List.length hwrap
    rw [List.length_append, Frame.length_wrap] at hlen
    have := List.length_pos_iff.mpr hrest
    omega
  -- every newline of the start of a frame closes nothing and stands inside the length
  have hnone : ∀ j < pre.length, pre[j]? = some newline →
      closesAt pre j = false ∧ pre.length ≤ j + suffixLength := by
    intro j hj hnl
    have hnl' : (Frame.wrap (Utf8.encode t) ++ [])[j]? = some newline := by
      rw [List.append_nil, ← hwrap, List.getElem?_append_left hj]
      exact hnl
    obtain ⟨hno, hle⟩ := ht.newline_inside (by omega) hnl'
    refine ⟨?_, by omega⟩
    rw [← (closesAt_append hj : closesAt (pre ++ rest) j = _), hwrap,
      ← List.append_nil (Frame.wrap _)]
    exact hno
  obtain ⟨r, hr, hsearch⟩ :=
    Boundary.searchFrom_incomplete hnone (min d.resume pre.length) (min_le_right _ _)
  refine ⟨r, hr, ?_⟩
  have hfits := ht.fits
  simp only [next, hd, Bool.false_eq_true, if_false, Boundary.search, hbuf, hsearch,
    oversizeBound_of_le hw]
  rw [if_neg (by omega)]

/-- A reader whose buffer holds the frames of readable texts, then the start of another frame,
takes the texts off one by one and keeps the start. -/
theorem drainFor_frames {ts : List String} {pre : Bytes} {fuel : Nat}
    (hw : d.limit + suffixLength + 1 ≤ maxWord)
    (hts : ∀ t ∈ ts, Frame.Readable d.limit t) (hpre : Frame.Partial d.limit pre)
    (hd : d.discarding = false)
    (hbuf : d.buffer = (ts.flatMap fun t => Frame.wrap (Utf8.encode t)) ++ pre)
    (hres : ∀ t ∈ ts.head?, d.resume ≤ (Utf8.encode t).length + suffixLength)
    (hfuel : ts.length < fuel) :
    ∃ r ≤ pre.length,
      d.drainFor fuel = .ok (ts.map .text, { d with buffer := pre, resume := r }) := by
  induction ts generalizing d fuel with
  | nil =>
    obtain ⟨f, rfl⟩ : ∃ f, fuel = f + 1 := ⟨fuel - 1, by simp at hfuel; omega⟩
    rw [List.flatMap_nil, List.nil_append] at hbuf
    obtain ⟨r, hr, hnext⟩ := next_partial hw hpre hd hbuf
    refine ⟨r, hr, ?_⟩
    rw [drainFor, hnext]
    simp [hbuf]
  | cons t ts ih =>
    obtain ⟨f, rfl⟩ : ∃ f, fuel = f + 1 := ⟨fuel - 1, by simp at hfuel; omega⟩
    rw [List.flatMap_cons, List.append_assoc] at hbuf
    have hnext := next_wrap (hts t (by simp)) hd hbuf (hres t rfl)
    -- the rest of the buffer, searched from its start
    obtain ⟨r, hr, hrest⟩ := ih (d := { d with
        buffer := (ts.flatMap fun t => Frame.wrap (Utf8.encode t)) ++ pre, resume := 0 })
      hw (fun u hu => hts u (by simp [hu])) hpre hd rfl (fun _ _ => Nat.zero_le _)
      (show ts.length < f by simp at hfuel; omega)
    refine ⟨r, hr, ?_⟩
    rw [drainFor, hnext]
    simp only [hrest, List.map_cons]

/-- A reader not discarding, holding the start of the first frame of a stream of readable texts,
fed the rest of the stream in chunks, hands out those texts and ends with an empty buffer. -/
theorem feed_frames {chunks : List Bytes} {pending : List String}
    (hw : d.limit + suffixLength + 1 ≤ maxWord)
    (hpending : ∀ t ∈ pending, Frame.Readable d.limit t) (hd : d.discarding = false)
    (hres : d.resume ≤ d.buffer.length)
    (hshort : ∀ t ∈ pending.head?, d.buffer.length < (Frame.wrap (Utf8.encode t)).length)
    (hbuf : d.buffer ++ chunks.flatten = pending.flatMap fun t => Frame.wrap (Utf8.encode t)) :
    ∃ steps d', d.feed chunks = .ok (steps, d') ∧ steps.flatMap Prod.fst = pending.map .text ∧
      d'.buffer = [] ∧ d'.discarding = false ∧ d'.limit = d.limit := by
  induction chunks generalizing d pending with
  | nil =>
    -- the buffer is the rest of the stream and shorter than its first frame: both are empty
    rw [List.flatten_nil, List.append_nil] at hbuf
    cases pending with
    | nil => exact ⟨[], d, rfl, rfl, hbuf, hd, rfl⟩
    | cons t ts =>
      have hlt := hshort t rfl
      rw [hbuf, List.flatMap_cons, List.length_append] at hlt
      omega
  | cons c cs ih =>
    rw [List.flatten_cons, ← List.append_assoc] at hbuf
    -- the buffer with the chunk is whole frames, then the start of the next
    obtain ⟨ts, more, pre, hsplit, hx, hrest, hmore⟩ := Frame.split_stream hbuf
    have hts : ∀ t ∈ ts, Frame.Readable d.limit t :=
      fun t ht => hpending t (hsplit ▸ List.mem_append_left more ht)
    have hmore' : ∀ t ∈ more, Frame.Readable d.limit t :=
      fun t ht => hpending t (hsplit ▸ List.mem_append_right ts ht)
    have hres' : ∀ t ∈ ts.head?, (d.push c).resume ≤ (Utf8.encode t).length + suffixLength := by
      intro t ht
      have hlt := hshort t (by rw [hsplit, List.head?_append, ht]; rfl)
      rw [Frame.length_wrap] at hlt
      exact Nat.le_of_lt_succ (lt_of_le_of_lt hres hlt)
    have hfuel : ts.length < (d.push c).buffer.length + 1 := by
      have hlen := congrArg List.length hx
      have := length_le_flatMap_wrap ts
      simp only [push, List.length_append] at hlen ⊢
      omega
    obtain ⟨r, hr, hdrain⟩ := drainFor_frames (d := d.push c) hw hts
      (Frame.Partial.of_stream hmore' hrest hmore) hd hx hres' hfuel
    obtain ⟨steps, d', hfeed, hframes, hempty, hd', hlimit⟩ :=
      ih (d := { d.push c with buffer := pre, resume := r }) hw hmore' hd hr hmore hrest
    refine ⟨(ts.map .text, pre.length) :: steps, d', ?_, ?_, hempty, hd', hlimit⟩
    · simp only [feed, drain, hdrain, hfeed]
    · rw [List.flatMap_cons, hframes, hsplit, List.map_append]

/-- At the end of the stream a reader with an empty buffer, not discarding, hands out nothing
and reports no error. -/
theorem finish_empty (hw : d.limit + suffixLength + 1 ≤ maxWord) (hd : d.discarding = false)
    (hbuf : d.buffer = []) : ∃ d', d.finish = .ok ([], none, d') := by
  obtain ⟨r, -, hnext⟩ := next_partial hw (Frame.Partial.nil d.limit) hd hbuf
  refine ⟨{ d with resume := r }, ?_⟩
  simp [finish, finishFor, nextAtEnd, hnext, hbuf]

/-- What a fresh reader makes of `chunks`: no step traps, the frames are the texts `texts` in
order and no other, the buffer is left empty, and the end of the stream adds no frame and no
error. -/
def ReadsBack (limit : Nat) (chunks : List Bytes) (texts : List String) : Prop :=
  ∃ steps d, (new limit).feed chunks = .ok (steps, d) ∧ steps.flatMap Prod.fst = texts.map .text ∧
    d.buffer = [] ∧ ∃ d', d.finish = .ok ([], none, d')

/-- A reader whose oversize bound does not fit in the machine word reads nothing back: it traps
on the first chunk, or at the end of a stream of none. -/
theorem ReadsBack.le_maxWord {limit : Nat} {chunks : List Bytes} {texts : List String}
    (h : ReadsBack limit chunks texts) : limit + suffixLength + 1 ≤ maxWord := by
  obtain ⟨steps, d, hfeed, -, -, d', hfinish⟩ := h
  by_contra hw
  replace hw := Nat.lt_of_not_le hw
  cases chunks with
  | nil =>
    obtain ⟨-, rfl⟩ := Prod.mk.inj (Except.ok.inj hfeed.symm)
    rw [finish_new_overflow hw] at hfinish
    cases hfinish
  | cons c cs =>
    have hdrain : ((new limit).push c).drain = .error .boundOverflow :=
      drainFor_overflow hw rfl (Nat.lt_succ_self _)
    simp only [feed, hdrain] at hfeed
    cases hfeed

end FrameDecoder

/-- Readable texts written one after another into one buffer, and the buffer cut into chunks
anywhere, read back as the same texts, exactly when the reader's oversize bound fits in the
machine word. -/
theorem frames_read_back {limit : Nat} {texts : List String} {chunks : List Bytes}
    (htexts : ∀ t ∈ texts, Frame.Readable limit t)
    (hchunks : chunks.flatten = (Frame.encodeAll limit texts).2) :
    FrameDecoder.ReadsBack limit chunks texts ↔ limit + suffixLength + 1 ≤ maxWord := by
  refine ⟨FrameDecoder.ReadsBack.le_maxWord, fun hw => ?_⟩
  have hstream : (FrameDecoder.new limit).buffer ++ chunks.flatten =
      texts.flatMap fun t => Frame.wrap (Utf8.encode t) := by
    rw [hchunks, encodeAll_readable htexts]
    rfl
  obtain ⟨steps, d, hfeed, hframes, hbuf, hd, hlimit⟩ :=
    FrameDecoder.feed_frames (d := FrameDecoder.new limit) hw htexts rfl (Nat.zero_le _)
      (fun t _ => by simp [FrameDecoder.new, Frame.length_wrap]) hstream
  exact ⟨steps, d, hfeed, hframes, hbuf, FrameDecoder.finish_empty (hlimit ▸ hw) hd hbuf⟩

/-- A text of ten bytes, whose length ends in a newline, and a two-byte character, the stream cut
inside the text, at the newline of the length, and inside the character. -/
theorem frames_read_back_newline_length :
    FrameDecoder.ReadsBack 16
      [[0x61, 0x61, 0x61], [0x61, 0x61, 0x61, 0x61, 0x61, 0x61, 0x61, 0, 0, 0], [10], [10, 0xC3],
        [0xA9, 0, 0, 0, 2, 10]]
      ["aaaaaaaaaa", "é"] :=
  (frames_read_back (by decide) (by decide)).mpr (by decide)

namespace FrameDecoder

/-- A lone newline is too close to the end of the buffer to tell: the reader waits. -/
theorem next_newline {limit : Nat} (hw : limit + suffixLength + 1 ≤ maxWord) :
    next { limit, buffer := [newline] } = .ok (none, { limit, buffer := [newline] }) := by
  simp [next, Boundary.search, Boundary.searchFrom, closesAt, Boundary.endsSoonAfter,
    oversizeBound_of_le hw, suffixLength]

/-- The frame of a text of `0x09090909` bytes and a tab closes at the newline inside its length:
the reader hands out the text without the tab and keeps the frame's last newline. -/
theorem next_misread {limit : Nat} {t : String} (hnl : newline ∉ Utf8.encode t)
    (hlen : (Utf8.encode t).length = 0x09090909) (hlimit : 0x09090909 ≤ limit) :
    next { limit, buffer := Frame.wrap (Utf8.encode (t.push '\t')) } =
      .ok (some (.text t), { limit, buffer := [newline] }) := by
  have htab : Utf8.encode (t.push '\t') = Utf8.encode t ++ [0x09] := by
    rw [Utf8.encode_push]
    rfl
  have hmis : Frame.Misread (Utf8.encode (t.push '\t')) := ⟨by simp [htab, hlen], by simp [htab]⟩
  obtain ⟨W, hW⟩ : ∃ W, Frame.wrap (Utf8.encode (t.push '\t')) = W := ⟨_, rfl⟩
  have hframe : W = Utf8.encode t ++ [9, 9, 9, 9, 10, 10] := by
    rw [← hW, Frame.wrap, htab, List.length_append, hlen, List.append_assoc, List.append_assoc]
    congr 1
  -- the newline inside the length closes the frame where the text without its tab would end
  have hclose : closesAt W ((Utf8.encode t).length + suffixLength) = true := by
    have h := (closesAt_misread hmis : closesAt (Frame.wrap _ ++ []) _ = true)
    rwa [List.append_nil, hW, htab, List.length_append, List.length_singleton, Nat.add_assoc] at h
  -- and no newline comes before it
  have hbefore : ∀ j < (Utf8.encode t).length + suffixLength, W[j]? = some newline →
      closesAt W j = false ∧ (Utf8.encode t).length + suffixLength ≤ j + suffixLength := by
    intro j hj hnlj
    exfalso
    rw [hframe] at hnlj
    rcases Nat.lt_or_ge j (Utf8.encode t).length with hlt | hge
    · rw [List.getElem?_append_left hlt] at hnlj
      exact hnl (List.mem_of_getElem? hnlj)
    · rw [List.getElem?_append_right hge] at hnlj
      exact (by decide : ∀ k < 4, ([9, 9, 9, 9, 10, 10] : Bytes)[k]? ≠ some newline) _
        (by simp only [suffixLength] at hj; omega) hnlj
  have hsearch := Boundary.searchFrom_complete hclose hbefore 0 (Nat.zero_le _)
  have hfits : ¬ limit < (Utf8.encode t).length := by omega
  simp only [next, Bool.false_eq_true, if_false, Nat.zero_min, Boundary.search, hW, hsearch,
    Nat.add_sub_cancel, frameOf]
  rw [hframe, List.take_left, List.drop_append, List.drop_eq_nil_of_le (by omega),
    List.nil_append, show (Utf8.encode t).length + suffixLength + 1 - (Utf8.encode t).length = 5
      by simp only [suffixLength]; omega]
  simp [hfits, Utf8.decode_encode, newline]

end FrameDecoder

/-- The reader misreads the frame of a text of `0x0909090A` bytes ending in a tab: it hands out
the text without its tab, and keeps the frame's last newline, which no frame after it explains. -/
theorem misread_tab_dropped {limit : Nat} {t : String} (hnl : newline ∉ Utf8.encode t)
    (hlen : (Utf8.encode t).length = 0x09090909) (hlimit : 0x09090909 ≤ limit)
    (hw : limit + suffixLength + 1 ≤ maxWord) :
    (FrameDecoder.new limit).feed [Frame.wrap (Utf8.encode (t.push '\t'))] =
      .ok ([([.text t], 1)], { limit, buffer := [newline] }) := by
  -- the frame is the text, its tab, its length and a newline: six bytes after the text
  have hfuel : (Frame.wrap (Utf8.encode (t.push '\t'))).length + 1 =
      (Utf8.encode t).length + 5 + 1 + 1 := by
    rw [Frame.length_wrap, Utf8.encode_push, List.length_append]
    rfl
  simp only [FrameDecoder.feed, FrameDecoder.drain, FrameDecoder.push, FrameDecoder.new,
    List.nil_append]
  rw [hfuel]
  simp only [FrameDecoder.drainFor, FrameDecoder.next_misread hnl hlen hlimit,
    FrameDecoder.next_newline hw, List.length_singleton]

/-- The misread text of the smallest limit its writer accepts: `0x09090909` letters, then a tab. -/
theorem misread_tab_dropped_letters :
    (FrameDecoder.new 0x0909090A).feed
        [Frame.wrap (Utf8.encode ((String.ofList (List.replicate 0x09090909 'a')).push '\t'))] =
      .ok ([([.text (String.ofList (List.replicate 0x09090909 'a'))], 1)],
        { limit := 0x0909090A, buffer := [newline] }) := by
  -- rewrite by the replicate lemmas only: `simp` would unfold the literal count
  have henc : Utf8.encode (String.ofList (List.replicate 0x09090909 'a')) =
      List.replicate 0x09090909 0x61 := by
    rw [Utf8.encode, String.toList_ofList, List.flatMap_replicate,
      show Utf8.encodeChar 'a' = [0x61] by decide]
    exact List.flatten_replicate_singleton
  have hnl : newline ∉ Utf8.encode (String.ofList (List.replicate 0x09090909 'a')) := by
    rw [henc, List.mem_replicate]
    exact fun h => absurd h.2 (by decide)
  exact misread_tab_dropped hnl (by rw [henc, List.length_replicate]) (by decide) (by decide)

end DaemonBridge
