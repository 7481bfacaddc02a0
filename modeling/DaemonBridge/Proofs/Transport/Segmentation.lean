import Mathlib
import DaemonBridge.Proofs.Transport.ReadBack

/-!
# Frames and the cuts of the stream

A reader fed a stream in chunks, draining its buffer after each, hands out the frames it would
hand out if it had read the stream in one piece, whatever the cuts, as long as the stream never
sends the reader into discarding: no prefix of it, read in one piece, leaves more undecided
bytes than a whole frame of the largest size (`FrameDecoder.Fits`, `feed_frames_eq_readWhole`).
Two cuts of such a stream give the same frames, dropped ones included
(`frames_independent_of_cuts`).

The condition is needed. A corrupt line of `limit + 3` bytes or more, whose newline is decided
only once four more bytes have come, makes a reader that has received the line and three bytes
of the next one discard: it drops those three bytes with the line, and the frame they start is
lost up to its newline. The same stream read in one piece drops the line and hands out the
frame (`cut_after_corrupt_line_loses_frame`).

Two facts about the search for a frame's end carry the proof. A boundary found in a buffer is
found again, at the same place, when bytes are added (`Boundary.searchFrom_append`). A search
that runs out stops at the first newline, or at the end (`Boundary.searchFrom_eq_incomplete`),
so a reader that resumes there searches as one that starts from the front would
(`FrameDecoder.Settled`).
-/

namespace DaemonBridge

namespace Boundary

variable {buf more : Bytes}

theorem exists_closesAt_of_endsSoonAfter {i : Nat} (h : endsSoonAfter buf i = true) :
    ∃ k, i < k ∧ closesAt buf k = true := by
  obtain ⟨k, -, hk⟩ := List.any_eq_true.mp h
  exact ⟨i + 1 + k, by omega, hk⟩

/-- A frame's end found within four bytes after a newline is still there with more bytes. -/
theorem endsSoonAfter_append {i : Nat} (h : endsSoonAfter buf i = true) :
    endsSoonAfter (buf ++ more) i = true := by
  obtain ⟨k, hk, hclose⟩ := List.any_eq_true.mp h
  rw [List.mem_range] at hk
  have hlt := lt_length_of_closesAt hclose
  rw [endsSoonAfter, List.any_eq_true]
  refine ⟨k, List.mem_range.mpr ?_, ?_⟩
  · simp only [List.length_append]
    omega
  · rwa [closesAt_append hlt]

/-- With four bytes after the newline already read, more bytes change nothing. -/
theorem endsSoonAfter_append_of_lt {i : Nat} (hi : i + suffixLength < buf.length) :
    endsSoonAfter (buf ++ more) i = endsSoonAfter buf i := by
  have hwin : min (i + suffixLength) ((buf ++ more).length - 1) =
      min (i + suffixLength) (buf.length - 1) := by
    simp only [List.length_append]
    omega
  rw [endsSoonAfter, endsSoonAfter, hwin, Bool.eq_iff_iff, List.any_eq_true, List.any_eq_true]
  refine exists_congr fun k => and_congr_right fun hk => ?_
  rw [List.mem_range] at hk
  rw [closesAt_append (by omega)]

/-- A boundary the search finds is found again, at the same place, when bytes are added. -/
theorem searchFrom_append (more : Bytes) {i : Nat} {b : Boundary}
    (h : searchFrom buf i (buf.drop i) = b)
    (hb : ∀ r, b ≠ .incomplete r) :
    searchFrom (buf ++ more) i ((buf ++ more).drop i) = b := by
  rcases Nat.lt_or_ge i buf.length with hlt | hge
  · have hlt' : i < (buf ++ more).length := by simp only [List.length_append]; omega
    rw [List.drop_eq_getElem_cons hlt, searchFrom] at h
    rw [List.drop_eq_getElem_cons hlt', searchFrom, List.getElem_append_left hlt,
      closesAt_append hlt]
    by_cases hnl : buf[i] = newline
    · by_cases hc : closesAt buf i = true
      · simp only [hnl, bne_self_eq_false, hc, Bool.false_eq_true, if_false, if_true] at h ⊢
        exact h
      · by_cases hs : endsSoonAfter buf i = true
        · simp only [hnl, bne_self_eq_false, hc, hs, endsSoonAfter_append hs, Bool.false_eq_true,
            if_false, if_true] at h ⊢
          exact searchFrom_append more h hb
        · by_cases hend : buf.length ≤ i + suffixLength
          · simp only [hnl, bne_self_eq_false, hc, hs, hend, Bool.false_eq_true, if_false,
              if_true] at h
            exact absurd h.symm (hb i)
          · -- a corrupt line: its four bytes after the newline are all read already
            have hend' : ¬ (buf ++ more).length ≤ i + suffixLength := by
              simp only [List.length_append]
              omega
            rw [endsSoonAfter_append_of_lt (by omega)]
            simp only [hnl, bne_self_eq_false, hc, hs, hend, hend', Bool.false_eq_true,
              if_false] at h ⊢
            exact h
    · simp only [bne_iff_ne, ne_eq, hnl, not_false_eq_true, if_true] at h ⊢
      exact searchFrom_append more h hb
  · rw [List.drop_eq_nil_of_le hge, searchFrom] at h
    exact absurd h.symm (hb i)
termination_by buf.length - i

/-- A search that passes a frame's end cannot run out. -/
theorem searchFrom_ne_incomplete {i k r : Nat} (hk : closesAt buf k = true) (hik : i ≤ k) :
    searchFrom buf i (buf.drop i) ≠ .incomplete r := by
  have hlen := lt_length_of_closesAt hk
  rw [List.drop_eq_getElem_cons (by omega), searchFrom]
  by_cases hnl : buf[i] = newline
  · by_cases hc : closesAt buf i = true
    · simp [hnl, hc]
    · have hlt : i < k := lt_of_le_of_ne hik fun h => hc (h ▸ hk)
      by_cases hs : endsSoonAfter buf i = true
      · simp only [hnl, bne_self_eq_false, hc, hs, Bool.false_eq_true, if_false, if_true]
        exact searchFrom_ne_incomplete hk hlt
      · -- the frame's end lies more than four bytes on, so four bytes after `i` are read
        have hend : ¬ buf.length ≤ i + suffixLength := fun hend =>
          hs (endsSoonAfter_of_closesAt hk hlt (by omega))
        simp [hnl, hc, hs, hend]
  · have hlt : i < k := lt_of_le_of_ne hik fun h => by
      subst h
      have hget := getElem?_of_closesAt hk
      rw [List.getElem?_eq_getElem hlen] at hget
      exact hnl (Option.some.inj hget)
    simp only [bne_iff_ne, ne_eq, hnl, not_false_eq_true, if_true]
    exact searchFrom_ne_incomplete hk hlt
termination_by k - i

/-- A search that runs out stops at the first newline after its start, or at the end. -/
theorem searchFrom_eq_incomplete {i r : Nat} (hi : i ≤ buf.length)
    (h : searchFrom buf i (buf.drop i) = .incomplete r) :
    r ≤ buf.length ∧ ∀ j, i ≤ j → j < r → buf[j]? ≠ some newline := by
  rcases Nat.lt_or_ge i buf.length with hlt | hge
  · rw [List.drop_eq_getElem_cons hlt, searchFrom] at h
    by_cases hnl : buf[i] = newline
    · by_cases hc : closesAt buf i = true
      · simp [hnl, hc] at h
      · by_cases hs : endsSoonAfter buf i = true
        · -- a frame ends within four bytes, so the search cannot run out
          simp only [hnl, bne_self_eq_false, hc, hs, Bool.false_eq_true, if_false, if_true] at h
          obtain ⟨k, hik, hk⟩ := exists_closesAt_of_endsSoonAfter hs
          exact absurd h (searchFrom_ne_incomplete hk hik)
        · by_cases hend : buf.length ≤ i + suffixLength
          · simp only [hnl, bne_self_eq_false, hc, hs, hend, Bool.false_eq_true, if_false,
              if_true, Boundary.incomplete.injEq] at h
            subst h
            exact ⟨hlt.le, fun j hij hjr => absurd hjr (by omega)⟩
          · simp [hnl, hc, hs, hend] at h
    · simp only [bne_iff_ne, ne_eq, hnl, not_false_eq_true, if_true] at h
      obtain ⟨hr, hnone⟩ := searchFrom_eq_incomplete hlt h
      refine ⟨hr, fun j hij hjr => ?_⟩
      rcases Nat.eq_or_lt_of_le hij with rfl | hij'
      · rw [List.getElem?_eq_getElem hlt]
        exact fun h => hnl (Option.some.inj h)
      · exact hnone j hij' hjr
  · rw [List.drop_eq_nil_of_le hge, searchFrom, Boundary.incomplete.injEq] at h
    subst h
    exact ⟨hi, fun j hij hjr => absurd hjr (by omega)⟩
termination_by buf.length - i

/-- A search passes bytes that are no newline without effect. -/
theorem searchFrom_skip {i s : Nat} (hs : s ≤ buf.length) (his : i ≤ s)
    (hnone : ∀ j, i ≤ j → j < s → buf[j]? ≠ some newline) :
    searchFrom buf i (buf.drop i) = searchFrom buf s (buf.drop s) := by
  rcases Nat.eq_or_lt_of_le his with rfl | hlt
  · rfl
  · have hi : i < buf.length := by omega
    have hnl : buf[i] ≠ newline := fun h =>
      hnone i le_rfl hlt (by rw [List.getElem?_eq_getElem hi, h])
    rw [List.drop_eq_getElem_cons hi, searchFrom]
    simp only [bne_iff_ne, ne_eq, hnl, not_false_eq_true, if_true]
    exact searchFrom_skip hs hlt fun j hij hjs => hnone j (by omega) hjs
termination_by s - i

end Boundary

namespace FrameDecoder

variable {d d' : FrameDecoder} {f : Frame} {more : Bytes}

/-- A reader between reads whose resume point is exact: it is not discarding, and no newline
stands before the point where its search resumes. -/
structure Settled (d : FrameDecoder) : Prop where
  not_discarding : d.discarding = false
  resume_le : d.resume ≤ d.buffer.length
  no_newline : ∀ j < d.resume, d.buffer[j]? ≠ some newline

theorem Settled.fresh (limit : Nat) (buffer : Bytes) : Settled { limit, buffer } :=
  ⟨rfl, Nat.zero_le _, fun _ h => absurd h (Nat.not_lt_zero _)⟩

theorem Settled.push (h : Settled d) : Settled (d.push more) where
  not_discarding := h.not_discarding
  resume_le := by
    show d.resume ≤ (d.buffer ++ more).length
    have := h.resume_le
    rw [List.length_append]
    omega
  no_newline j hj := by
    have hj' : j < d.resume := hj
    show (d.buffer ++ more)[j]? ≠ some newline
    rw [List.getElem?_append_left (by have := h.resume_le; omega)]
    exact h.no_newline j hj'

/-- The search of a settled reader finds what a search from the front finds. -/
theorem Settled.search_eq (h : Settled d) :
    Boundary.search d.buffer (min d.resume d.buffer.length) = Boundary.search d.buffer 0 := by
  rw [min_eq_left h.resume_le, Boundary.search, Boundary.search,
    Boundary.searchFrom_skip h.resume_le (Nat.zero_le _) fun j _ hj => h.no_newline j hj]

/-- Where a settled reader resumes makes no difference to its next step. -/
theorem Settled.next_eq (h : Settled d) : d.next = { d with resume := 0 }.next := by
  have hsearch := h.search_eq
  simp only [next, h.not_discarding, Bool.false_eq_true, if_false, Nat.zero_min] at hsearch ⊢
  rw [hsearch]

/-- A step that hands out a frame leaves a settled reader settled. -/
theorem Settled.next_some (h : Settled d) (hnext : d.next = .ok (some f, d')) : Settled d' := by
  simp only [next, h.not_discarding, Bool.false_eq_true, if_false] at hnext
  split at hnext
  · cases hnext
    exact ⟨rfl, Nat.zero_le _, fun _ h => absurd h (Nat.not_lt_zero _)⟩
  · cases hnext
    exact ⟨rfl, Nat.zero_le _, fun _ h => absurd h (Nat.not_lt_zero _)⟩
  · split at hnext
    · cases hnext
    · split at hnext <;> cases hnext

/-- A step that waits for more bytes, without starting to discard, leaves a settled reader
settled: its search stopped at the first newline, or at the end. -/
theorem Settled.next_none (h : Settled d) (hnext : d.next = .ok (none, d'))
    (hkeep : d'.discarding = false) : Settled d' := by
  simp only [next, h.not_discarding, Bool.false_eq_true, if_false] at hnext
  split at hnext
  · cases hnext
  · cases hnext
  · rename_i r hs
    split at hnext
    · cases hnext
    · split at hnext
      · cases hnext
        cases hkeep
      · cases hnext
        rw [min_eq_left h.resume_le, Boundary.search] at hs
        obtain ⟨hr, hnone⟩ := Boundary.searchFrom_eq_incomplete h.resume_le hs
        refine ⟨rfl, hr, fun j hj => ?_⟩
        rcases Nat.lt_or_ge j d.resume with hjs | hjs
        · exact h.no_newline j hjs
        · exact hnone j hjs hj

/-- A frame handed out from a settled reader's buffer is handed out again when bytes are added,
and the same bytes are taken off. -/
theorem Settled.next_push (h : Settled d) (hnext : d.next = .ok (some f, d')) :
    (d.push more).next = .ok (some f, d'.push more) := by
  have hpush : Settled (d.push more) := h.push
  rw [hpush.next_eq]
  rw [h.next_eq] at hnext
  simp only [next, h.not_discarding, hpush.not_discarding, Bool.false_eq_true, if_false,
    Nat.zero_min] at hnext ⊢
  simp only [FrameDecoder.push] at hnext ⊢
  split at hnext
  · rename_i i hs
    have hs' := Boundary.searchFrom_append more hs (fun _ h => by cases h)
    have hlt := Boundary.searchFrom_lt hs (.inl rfl)
    cases hnext
    simp only [Boundary.search, List.drop_zero] at hs' ⊢
    simp only [hs',
      List.take_append_of_le_length (show i - suffixLength ≤ d.buffer.length by omega),
      List.drop_append_of_le_length (show i + 1 ≤ d.buffer.length by omega)]
  · rename_i i hs
    have hs' := Boundary.searchFrom_append more hs (fun _ h => by cases h)
    have hlt := Boundary.searchFrom_lt hs (.inr rfl)
    cases hnext
    simp only [Boundary.search, List.drop_zero] at hs' ⊢
    simp only [hs', List.drop_append_of_le_length (show i + 1 ≤ d.buffer.length by omega)]
  · split at hnext
    · cases hnext
    · split at hnext <;> cases hnext

/-- Where a settled reader resumes makes no difference to its drain. -/
theorem Settled.drain_eq (h : Settled d) : d.drain = { d with resume := 0 }.drain := by
  simp only [drain, drainFor]
  rw [h.next_eq]

/-- A reader that is not discarding, waits, and does not start to discard keeps its buffer and
limit: only its saved point moves. -/
theorem next_none_waits (hd : d.discarding = false) (hnext : d.next = .ok (none, d'))
    (hkeep : d'.discarding = false) : d' = { d with resume := d'.resume } := by
  simp only [next, hd, Bool.false_eq_true, if_false] at hnext
  split at hnext
  · cases hnext
  · cases hnext
  · split at hnext
    · cases hnext
    · split at hnext <;> cases hnext
      · cases hkeep
      · simp only [hd]

/-- Draining a settled reader with bytes added is draining it, then draining what is left with
the bytes added, as long as the first drain ends without a trap and out of discarding. -/
theorem Settled.drain_push {fs : List Frame} {d₁ : FrameDecoder} (h : Settled d)
    (hdrain : d.drain = .ok (fs, d₁)) (hkeep : d₁.discarding = false) :
    (d.push more).drain = (fun r => (fs ++ r.1, r.2)) <$> (d₁.push more).drain := by
  induction hlen : d.buffer.length using Nat.strong_induction_on generalizing d fs with
  | _ n ih =>
    rcases hnext : d.next with t | ⟨_ | f, d'⟩
    · -- a trap ends the first drain
      simp [drain, drainFor, hnext] at hdrain
    · -- the reader waits: the rest of its buffer is undecided, and its resume point stays exact
      rw [drain_of_next_none hnext] at hdrain
      obtain ⟨rfl, rfl⟩ := Prod.mk.inj (Except.ok.inj hdrain)
      have hsame : { d.push more with resume := 0 } = { d'.push more with resume := 0 } := by
        rw [next_none_waits h.not_discarding hnext hkeep]
        rfl
      rw [h.push.drain_eq, (h.next_none hnext hkeep).push.drain_eq, hsame]
      rcases ({ d'.push more with resume := 0 } : FrameDecoder).drain with t | ⟨gs, d₂⟩ <;> rfl
    · -- a frame: it comes first in both drains, and the rest is the induction
      have hshort := length_lt_of_next hnext
      rw [drain_of_next_some hnext] at hdrain
      rcases hrest : d'.drain with t | ⟨gs, d₂⟩
      · rw [hrest] at hdrain
        cases hdrain
      · rw [hrest, Except.map_ok] at hdrain
        obtain ⟨rfl, rfl⟩ := Prod.mk.inj (Except.ok.inj hdrain)
        rw [drain_of_next_some (h.next_push hnext),
          ih d'.buffer.length (by omega) (h.next_some hnext) hrest rfl]
        rcases (d₂.push more).drain with t | ⟨hs, d₃⟩ <;> rfl

end FrameDecoder

/-- A stream read in one piece by a fresh reader: the frames, and the reader after them. -/
def FrameDecoder.readWhole (limit : Nat) (stream : Bytes) : Except Trap (List Frame × FrameDecoder) :=
  ((FrameDecoder.new limit).push stream).drain

/-- A read that ended without a trap and left the reader out of discarding. -/
def FrameDecoder.Keeps : Except Trap (List Frame × FrameDecoder) → Prop
  | .ok (_, d) => d.discarding = false
  | .error _ => False

instance (r : Except Trap (List Frame × FrameDecoder)) : Decidable (FrameDecoder.Keeps r) :=
  match r with
  | .ok (_, d) => inferInstanceAs (Decidable (d.discarding = false))
  | .error _ => inferInstanceAs (Decidable False)

/-- A stream that never makes a reader trap or discard: every prefix of it, read in one piece,
ends without a trap and leaves the reader out of discarding. -/
def FrameDecoder.Fits (limit : Nat) (stream : Bytes) : Prop :=
  ∀ n ≤ stream.length, Keeps (readWhole limit (stream.take n))

instance (limit : Nat) (stream : Bytes) : Decidable (FrameDecoder.Fits limit stream) :=
  inferInstanceAs (Decidable (∀ n ≤ stream.length, _))

/-- The frames a fresh reader hands out for `chunks`, those of every chunk in order, unless a
step traps. -/
def FrameDecoder.framesOf (limit : Nat) (chunks : List Bytes) : Except Trap (List Frame) :=
  (fun r => r.1.flatMap Prod.fst) <$> (FrameDecoder.new limit).feed chunks

namespace FrameDecoder

theorem keeps_iff {r : Except Trap (List Frame × FrameDecoder)} :
    Keeps r ↔ ∃ fs d, r = .ok (fs, d) ∧ d.discarding = false := by
  rcases r with t | ⟨fs, d⟩
  · simp [Keeps]
  · simp [Keeps]

/-- A stream that fits leaves room for the reader's oversize bound: at a limit without it, even
the empty stream traps. -/
theorem Fits.le_maxWord {limit : Nat} {stream : Bytes} (h : Fits limit stream) :
    limit + suffixLength + 1 ≤ maxWord := by
  by_contra hw
  have hnil := h 0 (Nat.zero_le _)
  rw [List.take_zero, readWhole, drain, drainFor_overflow (Nat.lt_of_not_le hw) rfl
    (Nat.lt_succ_self _)] at hnil
  exact hnil

theorem readWhole_nil {limit : Nat} (hw : limit + suffixLength + 1 ≤ maxWord) :
    readWhole limit [] = .ok ([], new limit) :=
  drain_of_next_none (next_new_of_le hw)

/-- Reading a stream in one piece is reading a prefix of it, then the rest from where the
prefix left the reader, as long as the prefix ends without a trap and out of discarding. -/
theorem readWhole_append {limit : Nat} {pre : Bytes} {fs : List Frame} {d : FrameDecoder}
    (c : Bytes) (hpre : readWhole limit pre = .ok (fs, d)) (hkeep : d.discarding = false) :
    readWhole limit (pre ++ c) = (fun r => (fs ++ r.1, r.2)) <$> (d.push c).drain :=
  (Settled.fresh limit pre).drain_push hpre hkeep

/-- Fed in chunks after a prefix, the reader goes on as reading the whole in one piece. -/
theorem feed_readWhole {limit : Nat} {chunks : List Bytes} :
    ∀ {pre : Bytes} {fs : List Frame} {d : FrameDecoder}, Fits limit (pre ++ chunks.flatten) →
      readWhole limit pre = .ok (fs, d) →
      ∃ steps d', d.feed chunks = .ok (steps, d') ∧
        readWhole limit (pre ++ chunks.flatten) = .ok (fs ++ steps.flatMap Prod.fst, d') := by
  induction chunks with
  | nil =>
    intro pre fs d _ hpre
    exact ⟨[], d, rfl, by simpa using hpre⟩
  | cons c cs ih =>
    intro pre fs d hfits hpre
    -- the prefix before the chunk, and the prefix with it, end out of discarding
    have hkeep : d.discarding = false := by
      have := hfits pre.length (by simp)
      rwa [List.take_left, hpre] at this
    rw [List.flatten_cons, ← List.append_assoc] at hfits
    obtain ⟨fs₁, d₁, hwith, hkeep₁⟩ := keeps_iff.mp (hfits (pre ++ c).length (by simp))
    rw [List.take_left, readWhole_append c hpre hkeep] at hwith
    rcases hchunk : (d.push c).drain with t | ⟨gs, d₁'⟩
    · rw [hchunk] at hwith
      cases hwith
    · rw [hchunk, Except.map_ok] at hwith
      obtain ⟨rfl, rfl⟩ := Prod.mk.inj (Except.ok.inj hwith)
      obtain ⟨steps, d', hfeed, hrest⟩ :=
        ih hfits ((readWhole_append c hpre hkeep).trans (by rw [hchunk, Except.map_ok]))
      refine ⟨(gs, d₁'.buffer.length) :: steps, d', ?_, ?_⟩
      · simp only [feed, hchunk, hfeed]
      · rw [List.flatten_cons, ← List.append_assoc, hrest, List.flatMap_cons, List.append_assoc]

/-- A stream that fits, cut into chunks anywhere, is read without a trap and gives the frames it
gives when read in one piece. -/
theorem feed_eq_readWhole {limit : Nat} {stream : Bytes} {chunks : List Bytes}
    (hfits : Fits limit stream) (hchunks : chunks.flatten = stream) :
    ∃ steps d, (new limit).feed chunks = .ok (steps, d) ∧
      readWhole limit stream = .ok (steps.flatMap Prod.fst, d) := by
  have hnil := readWhole_nil hfits.le_maxWord
  obtain ⟨steps, d, hfeed, hwhole⟩ :=
    @feed_readWhole limit chunks [] [] (new limit) (by rwa [List.nil_append, hchunks]) hnil
  rw [List.nil_append, List.nil_append, hchunks] at hwhole
  exact ⟨steps, d, hfeed, hwhole⟩

end FrameDecoder

/-- Two cuts of a stream that never makes the reader trap or discard are read without a trap and
give the same frames, texts and drops alike. -/
theorem frames_independent_of_cuts {limit : Nat} {stream : Bytes} {xs ys : List Bytes}
    (hfits : FrameDecoder.Fits limit stream) (hxs : xs.flatten = stream)
    (hys : ys.flatten = stream) :
    ∃ frames, FrameDecoder.framesOf limit xs = .ok frames ∧
      FrameDecoder.framesOf limit ys = .ok frames := by
  obtain ⟨sx, dx, hfx, hwx⟩ := FrameDecoder.feed_eq_readWhole hfits hxs
  obtain ⟨sy, dy, hfy, hwy⟩ := FrameDecoder.feed_eq_readWhole hfits hys
  -- both runs end as the whole stream read in one piece
  obtain ⟨hsame, -⟩ := Prod.mk.inj (Except.ok.inj (hwx.symm.trans hwy))
  refine ⟨sx.flatMap Prod.fst, ?_, ?_⟩
  · rw [FrameDecoder.framesOf, hfx, Except.map_ok]
  · rw [FrameDecoder.framesOf, hfy, Except.map_ok, hsame]

/-- A corrupt line of three letters, then the frame of `b`, with a limit of two bytes: read
whole, or cut three bytes after the line's newline, the line is dropped and `b` handed out. -/
theorem frames_independent_of_cuts_corrupt_line :
    FrameDecoder.Fits 2 [0x61, 0x61, 0x61, 0x0A, 0x62, 0, 0, 0, 1, 0x0A] ∧
      ∃ frames,
        FrameDecoder.framesOf 2 [[0x61, 0x61, 0x61, 0x0A, 0x62, 0, 0, 0, 1, 0x0A]] = .ok frames ∧
        FrameDecoder.framesOf 2 [[0x61, 0x61, 0x61, 0x0A, 0x62, 0, 0], [0, 1, 0x0A]] =
          .ok frames :=
  ⟨by decide, frames_independent_of_cuts (by decide) rfl rfl⟩

/-- With a limit of one byte, the same stream read whole hands out `b` after dropping the line,
but cut three bytes after the line's newline it sends the reader into discarding, which loses
`b`: only an oversized drop comes out. -/
theorem cut_after_corrupt_line_loses_frame :
    (FrameDecoder.framesOf 1 [[0x61, 0x61, 0x61, 0x0A, 0x62, 0, 0, 0, 1, 0x0A]]).toOption =
        some [.dropped .badSuffix, .text "b"] ∧
      (FrameDecoder.framesOf 1 [[0x61, 0x61, 0x61, 0x0A, 0x62, 0, 0], [0, 1, 0x0A]]).toOption =
        some [.dropped (.oversized 1)] := by
  decide +kernel

end DaemonBridge
