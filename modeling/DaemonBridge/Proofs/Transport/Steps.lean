import Mathlib
import DaemonBridge.Transport.Frame.Decoder

/-!
# One step of the reader

What one call of `FrameDecoder.next` can do, stated once for the loops built on it.

A step that hands out a frame takes at least one byte off the buffer (`length_lt_of_next`), so
the fuel `drain` and `finish` are given is always enough (`drainFor_congr`). A reader that is
not discarding and hands out a frame stays out of discarding and keeps its limit
(`next_some_keeps`). When it hands out nothing it has worked out its oversize bound, so the
bound fit in the machine word (`le_maxWord_of_next_none`).

At a limit whose bound does not fit, the reader therefore never waits: every drain of a reader
that is not discarding traps (`drainFor_overflow`), and so does the end of the stream
(`finish_new_overflow`).
-/

namespace DaemonBridge

namespace Boundary

variable {buf : Bytes}

/-- A boundary the search finds, a frame's end or a corrupt line's, lies inside the buffer. -/
theorem searchFrom_lt {i e : Nat} {b : Boundary} (h : searchFrom buf i (buf.drop i) = b)
    (hb : b = .complete e ∨ b = .corrupt e) : e < buf.length := by
  rcases Nat.lt_or_ge i buf.length with hlt | hge
  · rw [List.drop_eq_getElem_cons hlt, searchFrom] at h
    by_cases hnl : buf[i] = newline
    · by_cases hc : closesAt buf i = true
      · simp only [hnl, bne_self_eq_false, hc, Bool.false_eq_true, if_false, if_true] at h
        subst h
        rcases hb with hb | hb <;> cases hb
        exact hlt
      · by_cases hs : endsSoonAfter buf i = true
        · simp only [hnl, bne_self_eq_false, hc, hs, Bool.false_eq_true, if_false, if_true] at h
          exact searchFrom_lt h hb
        · by_cases hend : buf.length ≤ i + suffixLength
          · simp only [hnl, bne_self_eq_false, hc, hs, hend, Bool.false_eq_true, if_false,
              if_true] at h
            subst h
            rcases hb with hb | hb <;> cases hb
          · simp only [hnl, bne_self_eq_false, hc, hs, hend, Bool.false_eq_true, if_false] at h
            subst h
            rcases hb with hb | hb <;> cases hb
            exact hlt
    · simp only [bne_iff_ne, ne_eq, hnl, not_false_eq_true, if_true] at h
      exact searchFrom_lt h hb
  · rw [List.drop_eq_nil_of_le hge, searchFrom] at h
    subst h
    rcases hb with hb | hb <;> cases hb
termination_by buf.length - i

end Boundary

namespace FrameDecoder

variable {d d' : FrameDecoder} {f : Frame}

/-- A step that hands out a frame takes at least one byte off the buffer. -/
theorem length_lt_of_next (hnext : d.next = .ok (some f, d')) :
    d'.buffer.length < d.buffer.length := by
  unfold next at hnext
  split at hnext
  · split at hnext
    · rename_i i hi
      obtain ⟨hlt, -⟩ := List.findIdx?_eq_some_iff_getElem.mp hi
      cases hnext
      simp only [List.length_drop]
      omega
    · cases hnext
  · split at hnext
    · rename_i i hs
      cases hnext
      have := Boundary.searchFrom_lt hs (.inl rfl)
      simp only [List.length_drop]
      omega
    · rename_i i hs
      cases hnext
      have := Boundary.searchFrom_lt hs (.inr rfl)
      simp only [List.length_drop]
      omega
    · split at hnext
      · cases hnext
      · split at hnext <;> cases hnext

/-- A reader that is not discarding and hands out a frame stays out of discarding and keeps its
limit. -/
theorem next_some_keeps (hd : d.discarding = false) (hnext : d.next = .ok (some f, d')) :
    d'.discarding = false ∧ d'.limit = d.limit := by
  simp only [next, hd, Bool.false_eq_true, if_false] at hnext
  split at hnext
  · cases hnext
    exact ⟨rfl, rfl⟩
  · cases hnext
    exact ⟨rfl, rfl⟩
  · split at hnext
    · cases hnext
    · split at hnext <;> cases hnext

/-- A reader that is not discarding and hands out nothing has worked out its oversize bound:
the bound fits in the machine word. -/
theorem le_maxWord_of_next_none (hd : d.discarding = false) (hnext : d.next = .ok (none, d')) :
    d.limit + suffixLength + 1 ≤ maxWord := by
  simp only [next, hd, Bool.false_eq_true, if_false] at hnext
  split at hnext
  · cases hnext
  · cases hnext
  · split at hnext
    · cases hnext
    · rename_i bound hbound
      by_contra hw
      rw [oversizeBound_of_lt (Nat.lt_of_not_le hw)] at hbound
      cases hbound

/-- Fuel beyond the buffer's length changes nothing: each frame takes a byte off. -/
theorem drainFor_congr {n m : Nat} (hn : d.buffer.length < n) (hm : d.buffer.length < m) :
    d.drainFor n = d.drainFor m := by
  induction n generalizing d m with
  | zero => omega
  | succ n ih =>
    obtain ⟨m, rfl⟩ : ∃ m', m = m' + 1 := ⟨m - 1, by omega⟩
    rcases hnext : d.next with t | ⟨_ | f, d'⟩
    · simp only [drainFor, hnext]
    · simp only [drainFor, hnext]
    · have hshort := length_lt_of_next hnext
      simp only [drainFor, hnext, @ih d' m (by omega) (by omega)]

theorem drain_of_next_none (hnext : d.next = .ok (none, d')) : d.drain = .ok ([], d') := by
  rw [drain, drainFor, hnext]

/-- A drain that starts with a frame is that frame, then the drain of what is left. -/
theorem drain_of_next_some (hnext : d.next = .ok (some f, d')) :
    d.drain = (fun r => (f :: r.1, r.2)) <$> d'.drain := by
  have hshort := length_lt_of_next hnext
  have hfuel : d'.drainFor d.buffer.length = d'.drain := drainFor_congr (by omega) (by omega)
  rw [drain, drainFor, hnext]
  dsimp only
  rw [hfuel]
  rcases d'.drain with t | ⟨fs, d''⟩
  · rfl
  · rfl

/-- At a limit whose oversize bound does not fit in the machine word, a drain of a reader that
is not discarding traps: it hands out frames until none ends, and then works out the bound. -/
theorem drainFor_overflow (hw : maxWord < d.limit + suffixLength + 1) (hd : d.discarding = false)
    {fuel : Nat} (hfuel : d.buffer.length < fuel) : d.drainFor fuel = .error .boundOverflow := by
  induction fuel generalizing d with
  | zero => omega
  | succ fuel ih =>
    rcases hnext : d.next with t | ⟨_ | f, d'⟩
    · cases t
      simp only [drainFor, hnext]
    · exact absurd (le_maxWord_of_next_none hd hnext) (Nat.not_le.mpr hw)
    · -- a frame: the rest of the buffer is shorter, and the reader is as it was
      obtain ⟨hd', hlimit⟩ := next_some_keeps hd hnext
      have hshort := length_lt_of_next hnext
      simp only [drainFor, hnext, ih (hlimit ▸ hw) hd' (by omega)]

/-- The first step of a fresh reader: it waits when its oversize bound fits in the machine word,
and traps when it does not. -/
theorem next_new_of_le {limit : Nat} (hw : limit + suffixLength + 1 ≤ maxWord) :
    (new limit).next = .ok (none, new limit) := by
  simp [next, new, Boundary.search, Boundary.searchFrom, oversizeBound_of_le hw]

theorem next_new_of_lt {limit : Nat} (hw : maxWord < limit + suffixLength + 1) :
    (new limit).next = .error .boundOverflow := by
  simp [next, new, Boundary.search, Boundary.searchFrom, oversizeBound_of_lt hw]

/-- At a limit whose bound does not fit, a fresh reader traps at the end of the stream. -/
theorem finish_new_overflow {limit : Nat} (hw : maxWord < limit + suffixLength + 1) :
    (new limit).finish = .error .boundOverflow := by
  simp [finish, finishFor, nextAtEnd, next_new_of_lt hw]

end FrameDecoder

end DaemonBridge
