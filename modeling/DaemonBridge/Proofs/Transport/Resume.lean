import Mathlib
import DaemonBridge.Proofs.Transport.Segmentation

/-!
# Where the search resumes

A reader saves where its last search for a frame's end stopped, and its next search starts
there. That only saves work. A reader that searches every buffer from its first byte
(`FrameDecoder.nextFromStart`) returns the same thing at every call and is left in the same
state, along any run of appends and decodes from a fresh reader, at any limit: the two trap at
the same call when the oversize bound does not fit in the machine word
(`resume_point_transparent`).

The saved point is exact (`FrameDecoder.ResumeExact`): no byte before it is a newline, and a
reader that discards saves none. A search that runs out stops at the first newline after its
start or at the end (`Boundary.searchFrom_eq_incomplete`). A newline it passes because a frame
ends within four bytes after it makes the search stop at that end, so it never runs out past
such a newline (`Boundary.searchFrom_ne_incomplete`). Every step therefore leaves the point
exact (`FrameDecoder.ResumeExact.next`), and from an exact point the search finds what a search
from the front finds (`FrameDecoder.Settled.search_eq`).
-/

namespace DaemonBridge

namespace FrameDecoder

/-- The reader without the saved point: `next`, with every search started at the first byte of
the buffer. -/
def nextFromStart (d : FrameDecoder) : Except Trap (Option Frame × FrameDecoder) :=
  { d with resume := 0 }.next

/-- A call made on a reader: bytes appended to its buffer, or a frame asked for. -/
inductive Call where
  | append (chunk : Bytes)
  | decode
  deriving DecidableEq, Repr

/-- Calls made one after another on a reader whose decodes are taken by `step`: what each call
returned, with the reader after it. A decode that traps ends the run. -/
def replay (step : FrameDecoder → Except Trap (Option Frame × FrameDecoder)) :
    FrameDecoder → List Call → List (Except Trap (Option Frame × FrameDecoder))
  | _, [] => []
  | d, .append chunk :: calls => .ok (none, d.push chunk) :: replay step (d.push chunk) calls
  | d, .decode :: calls =>
    match step d with
    | .error t => [.error t]
    | .ok (f, d') => .ok (f, d') :: replay step d' calls

/-- The saved point of a reader is exact: it lies in the buffer, no byte before it is a newline,
and a reader that discards has saved none. -/
structure ResumeExact (d : FrameDecoder) : Prop where
  resume_le : d.resume ≤ d.buffer.length
  no_newline : ∀ j < d.resume, d.buffer[j]? ≠ some newline
  discarding : d.discarding = true → d.resume = 0

variable {d d' : FrameDecoder} {f : Option Frame} {more : Bytes}

theorem ResumeExact.of_resume_eq_zero (h : d.resume = 0) : ResumeExact d where
  resume_le := h ▸ Nat.zero_le _
  no_newline j hj := absurd (h ▸ hj) (Nat.not_lt_zero j)
  discarding _ := h

theorem ResumeExact.new (limit : Nat) : ResumeExact (new limit) := of_resume_eq_zero rfl

theorem Settled.resumeExact (h : Settled d) : ResumeExact d where
  resume_le := h.resume_le
  no_newline := h.no_newline
  discarding hd := absurd (h.not_discarding ▸ hd) Bool.false_ne_true

theorem ResumeExact.settled (h : ResumeExact d) (hd : d.discarding = false) : Settled d :=
  ⟨hd, h.resume_le, h.no_newline⟩

theorem ResumeExact.push (h : ResumeExact d) : ResumeExact (d.push more) := by
  cases hd : d.discarding
  · exact (h.settled hd).push.resumeExact
  · exact of_resume_eq_zero (h.discarding hd)

/-- A reader that is not discarding and starts to discard saves no point. -/
theorem resume_of_next_discarding (hd : d.discarding = false) (hnext : d.next = .ok (none, d'))
    (hd' : d'.discarding = true) : d'.resume = 0 := by
  simp only [next, hd, Bool.false_eq_true, if_false] at hnext
  split at hnext
  · cases hnext
  · cases hnext
  · split at hnext
    · cases hnext
    · split at hnext <;> cases hnext
      · rfl
      · exact absurd hd' (by simp)

/-- Every decode that does not trap leaves the saved point exact. -/
theorem ResumeExact.next (h : ResumeExact d) (hnext : d.next = .ok (f, d')) : ResumeExact d' := by
  cases hd : d.discarding
  · -- a reader that is not discarding is settled, and the steps of a settled reader are known
    have hs := h.settled hd
    rcases f with _ | f
    · cases hd' : d'.discarding
      · exact (hs.next_none hnext hd').resumeExact
      · exact of_resume_eq_zero (resume_of_next_discarding hd hnext hd')
    · exact (hs.next_some hnext).resumeExact
  · -- a discarding reader keeps the point it had, which is the start
    apply of_resume_eq_zero
    simp only [FrameDecoder.next, hd, if_true] at hnext
    split at hnext <;> cases hnext <;> exact h.discarding hd

/-- From an exact saved point a decode returns what a decode searching from the start returns,
and leaves the same reader. -/
theorem ResumeExact.next_eq (h : ResumeExact d) : d.next = d.nextFromStart := by
  cases hd : d.discarding
  · exact (h.settled hd).next_eq
  · -- a discarding reader has saved no point, so forgetting it changes nothing
    obtain ⟨limit, buffer, resume, discarding⟩ := d
    obtain rfl : resume = 0 := h.discarding hd
    rfl

/-- From an exact saved point, any calls give the same answers and pass through the same readers
with or without the saved point. -/
theorem ResumeExact.replay_eq (h : ResumeExact d) (calls : List Call) :
    replay FrameDecoder.next d calls = replay nextFromStart d calls := by
  induction calls generalizing d with
  | nil => rfl
  | cons call calls ih =>
    cases call with
    | append chunk => simp only [replay, ih h.push]
    | decode =>
      simp only [replay, ← h.next_eq]
      rcases hnext : d.next with t | ⟨f, d'⟩
      · rfl
      · simp only [ih (h.next hnext)]

end FrameDecoder

/-- The saved point of a reader only saves work: from a fresh reader with any limit, along any
appends and decodes, the reader and the reader that searches every buffer from its first byte
return the same frames and are left with the same buffer, discarding flag and saved point after
every call, and trap at the same call. -/
theorem resume_point_transparent (limit : Nat) (calls : List FrameDecoder.Call) :
    (FrameDecoder.new limit).replay FrameDecoder.next calls =
      (FrameDecoder.new limit).replay FrameDecoder.nextFromStart calls :=
  (FrameDecoder.ResumeExact.new limit).replay_eq calls

/-- The point is used: two bytes with no newline leave the reader resuming after them. -/
example : ((FrameDecoder.new 8).replay FrameDecoder.next [.append [0x61, 0x62], .decode]).map
    (fun r => r.toOption.map (·.2.resume)) = [some 0, some 2] := by decide

end DaemonBridge
