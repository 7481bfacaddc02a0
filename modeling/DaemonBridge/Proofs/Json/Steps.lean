import Mathlib
import DaemonBridge.Json.Read
import DaemonBridge.Proofs.Json.Tokens

/-!
# Reading steps

Specifications of the reader's steps on the text in front of them. `Reads r cs a rest` says that
the reader `r`, started on the characters `cs`, returns `a` and stops before `rest`; `Fails r cs`
that it fails. Both hold from any starting offset: offsets only place faults, and no step looks
at them to decide what to do.

A reader built with `bind` reads when its parts read one after the other (`Reads.bind`) and fails
when a part fails (`Fails.bind`, `Reads.bind_fails`); `enclosed`, which closes a container even
after its contents failed, still fails when they did. Each step the document reader takes is
given its effect on text with no blanks where it stands: the tokens of compact text.
-/

namespace DaemonBridge.Json

namespace Reader

open Scan

variable {α β : Type}

/-- The reader `r`, started on `cs` at any offset, returns `a` and stops before `rest`. -/
def Reads (r : Reader α) (cs : List Char) (a : α) (rest : List Char) : Prop :=
  ∀ off, ∃ off', r.run.run ⟨cs, off⟩ = (.ok a, ⟨rest, off'⟩)

/-- The reader `r`, started on `cs` at any offset, fails. -/
def Fails (r : Reader α) (cs : List Char) : Prop :=
  ∀ off, ∃ f c, r.run.run ⟨cs, off⟩ = (.error f, c)

variable {r : Reader α} {f : α → Reader β} {cs mid rest : List Char} {a : α} {b : β}

theorem Reads.bind (h : Reads r cs a mid) (hf : Reads (f a) mid b rest) :
    Reads (r >>= f) cs b rest := by
  intro off
  obtain ⟨off₁, h₁⟩ := h off
  obtain ⟨off₂, h₂⟩ := hf off₁
  exact ⟨off₂, by rw [ExceptT.run_bind, StateT.run_bind, h₁]; exact h₂⟩

theorem Fails.bind (h : Fails r cs) : Fails (r >>= f) cs := by
  intro off
  obtain ⟨e, c, h₁⟩ := h off
  exact ⟨e, c, by rw [ExceptT.run_bind, StateT.run_bind, h₁]; rfl⟩

theorem Reads.bind_fails (h : Reads r cs a mid) (hf : Fails (f a) mid) : Fails (r >>= f) cs := by
  intro off
  obtain ⟨off₁, h₁⟩ := h off
  obtain ⟨e, c, h₂⟩ := hf off₁
  exact ⟨e, c, by rw [ExceptT.run_bind, StateT.run_bind, h₁]; exact h₂⟩

/-- A bind run at one cursor: the first reader's outcome decides. -/
theorem run_bind_run (r : Reader α) (f : α → Reader β) (c : Cursor) :
    (r >>= f).run.run c =
      (match r.run.run c with
        | (.ok a, c') => (f a).run.run c'
        | (.error e, c') => (.error e, c')) := by
  rw [ExceptT.run_bind, StateT.run_bind]
  rcases r.run.run c with ⟨_ | _, c'⟩ <;> rfl

theorem reads_pure (a : α) (cs : List Char) : Reads (pure a : Reader α) cs a cs :=
  fun off => ⟨off, rfl⟩

theorem Reads.map (h : Reads r cs a rest) (g : α → β) : Reads (g <$> r) cs (g a) rest := by
  intro off
  obtain ⟨off', h⟩ := h off
  exact ⟨off', by rw [ExceptT.run_map, StateT.run_map, h]; rfl⟩

theorem Fails.map (h : Fails r cs) (g : α → β) : Fails (g <$> r) cs := by
  intro off
  obtain ⟨e, c, h⟩ := h off
  exact ⟨e, c, by rw [ExceptT.run_map, StateT.run_map, h]; rfl⟩

/-! ## Tokens -/

/-- The characters `blank` passes over. -/
def IsBlank (c : Char) : Prop := c = ' ' ∨ c = '\n' ∨ c = '\t' ∨ c = '\r'

instance (c : Char) : Decidable (IsBlank c) :=
  inferInstanceAs (Decidable (c = ' ' ∨ c = '\n' ∨ c = '\t' ∨ c = '\r'))

theorem skipBlank_cons {c : Char} (hc : ¬ IsBlank c) (cs : List Char) (off : Nat) :
    skipBlank (c :: cs) off = (c :: cs, off) := by
  rw [skipBlank]
  exact if_neg hc

theorem blank_run (cs : List Char) (off : Nat) :
    blank.run.run ⟨cs, off⟩ =
      (.ok (skipBlank cs off).1.head?, ⟨(skipBlank cs off).1, (skipBlank cs off).2⟩) := rfl

theorem reads_blank {c : Char} (hc : ¬ IsBlank c) (cs : List Char) :
    Reads blank (c :: cs) (some c) (c :: cs) := by
  intro off
  exact ⟨off, by rw [blank_run, skipBlank_cons hc]; rfl⟩

theorem reads_blank_nil : Reads blank [] none [] := by
  intro off
  exact ⟨off, rfl⟩

theorem reads_bump (c : Char) (cs : List Char) : Reads bump (c :: cs) () cs := by
  intro off
  exact ⟨off + c.utf8Size, rfl⟩

theorem reads_next (c : Char) (cs : List Char) : Reads next (c :: cs) (some c) cs :=
  fun off => ⟨off + c.utf8Size, rfl⟩

theorem reads_word : ∀ (w rest : List Char), Reads (word w) (w ++ rest) () rest
  | [], rest => reads_pure () rest
  | c :: w, rest => by
    rw [word, List.cons_append]
    refine (reads_next c (w ++ rest)).bind ?_
    simpa using reads_word w rest

theorem get_bind_run (f : Cursor → Reader β) (c : Cursor) :
    (get >>= f : Reader β).run.run c = (f c).run.run c := rfl

theorem reads_get_bind {g : Cursor → Reader β} (h : ∀ off, Reads (g ⟨cs, off⟩) cs b rest) :
    Reads (get >>= g) cs b rest := by
  intro off
  obtain ⟨off', h⟩ := h off off
  exact ⟨off', by rw [get_bind_run]; exact h⟩

theorem fails_get_bind {g : Cursor → Reader β} (h : ∀ off, Fails (g ⟨cs, off⟩) cs) :
    Fails (get >>= g) cs := by
  intro off
  obtain ⟨e, c, h⟩ := h off off
  exact ⟨e, c, by rw [get_bind_run]; exact h⟩

theorem reads_scan {s : List Char → Nat → Scanned α} (h : Scans s cs a rest) :
    Reads (scan s) cs a rest := by
  intro off
  obtain ⟨off', h⟩ := h off
  refine ⟨off', ?_⟩
  rw [scan, get_bind_run]
  simp only [h]
  rfl

theorem fails_failAhead (f : Fault) (cs : List Char) : Fails (failAhead f : Reader α) cs :=
  fun _ => ⟨_, _, rfl⟩

theorem reads_stringBody (s : String) (rest : List Char) :
    Reads stringBody (s.toList.flatMap escapeChar ++ '"' :: rest) s rest :=
  reads_scan (scans_quote s rest)

/-- A quoted key reads back as the key. -/
theorem reads_key (s : String) (rest : List Char) :
    Reads key ((quote s).toList ++ rest) s rest := by
  rw [toList_quote, List.cons_append, List.append_assoc, List.singleton_append]
  exact (reads_bump _ _).bind (reads_stringBody s rest)

theorem not_isBlank_of_mem {c : Char} (h : c ∈ ['[', ']', '{', '}', ',', ':', '"', 'n', 't', 'f', '-']) :
    ¬ IsBlank c := by
  simp only [List.mem_cons, List.not_mem_nil, or_false] at h
  rcases h with rfl | rfl | rfl | rfl | rfl | rfl | rfl | rfl | rfl | rfl | rfl <;> decide

theorem reads_colon (cs : List Char) : Reads colon (':' :: cs) () cs :=
  (reads_blank (not_isBlank_of_mem (by simp)) cs).bind (reads_bump ':' cs)

theorem reads_closeList (cs : List Char) : Reads closeList (']' :: cs) () cs :=
  (reads_blank (not_isBlank_of_mem (by simp)) cs).bind (reads_bump ']' cs)

theorem reads_closeObject (cs : List Char) : Reads closeObject ('}' :: cs) () cs :=
  (reads_blank (not_isBlank_of_mem (by simp)) cs).bind (reads_bump '}' cs)

theorem reads_finish : Reads finish [] () [] :=
  reads_blank_nil.bind (reads_pure () [])

/-- A list ends at its closing bracket. -/
theorem reads_moreItems_close (first : Bool) (cs : List Char) :
    Reads (moreItems first) (']' :: cs) false (']' :: cs) :=
  (reads_blank (not_isBlank_of_mem (by simp)) cs).bind (reads_pure false _)

/-- The first item starts at any character but a blank or the closing bracket. -/
theorem reads_moreItems_first {c : Char} (hc : ¬ IsBlank c) (hne : c ≠ ']') (cs : List Char) :
    Reads (moreItems true) (c :: cs) true (c :: cs) := by
  refine (reads_blank hc cs).bind ?_
  split
  · simp_all
  · simp_all
  · exact reads_pure true _

/-- A later item comes after a comma. -/
theorem reads_moreItems_next {c : Char} (hc : ¬ IsBlank c) (hne : c ≠ ']') (cs : List Char) :
    Reads (moreItems false) (',' :: c :: cs) true (c :: cs) := by
  refine (reads_blank (not_isBlank_of_mem (by simp)) _).bind ?_
  simp only [Bool.false_eq_true, ↓reduceIte]
  refine (reads_bump ',' _).bind ((reads_blank hc cs).bind ?_)
  split
  · simp_all
  · exact reads_pure true _
  · simp_all

/-- An object ends at its closing brace. -/
theorem reads_moreMembers_close (first : Bool) (cs : List Char) :
    Reads (moreMembers first) ('}' :: cs) false ('}' :: cs) :=
  (reads_blank (not_isBlank_of_mem (by simp)) cs).bind (reads_pure false _)

/-- The first member starts at the quote of its key. -/
theorem reads_moreMembers_first (cs : List Char) :
    Reads (moreMembers true) ('"' :: cs) true ('"' :: cs) :=
  (reads_blank (not_isBlank_of_mem (by simp)) cs).bind (reads_pure true _)

/-- A later member comes after a comma, at the quote of its key. -/
theorem reads_moreMembers_next (cs : List Char) :
    Reads (moreMembers false) (',' :: '"' :: cs) true ('"' :: cs) := by
  refine (reads_blank (not_isBlank_of_mem (by simp)) _).bind ?_
  simp only [Bool.false_eq_true, ↓reduceIte]
  exact (reads_bump ',' _).bind
    ((reads_blank (not_isBlank_of_mem (by simp)) cs).bind (reads_pure true _))

/-! ## Containers and outcomes -/

theorem attempt_run (r : Reader α) (c : Cursor) :
    (attempt r).run.run c =
      (match r.run.run c with
        | (.ok a, c') => (.ok (.ok a), c')
        | (.error e, c') => (.ok (.error e), c')) := by
  unfold attempt
  rw [ExceptT.run_tryCatch, StateT.run_bind, ExceptT.run_map, StateT.run_map]
  rcases r.run.run c with ⟨_ | _, c'⟩ <;> rfl

theorem reads_attempt (h : Reads r cs a rest) : Reads (attempt r) cs (.ok a) rest := by
  intro off
  obtain ⟨off', h⟩ := h off
  exact ⟨off', by rw [attempt_run, h]⟩

/-- `attempt` turns a failure into an outcome. -/
theorem attempt_fails (h : Fails r cs) (off : Nat) :
    ∃ e c, (attempt r).run.run ⟨cs, off⟩ = (.ok (.error e), c) := by
  obtain ⟨e, c, h⟩ := h off
  exact ⟨e, c, by rw [attempt_run, h]⟩

theorem attempt_ok (r : Reader α) (c : Cursor) : ∃ x c', (attempt r).run.run c = (.ok x, c') := by
  rw [attempt_run]
  rcases r.run.run c with ⟨_ | _, c'⟩ <;> exact ⟨_, _, rfl⟩

theorem reads_enclosed {contents : Reader α} {close : Reader Unit}
    (hc : Reads contents cs a mid) (hclose : Reads close mid () rest) :
    Reads (enclosed contents close) cs a rest :=
  (reads_attempt hc).bind ((reads_attempt hclose).bind (reads_pure a rest))

/-- A container whose contents fail fails, whatever closing it then does. -/
theorem fails_enclosed {contents : Reader α} {close : Reader Unit} (hc : Fails contents cs) :
    Fails (enclosed contents close) cs := by
  intro off
  obtain ⟨e, c, h₁⟩ := attempt_fails hc off
  obtain ⟨x, c', h₂⟩ := attempt_ok close c
  refine ⟨e, c', ?_⟩
  rw [enclosed, ExceptT.run_bind, StateT.run_bind, h₁]
  show (ExceptT.run (attempt close >>= fun closed => firstFailure (.error e) closed)).run c = _
  rw [ExceptT.run_bind, StateT.run_bind, h₂]
  rfl

theorem reads_placed (h : Reads r cs a rest) : Reads (placed r) cs a rest := by
  intro off
  obtain ⟨off', h⟩ := h off
  exact ⟨off', by rw [placed, ExceptT.run_tryCatch, StateT.run_bind, h]; rfl⟩

theorem fails_placed (h : Fails r cs) : Fails (placed r) cs := by
  intro off
  obtain ⟨⟨f, at?⟩, c, h⟩ := h off
  rw [placed, ExceptT.run_tryCatch, StateT.run_bind, h]
  cases at? with
  | none => exact ⟨_, _, rfl⟩
  | some o => exact ⟨_, _, rfl⟩

/-- A reader that reads a whole text gives its value. -/
theorem runText_of_reads {text : String} (h : Reads r text.toList a []) : runText r text = .ok a := by
  obtain ⟨off', h⟩ :=
    (h.bind (f := fun a => (do finish; pure a : Reader α)) (reads_finish.bind (reads_pure a []))) 0
  rw [runText]
  simp only [h]

/-- A reader that fails on a text gives an error. -/
theorem runText_of_fails {text : String} (h : Fails r text.toList) :
    ∃ e, runText r text = .error e := by
  obtain ⟨⟨f, at?⟩, c, h⟩ := (Fails.bind (f := fun a => (do finish; pure a : Reader α)) h) 0
  rw [runText]
  simp only [h]
  exact ⟨_, rfl⟩

/-- A whole text that a reader reads: the reader's run from the start, and only blanks after. -/
theorem runText_ok_inv {text : String} (h : runText r text = .ok a) :
    ∃ c, r.run.run ⟨text.toList, 0⟩ = (.ok a, c) ∧ (skipBlank c.rest c.offset).1 = [] := by
  unfold runText at h
  dsimp only at h
  rw [run_bind_run] at h
  rcases hr : r.run.run ⟨text.toList, 0⟩ with ⟨_ | a₀, ⟨rs, o⟩⟩
  all_goals rw [hr] at h
  all_goals dsimp only at h
  case error => cases h
  case ok =>
    rw [run_bind_run, finish, run_bind_run, blank_run] at h
    rcases hs : skipBlank rs o with ⟨_ | ⟨ch, cs'⟩, o'⟩
    all_goals rw [hs] at h
    · cases h
      exact ⟨_, rfl, by rw [hs]⟩
    · cases h

end Reader

end DaemonBridge.Json
