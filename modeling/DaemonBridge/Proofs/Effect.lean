import Mathlib

/-!
# What a state action leaves

The library's stateful code (sessions, registry scripts) is written in `StateM`. Proofs about it
never unfold `StateT`: they speak of the state an action leaves (`after`) and the answer it gives
(`answer`), and the simp lemmas below push both through `pure`, `bind`, `get`, `set`, `modify` and
`List.forM`. A `do` block then reads, under `simp only`, as the composition of its steps.
-/

namespace DaemonBridge

variable {σ α β : Type}

/-- The state an action leaves when run from `s`. -/
def after (x : StateM σ α) (s : σ) : σ := (x.run s).run.2

/-- The answer an action gives when run from `s`. -/
def answer (x : StateM σ α) (s : σ) : α := (x.run s).run.1

@[simp] theorem after_pure (a : α) (s : σ) : after (pure a : StateM σ α) s = s := rfl

@[simp] theorem answer_pure (a : α) (s : σ) : answer (pure a : StateM σ α) s = a := rfl

@[simp] theorem after_bind (x : StateM σ α) (f : α → StateM σ β) (s : σ) :
    after (x >>= f) s = after (f (answer x s)) (after x s) := rfl

@[simp] theorem answer_bind (x : StateM σ α) (f : α → StateM σ β) (s : σ) :
    answer (x >>= f) s = answer (f (answer x s)) (after x s) := rfl

@[simp] theorem after_get (s : σ) : after (get : StateM σ σ) s = s := rfl

@[simp] theorem answer_get (s : σ) : answer (get : StateM σ σ) s = s := rfl

@[simp] theorem after_set (t s : σ) : after (set t : StateM σ PUnit) s = t := rfl

@[simp] theorem after_modify (f : σ → σ) (s : σ) :
    after (modify f : StateM σ PUnit) s = f s := rfl

@[simp] theorem after_map (f : α → β) (x : StateM σ α) (s : σ) :
    after (f <$> x) s = after x s := rfl

@[simp] theorem answer_map (f : α → β) (x : StateM σ α) (s : σ) :
    answer (f <$> x) s = f (answer x s) := rfl

@[simp] theorem after_discard (x : StateM σ α) (s : σ) : after (discard x) s = after x s := rfl

theorem after_ite {c : Prop} [Decidable c] (x y : StateM σ α) (s : σ) :
    after (if c then x else y) s = if c then after x s else after y s := by
  split <;> rfl

/-- Running each element's action in turn leaves what folding their effects leaves. -/
@[simp] theorem after_forM (xs : List β) (f : β → StateM σ PUnit) (s : σ) :
    after (xs.forM f) s = xs.foldl (fun t x => after (f x) t) s := by
  induction xs generalizing s with
  | nil => rfl
  | cons x rest ih => exact ih (after (f x) s)

/-- Running the actions of two lists one after the other. -/
theorem after_forM_append (xs ys : List β) (f : β → StateM σ PUnit) (s : σ) :
    after ((xs ++ ys).forM f) s = after (ys.forM f) (after (xs.forM f) s) := by
  simp only [after_forM, List.foldl_append]

theorem after_forM_cons (y : β) (ys : List β) (f : β → StateM σ PUnit) (s : σ) :
    after ((y :: ys).forM f) s = after (ys.forM f) (after (f y) s) := by
  simp only [after_forM, List.foldl_cons]

/-- A property that every element's action keeps is kept by running them all. -/
theorem forM_keeps {P : σ → Prop} {xs : List β} {f : β → StateM σ PUnit}
    (h : ∀ x ∈ xs, ∀ t, P t → P (after (f x) t)) {s : σ} (hs : P s) :
    P (after (xs.forM f) s) := by
  rw [after_forM]
  induction xs generalizing s with
  | nil => exact hs
  | cons x rest ih =>
    simp only [List.foldl_cons]
    exact ih (fun y hy => h y (List.mem_cons_of_mem x hy)) (h x (by simp) s hs)

end DaemonBridge
