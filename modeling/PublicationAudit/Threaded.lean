/-!
# Threading a state through a list

Walks that carry a state apply one function to each element in order and hand the state on. The
equations `threadMap_nil`, `threadMap_cons` and `threadMap_append` are all that proofs need.
-/

namespace PublicationAudit

variable {σ α β : Type}

/-- Applies a function to each element in order; each application sees the state that the one before
left. -/
def threadMap (f : σ → α → β × σ) : σ → List α → List β × σ
  | s, [] => ([], s)
  | s, a :: as =>
    let head := f s a
    let tail := threadMap f head.2 as
    (head.1 :: tail.1, tail.2)

@[simp] theorem threadMap_nil (f : σ → α → β × σ) (s : σ) : threadMap f s [] = ([], s) := rfl

@[simp] theorem threadMap_cons (f : σ → α → β × σ) (s : σ) (a : α) (as : List α) :
    threadMap f s (a :: as) =
      ((f s a).1 :: (threadMap f (f s a).2 as).1, (threadMap f (f s a).2 as).2) := rfl

/-- A list is walked by walking its two parts one after the other. -/
theorem threadMap_append (f : σ → α → β × σ) (s : σ) (as bs : List α) :
    threadMap f s (as ++ bs) =
      ((threadMap f s as).1 ++ (threadMap f (threadMap f s as).2 bs).1,
        (threadMap f (threadMap f s as).2 bs).2) := by
  induction as generalizing s with
  | nil => simp
  | cons a as ih => simp [ih]

/-- A walk answers once for each element. -/
theorem length_threadMap (f : σ → α → β × σ) (s : σ) (as : List α) :
    (threadMap f s as).1.length = as.length := by
  induction as generalizing s with
  | nil => rfl
  | cons a as ih => simp [ih]

/-- What every application keeps, the whole walk keeps. -/
theorem threadMap_state_induction {f : σ → α → β × σ} {P : σ → Prop} {as : List α}
    (h : ∀ s a, a ∈ as → P s → P (f s a).2) {s : σ} (hs : P s) : P (threadMap f s as).2 := by
  induction as generalizing s with
  | nil => exact hs
  | cons a as ih =>
    exact ih (fun s b hb => h s b (List.mem_cons_of_mem _ hb)) (h s a List.mem_cons_self hs)

end PublicationAudit
