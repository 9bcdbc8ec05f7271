import Mathlib.Data.List.Count
import Mathlib.Data.List.Induction
import PublicationAudit.Threaded

/-!
# Answers of a walk that settle

What a step of a walk answers is often a function of what its last state knows, and later steps
never take that knowledge back. `Settles` says so of one step, and `threadMap_settles` carries it to
a walk over a list, whose answers then follow from what is known at the end. `threadMap_inStep` is
about two walks whose states stay related, `threadMap_congr` about two that agree wherever they come
to, `forall₂_threadMap` about answers that have a property each. `threadCollect` lists what the
steps of a walk give rise to, and `unmet` counts the members of a list that a walk has still to
meet.
-/

namespace PublicationAudit

section Settling

variable {σ κ α β : Type}

/-- A step moves the state along `R`, and whatever agrees with the state reached gives the answer
through `g`. -/
def Settles (R : σ → σ → Prop) (agrees : σ → κ → Prop) (f : σ → α → β × σ) (g : κ → α → β)
    (s : σ) (a : α) : Prop :=
  R s (f s a).2 ∧ ∀ k, agrees (f s a).2 k → (f s a).1 = g k a

variable {R : σ → σ → Prop} (agrees : σ → κ → Prop) {f : σ → α → β × σ} {g : κ → α → β}

/-- When every step of a walk settles, so does the walk. -/
theorem threadMap_settles (hrefl : ∀ s, R s s) (htrans : ∀ {r s t}, R r s → R s t → R r t)
    (hagrees : ∀ {s t k}, R s t → agrees t k → agrees s k) {as : List α} {s : σ}
    (h : ∀ t, R s t → ∀ a ∈ as, Settles R agrees f g t a) :
    R s (threadMap f s as).2 ∧
      ∀ k, agrees (threadMap f s as).2 k → (threadMap f s as).1 = as.map (g k) := by
  induction as generalizing s with
  | nil => exact ⟨hrefl s, fun _ _ => rfl⟩
  | cons a as ih =>
      obtain ⟨hstep, hanswer⟩ := h s (hrefl s) a List.mem_cons_self
      obtain ⟨hrest, hanswers⟩ := ih (s := (f s a).2)
        (fun t ht b hb => h t (htrans hstep ht) b (List.mem_cons_of_mem a hb))
      refine ⟨htrans hstep hrest, fun k hk => ?_⟩
      -- What agrees with the end of the walk agrees with the state after its first step.
      have hhead := hanswer k (hagrees hrest hk)
      have htail := hanswers k hk
      simp only [threadMap_cons, List.map_cons, hhead, htail]

end Settling

/-- Two walks over a list whose steps answer alike, and keep their states related, answer alike. -/
theorem threadMap_inStep {σ τ α β : Type} {R : σ → τ → Prop} {f : σ → α → β × σ}
    {g : τ → α → β × τ} {as : List α} {s : σ} {t : τ} (hstart : R s t)
    (h : ∀ s t, R s t → ∀ a ∈ as, (f s a).1 = (g t a).1 ∧ R (f s a).2 (g t a).2) :
    (threadMap f s as).1 = (threadMap g t as).1 ∧ R (threadMap f s as).2 (threadMap g t as).2 := by
  induction as generalizing s t with
  | nil => exact ⟨rfl, hstart⟩
  | cons a as ih =>
      obtain ⟨hanswer, hstep⟩ := h s t hstart a List.mem_cons_self
      obtain ⟨hanswers, hend⟩ :=
        ih hstep fun s t hst b hb => h s t hst b (List.mem_cons_of_mem a hb)
      exact ⟨by rw [threadMap_cons, threadMap_cons, hanswer, hanswers], hend⟩

/-- What holds of every answer holds of the answers of a walk, one for each element. -/
theorem forall₂_threadMap {σ α β : Type} {P : α → β → Prop} {f : σ → α → β × σ}
    (h : ∀ s a, P a (f s a).1) (as : List α) (s : σ) : List.Forall₂ P as (threadMap f s as).1 := by
  induction as generalizing s with
  | nil => exact .nil
  | cons a as ih => exact .cons (h s a) (ih (f s a).2)

/-- A walk over a list comes to an element in the state that the elements before it leave. -/
def ComesTo {σ α β : Type} (f : σ → α → β × σ) (start : σ) (as : List α) (state : σ) (a : α) :
    Prop :=
  ∃ before after, as = before ++ a :: after ∧ (threadMap f start before).2 = state

/-- Such an element is one of the list. -/
theorem ComesTo.mem {σ α β : Type} {f : σ → α → β × σ} {s t : σ} {as : List α} {a : α}
    (h : ComesTo f s as t a) : a ∈ as := by
  obtain ⟨before, after, rfl, -⟩ := h
  exact List.mem_append_right _ List.mem_cons_self

/-- What a walk over a list keeps at every element that it comes to holds wherever it comes. -/
theorem ComesTo.state_induction {σ α β : Type} {f : σ → α → β × σ} {P : σ → Prop} {s t : σ}
    {as : List α} {a : α} (h : ComesTo f s as t a)
    (hstep : ∀ t a, ComesTo f s as t a → P t → P (f t a).2) (hs : P s) : P t := by
  obtain ⟨before, after, has, rfl⟩ := h
  induction before using List.reverseRecOn generalizing a after with
  | nil => exact hs
  | append_singleton before b ih =>
      have hsplit : as = before ++ b :: a :: after := by rw [has, List.append_assoc]; rfl
      rw [threadMap_append]
      exact hstep _ b ⟨before, a :: after, hsplit, rfl⟩ (ih (a :: after) hsplit)

/-- What the steps of a walk over a list give rise to, one after the other. -/
def threadCollect {σ α β γ : Type} (f : σ → α → β × σ) (own : σ → α → List γ) :
    σ → List α → List γ
  | _, [] => []
  | s, a :: as => own s a ++ threadCollect f own (f s a).2 as

/-- A walk gives rise to what the elements that it comes to give rise to. -/
theorem mem_threadCollect {σ α β γ : Type} {f : σ → α → β × σ} {own : σ → α → List γ} {s : σ}
    {as : List α} {c : γ} :
    c ∈ threadCollect f own s as ↔ ∃ t a, ComesTo f s as t a ∧ c ∈ own t a := by
  induction as generalizing s with
  | nil => simp [threadCollect, ComesTo]
  | cons a as ih =>
      rw [threadCollect, List.mem_append, ih]
      constructor
      · rintro (hhead | ⟨t, b, ⟨before, after, rfl, hstate⟩, hc⟩)
        · exact ⟨s, a, ⟨[], as, rfl, rfl⟩, hhead⟩
        · exact ⟨t, b, ⟨a :: before, after, rfl, hstate⟩, hc⟩
      · rintro ⟨t, b, ⟨before, after, hsplit, rfl⟩, hc⟩
        cases before with
        | nil =>
            obtain ⟨rfl, rfl⟩ := List.cons.inj hsplit
            exact .inl hc
        | cons first before =>
            obtain ⟨rfl, rfl⟩ := List.cons.inj hsplit
            exact .inr ⟨_, b, ⟨before, after, rfl, rfl⟩, hc⟩

/-- Two steps that agree wherever both walks come to an element give one walk, which gives rise to
the same when its elements do. -/
theorem threadCollect_congr {σ α β γ : Type} {f g : σ → α → β × σ} {own other : σ → α → List γ}
    {as : List α} {s : σ}
    (h : ∀ t a, ComesTo f s as t a → ComesTo g s as t a → f t a = g t a ∧ own t a = other t a) :
    threadMap f s as = threadMap g s as ∧
      threadCollect f own s as = threadCollect g other s as := by
  induction as generalizing s with
  | nil => exact ⟨rfl, rfl⟩
  | cons a as ih =>
      obtain ⟨hstep, hown⟩ := h s a ⟨[], as, rfl, rfl⟩ ⟨[], as, rfl, rfl⟩
      have htail := ih (s := (f s a).2) fun t b hf hg => by
        obtain ⟨before, after, rfl, hstate⟩ := hf
        obtain ⟨earlier, later, hsplit, hother⟩ := hg
        refine h t b ⟨a :: before, after, rfl, hstate⟩ ⟨a :: earlier, later, ?_, ?_⟩
        · rw [hsplit, List.cons_append]
        · rw [threadMap_cons, ← hstep, hother]
      rw [threadMap_cons, threadMap_cons, threadCollect, threadCollect, htail.1, htail.2, hstep,
        hown]
      exact ⟨rfl, rfl⟩

/-- Two steps that agree wherever both walks come to an element give one walk. -/
theorem threadMap_congr {σ α β : Type} {f g : σ → α → β × σ} {as : List α} {s : σ}
    (h : ∀ t a, ComesTo f s as t a → ComesTo g s as t a → f t a = g t a) :
    threadMap f s as = threadMap g s as := by
  have hboth : threadMap f s as = threadMap g s as ∧
      threadCollect f (fun _ _ => ([] : List Unit)) s as = threadCollect g (fun _ _ => []) s as :=
    threadCollect_congr fun t a hf hg => ⟨h t a hf hg, rfl⟩
  exact hboth.1

/-- What a walk over a list answers it answers when it comes to one of the elements. -/
theorem exists_comesTo {σ α β : Type} {f : σ → α → β × σ} {s : σ} {as : List α} {b : β}
    (h : b ∈ (threadMap f s as).1) : ∃ t a, ComesTo f s as t a ∧ (f t a).1 = b := by
  induction as generalizing s with
  | nil => simp at h
  | cons a as ih =>
      rcases List.mem_cons.1 h with rfl | hrest
      · exact ⟨s, a, ⟨[], as, rfl, rfl⟩, rfl⟩
      · obtain ⟨t, other, ⟨before, after, rfl, hstate⟩, hb⟩ := ih hrest
        exact ⟨t, other, ⟨a :: before, after, rfl, hstate⟩, hb⟩

/-- What comes to hold in a walk over a list comes to hold in one of its steps. -/
theorem exists_comesTo_of_change {σ α β : Type} {f : σ → α → β × σ} {P : σ → Prop} {s : σ}
    {as : List α} (hstart : ¬ P s) (hend : P (threadMap f s as).2) :
    ∃ t a, ComesTo f s as t a ∧ ¬ P t ∧ P (f t a).2 := by
  induction as generalizing s with
  | nil => exact absurd hend hstart
  | cons a as ih =>
      by_cases hstep : P (f s a).2
      · exact ⟨s, a, ⟨[], as, rfl, rfl⟩, hstart, hstep⟩
      · obtain ⟨t, other, ⟨before, after, rfl, hstate⟩, hchange⟩ := ih hstep hend
        exact ⟨t, other, ⟨a :: before, after, rfl, hstate⟩, hchange⟩

section Counting

variable {α : Type} [DecidableEq α]

/-- The number of members of a list that are not among the ones met. -/
def unmet (all met : List α) : Nat := all.countP (· ∉ met)

/-- The more were met, the fewer are left. -/
theorem unmet_le_of_subset (all : List α) {met later : List α} (h : met ⊆ later) :
    unmet all later ≤ unmet all met :=
  List.countP_mono_left fun a _ ha => by
    simp only [decide_eq_true_eq] at ha ⊢
    exact fun hmet => ha (h hmet)

/-- Meeting a new member leaves fewer. -/
theorem unmet_cons_lt {all met : List α} {a : α} (ha : a ∈ all) (hnew : a ∉ met) :
    unmet all (a :: met) < unmet all met := by
  induction all with
  | nil => simp at ha
  | cons b all ih =>
      by_cases hb : b = a
      · subst hb
        have hle : unmet all (b :: met) ≤ unmet all met :=
          unmet_le_of_subset all (List.subset_cons_self b met)
        have hmet : unmet (b :: all) (b :: met) = unmet all (b :: met) :=
          List.countP_cons_of_neg (by simp)
        have hunmet : unmet (b :: all) met = unmet all met + 1 :=
          List.countP_cons_of_pos (by simpa using hnew)
        omega
      · have hlt := ih (List.mem_of_ne_of_mem (fun h => hb h.symm) ha)
        simp only [unmet, List.countP_cons, List.mem_cons, hb, false_or] at hlt ⊢
        omega

/-- All members of a list are left at first. -/
theorem unmet_le_length (all met : List α) : unmet all met ≤ all.length :=
  List.countP_le_length

end Counting

end PublicationAudit
