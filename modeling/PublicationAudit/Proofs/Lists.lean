import Mathlib.Data.List.Forall2
import Mathlib.Data.List.Induction
import Mathlib.Data.List.Nodup
import Mathlib.Data.List.Perm.Basic

/-!
# Lists

Facts about lists that the theory of the audit rests on: the distinct members of a list and how they
depend on its order, parting a list by keys (`flatMap_filter_perm` says that nothing is lost or
repeated), and lists related element by element.
-/

namespace PublicationAudit

variable {α β κ : Type}

section Distinct

variable [DecidableEq κ]

/-- A list without repetitions is its own list of distinct members. -/
theorem eraseDups_of_nodup {l : List κ} (h : l.Nodup) : l.eraseDups = l := by
  induction l with
  | nil => rfl
  | cons a l ih =>
      obtain ⟨ha, hl⟩ := List.nodup_cons.1 h
      have hfilter : (l.filter fun b => !b == a) = l :=
        List.filter_eq_self.2 fun b hb => by
          have hne : b ≠ a := fun he => ha (he ▸ hb)
          simpa using hne
      rw [List.eraseDups_cons, hfilter, ih hl]

/-- Distinct members are listed once each. -/
theorem nodup_eraseDups (l : List κ) : l.eraseDups.Nodup := by
  induction h : l.length using Nat.strongRecOn generalizing l with
  | ind n ih =>
      cases l with
      | nil => exact List.nodup_nil
      | cons a l =>
          rw [List.eraseDups_cons, List.nodup_cons]
          have hlt : (l.filter fun b => !b == a).length < n := by
            have hle := List.length_filter_le (fun b => !b == a) l
            simp only [List.length_cons] at h
            omega
          exact ⟨fun hmem => by simp at hmem, ih _ hlt _ rfl⟩

/-- Parting elements by keys that cover them loses and repeats none. -/
theorem flatMap_filter_perm (key : α → κ) {keys : List κ} (hnodup : keys.Nodup) {elements : List α}
    (hcover : ∀ a ∈ elements, key a ∈ keys) :
    (keys.flatMap fun k => elements.filter (key · = k)).Perm elements := by
  induction keys generalizing elements with
  | nil =>
      have hnone : elements = [] := List.eq_nil_iff_forall_not_mem.2 fun a ha => by
        simpa using hcover a ha
      rw [hnone]
      exact .nil
  | cons k keys ih =>
      obtain ⟨hk, hkeys⟩ := List.nodup_cons.1 hnodup
      -- The first key parts its own elements from the others, which the other keys then part.
      have hothers : (keys.flatMap fun other => elements.filter (key · = other)) =
          keys.flatMap fun other =>
            (elements.filter fun a => !decide (key a = k)).filter (key · = other) := by
        rw [List.flatMap_def, List.flatMap_def]
        congr 1
        refine List.map_congr_left fun other hother => ?_
        rw [List.filter_filter]
        refine List.filter_congr fun a _ => ?_
        by_cases ha : key a = other
        · have hne : other ≠ k := fun he => hk (he ▸ hother)
          simp [ha, hne]
        · simp [ha]
      rw [List.flatMap_cons, hothers]
      refine ((ih hkeys fun a ha => ?_).append_left _).trans
        (List.filter_append_perm (fun a => decide (key a = k)) elements)
      obtain ⟨hmem, hne⟩ := List.mem_filter.1 ha
      exact (List.mem_cons.1 (hcover a hmem)).resolve_left fun he => by simp [he] at hne

/-- Lists with the same members, in any order, have the same distinct members in some order. -/
theorem eraseDups_perm {l u : List κ} (h : l.Perm u) : l.eraseDups.Perm u.eraseDups :=
  (List.perm_ext_iff_of_nodup (nodup_eraseDups l) (nodup_eraseDups u)).2 fun a => by
    rw [List.mem_eraseDups, List.mem_eraseDups, h.mem_iff]

/-- A member that comes again adds nothing to the distinct members. -/
theorem eraseDups_append_cons {l : List κ} {a : κ} (h : a ∈ l) (u : List κ) :
    (l ++ a :: u).eraseDups = (l ++ u).eraseDups := by
  rw [List.eraseDups_append, List.eraseDups_append]
  simp [List.removeAll, h]

/-- A list that goes on has further distinct members after those that it had. -/
theorem eraseDups_extends {l u : List κ} (h : l <+: u) : l.eraseDups <+: u.eraseDups := by
  obtain ⟨more, rfl⟩ := h
  rw [List.eraseDups_append]
  exact List.prefix_append _ _

/-- Members are selected from the distinct ones as they are before. -/
theorem filter_eraseDups (p : κ → Bool) (l : List κ) :
    l.eraseDups.filter p = (l.filter p).eraseDups := by
  induction l using List.reverseRecOn with
  | nil => rfl
  | append_singleton l a ih =>
      rw [List.eraseDups_append, List.filter_append, ih, List.filter_append, List.eraseDups_append]
      by_cases ha : a ∈ l <;> cases hp : p a <;> simp [List.removeAll, ha, hp]

end Distinct

/-- Lists of the same length are empty together. -/
theorem isEmpty_eq_of_length_eq {l : List α} {u : List β} (h : l.length = u.length) :
    l.isEmpty = u.isEmpty := by
  rw [Bool.eq_iff_iff, List.isEmpty_iff_length_eq_zero, List.isEmpty_iff_length_eq_zero, h]

/-- Where one member alone gives rise to anything, the list gives rise to no more. -/
theorem flatMap_eq_of_unique {f : α → List β} {l : List α} {a : α} (hnodup : l.Nodup)
    (ha : a ∈ l) (hothers : ∀ b ∈ l, b ≠ a → f b = []) : l.flatMap f = f a := by
  obtain ⟨before, after, rfl⟩ := List.append_of_mem ha
  have hout := (List.nodup_cons.1 (List.nodup_middle.1 hnodup)).1
  rw [List.mem_append, not_or] at hout
  have hbefore : before.flatMap f = [] := List.flatMap_eq_nil_iff.2 fun b hb =>
    hothers b (List.mem_append_left _ hb) fun he => hout.1 (he ▸ hb)
  have hafter : after.flatMap f = [] := List.flatMap_eq_nil_iff.2 fun b hb =>
    hothers b (List.mem_append_right _ (List.mem_cons_of_mem a hb)) fun he => hout.2 (he ▸ hb)
  rw [List.flatMap_append, List.flatMap_cons, hbefore, hafter, List.nil_append, List.append_nil]

/-- Where some member fails a test, one is the first to fail it. -/
theorem exists_first_not {p : α → Prop} {l : List α} (h : ∃ a ∈ l, ¬p a) :
    ∃ before a after, l = before ++ a :: after ∧ (∀ b ∈ before, p b) ∧ ¬p a := by
  induction l with
  | nil => simp at h
  | cons b l ih =>
      by_cases hb : p b
      · obtain ⟨a, ha, hfails⟩ := h
        have hrest : a ∈ l := (List.mem_cons.1 ha).resolve_left fun he => hfails (he ▸ hb)
        obtain ⟨before, first, after, rfl, hbefore, hfirst⟩ := ih ⟨a, hrest, hfails⟩
        exact ⟨b :: before, first, after, rfl, List.forall_mem_cons.2 ⟨hb, hbefore⟩, hfirst⟩
      · exact ⟨[], b, l, rfl, nofun, hb⟩

section Pointwise

variable {γ : Type} {R : α → β → Prop} {l : List α} {u : List β}

/-- Every member of a list is related to one of the other. -/
theorem exists_of_forall₂ (h : List.Forall₂ R l u) {a : α} (ha : a ∈ l) : ∃ b ∈ u, R a b := by
  induction h with
  | nil => simp at ha
  | cons hab _ ih =>
      rcases List.mem_cons.1 ha with rfl | hrest
      · exact ⟨_, List.mem_cons_self, hab⟩
      · obtain ⟨b, hb, hrelated⟩ := ih hrest
        exact ⟨b, List.mem_cons_of_mem _ hb, hrelated⟩

/-- Lists related element by element agree on what related elements agree on. -/
theorem map_eq_of_forall₂ {g : α → γ} {k : β → γ} (h : List.Forall₂ R l u)
    (hsame : ∀ a b, R a b → k b = g a) : u.map k = l.map g := by
  induction h with
  | nil => rfl
  | cons hab _ ih => rw [List.map_cons, List.map_cons, hsame _ _ hab, ih]

/-- Lists related element by element to one list agree on what elements that are related to the same
one agree on. -/
theorem map_eq_of_forall₂_both {δ : Type} {S : α → γ → Prop} {v : List γ} {g : β → δ} {k : γ → δ}
    (h : List.Forall₂ R l u) (hother : List.Forall₂ S l v)
    (hsame : ∀ a b c, R a b → S a c → g b = k c) : u.map g = v.map k := by
  induction h generalizing v with
  | nil =>
      cases hother
      rfl
  | cons hab _ ih =>
      cases hother with
      | cons hac hrest => rw [List.map_cons, List.map_cons, hsame _ _ _ hab hac, ih hrest]

/-- Lists related element by element are tested alike. -/
theorem forall_iff_of_forall₂ {p : α → Prop} {q : β → Prop} (h : List.Forall₂ R l u)
    (hsame : ∀ a b, R a b → (q b ↔ p a)) : (∀ b ∈ u, q b) ↔ ∀ a ∈ l, p a := by
  induction h with
  | nil => simp
  | cons hab _ ih => rw [List.forall_mem_cons, List.forall_mem_cons, hsame _ _ hab, ih]

/-- Every member of the second of two lists has a partner. -/
theorem mem_zip_of_mem_right {as : List α} {bs : List β} (h : as.length = bs.length) {b : β}
    (hb : b ∈ bs) : ∃ a, (a, b) ∈ as.zip bs := by
  rw [← List.map_snd_zip (Nat.le_of_eq h.symm)] at hb
  obtain ⟨⟨a, other⟩, hpair, rfl⟩ := List.mem_map.1 hb
  exact ⟨a, hpair⟩

/-- The first parts of pairs, where each element has a partner. -/
theorem flatMap_zip_fst (f : α → List γ) {as : List α} {bs : List β}
    (h : as.length ≤ bs.length) : ((as.zip bs).flatMap fun pair => f pair.1) = as.flatMap f := by
  rw [← List.flatMap_map, List.map_fst_zip h]

/-- The second parts of pairs, where there is one for each element. -/
theorem flatMap_zip_snd (g : β → List γ) {as : List α} {bs : List β}
    (h : bs.length ≤ as.length) : ((as.zip bs).flatMap fun pair => g pair.2) = bs.flatMap g := by
  rw [← List.flatMap_map, List.map_snd_zip h]

/-- Lists of lists that have the same lengths are paired off list by list. -/
theorem flatMap_zip_flatMap {δ ε : Type} {f : α → List γ} {g : β → List δ}
    {F : α → List ε} {G : γ × δ → List ε} {l : List α} {u : List β}
    (h : List.Forall₂ (fun a b => (f a).length = (g b).length ∧
      F a = ((f a).zip (g b)).flatMap G) l u) :
    l.flatMap F = ((l.flatMap f).zip (u.flatMap g)).flatMap G := by
  induction h with
  | nil => rfl
  | cons hab _ ih =>
      rw [List.flatMap_cons, List.flatMap_cons, List.flatMap_cons, List.zip_append hab.1,
        List.flatMap_append, hab.2, ih]

end Pointwise

end PublicationAudit
