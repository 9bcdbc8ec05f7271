import PublicationAudit.Proofs.Lists

/-!
# First mentions

A crawl works off lists in which the same thing is mentioned again and again, and takes each thing
once, when it is first mentioned. `FirstMentions` says so of two lists without saying how the second
is made, and determines it; `firstMentions_eraseDups` is the way in which it is made here.
-/

namespace PublicationAudit

variable {α : Type} [DecidableEq α]

/-- A list of the members of another that pass a test: each of them once, and one before another
when it is mentioned first. -/
structure FirstMentions (p : α → Prop) (mentions listed : List α) : Prop where
  mem_iff : ∀ a, a ∈ listed ↔ a ∈ mentions ∧ p a
  ordered : listed.Pairwise fun a b => mentions.idxOf a < mentions.idxOf b

variable {p q : α → Prop} {mentions listed other : List α}

namespace FirstMentions

/-- Nothing is listed twice. -/
theorem nodup (h : FirstMentions p mentions listed) : listed.Nodup := by
  refine h.ordered.imp ?_
  rintro a _ hlt rfl
  exact Nat.lt_irrefl _ hlt

/-- There is only one such list. -/
theorem unique (h : FirstMentions p mentions listed) (hother : FirstMentions p mentions other) :
    listed = other := by
  have hperm : listed.Perm other :=
    (List.perm_ext_iff_of_nodup h.nodup hother.nodup).2 fun a => by
      rw [h.mem_iff, hother.mem_iff]
  refine hperm.eq_of_pairwise (fun a b _ _ hab hba => ?_) h.ordered hother.ordered
  exact absurd hba (Nat.lt_asymm hab)

/-- A test is replaced by one that comes to the same for what is mentioned. -/
theorem congr (h : FirstMentions p mentions listed) (hsame : ∀ a ∈ mentions, p a ↔ q a) :
    FirstMentions q mentions listed where
  mem_iff a := by
    rw [h.mem_iff]
    exact and_congr_right fun ha => hsame a ha
  ordered := h.ordered

/-- Nothing is listed exactly when nothing mentioned passes the test. -/
theorem eq_nil_iff (h : FirstMentions p mentions listed) :
    listed = [] ↔ ∀ a ∈ mentions, ¬ p a := by
  rw [List.eq_nil_iff_forall_not_mem]
  exact forall_congr' fun a => by rw [h.mem_iff, not_and]

end FirstMentions

/-- Distinct members stand in the order of their first mention. -/
theorem eraseDups_ordered (mentions : List α) :
    mentions.eraseDups.Pairwise fun a b => mentions.idxOf a < mentions.idxOf b := by
  induction mentions using List.reverseRecOn with
  | nil => exact .nil
  | append_singleton mentions a ih =>
      -- A further mention moves no earlier one, and a new member comes after all of them.
      have hknown : ∀ b ∈ mentions, (mentions ++ [a]).idxOf b = mentions.idxOf b :=
        fun b hb => List.idxOf_append_of_mem hb
      have hearlier : mentions.eraseDups.Pairwise fun b c =>
          (mentions ++ [a]).idxOf b < (mentions ++ [a]).idxOf c :=
        ih.imp_of_mem fun {b c} hb hc hlt => by
          rw [hknown b (List.mem_eraseDups.1 hb), hknown c (List.mem_eraseDups.1 hc)]
          exact hlt
      rw [List.eraseDups_append]
      by_cases ha : a ∈ mentions
      · simpa [List.removeAll, ha] using hearlier
      · have hnew : ([a].removeAll mentions).eraseDups = [a] := by
          simp [List.removeAll, ha, List.eraseDups_cons]
        rw [hnew, List.pairwise_append]
        refine ⟨hearlier, List.pairwise_singleton _ a, fun b hb c hc => ?_⟩
        have hb := List.mem_eraseDups.1 hb
        rw [List.mem_singleton.1 hc, hknown b hb, List.idxOf_append_of_notMem ha]
        exact Nat.lt_add_right _ (List.idxOf_lt_length_iff.2 hb)

/-- Members selected from a list, without their repetitions, are listed as they are first
mentioned. -/
theorem firstMentions_eraseDups (select : α → Bool) (mentions : List α) :
    FirstMentions (fun a => select a = true) mentions (mentions.filter select).eraseDups where
  mem_iff a := by rw [List.mem_eraseDups, List.mem_filter]
  ordered := by
    rw [← filter_eraseDups]
    exact (eraseDups_ordered mentions).filter select

/-- Where nothing is left out, the members without their repetitions are listed so. -/
theorem firstMentions_all (mentions : List α) :
    FirstMentions (fun _ => True) mentions mentions.eraseDups where
  mem_iff a := by rw [List.mem_eraseDups, and_true]
  ordered := eraseDups_ordered mentions

end PublicationAudit
