import Mathlib.Order.Bounds.Defs
import PublicationAudit.Maturity.Tally

/-!
# Sequences of recordings

A tally is filled by recordings, one after the other. What it holds after a sequence of them is read
off the recordings: `invalidAt_recordAll` and `failedAt_recordAll` say what was found at a tier, and
`le_ceiling_recordAll` which tiers the ceiling admits. The main statement, `recordAll_collects`, is
that the ceiling follows from the findings alone and that their order matters only within a tier.
-/

namespace PublicationAudit

/-- What is recorded in a tally at once. -/
inductive Recording where
  /-- A property that is not valid. -/
  | property (tier : Tier) (verdict : PropertyVerdict)
  /-- The violations of the constraints of a shape, which may be none. -/
  | violations (tier : Tier) (found : List Violation)

namespace Recording

/-- The tier of a recording. -/
def tier : Recording → Tier
  | property tier _ => tier
  | violations tier _ => tier

/-- Whether anything was found. -/
def finds : Recording → Bool
  | property _ _ => true
  | violations _ found => !found.isEmpty

/-- The invalid properties of a tier in a recording. -/
def invalidAt (wanted : Tier) : Recording → List PropertyVerdict
  | property tier verdict => if tier = wanted then [verdict] else []
  | violations _ _ => []

/-- The violations of a tier in a recording. -/
def failedAt (wanted : Tier) : Recording → List Violation
  | property _ _ => []
  | violations tier found => if tier = wanted then found else []

/-- A recording has nothing for a tier unless it found something there. -/
theorem invalidAt_failedAt_eq_nil_iff (recording : Recording) (wanted : Tier) :
    recording.invalidAt wanted = [] ∧ recording.failedAt wanted = [] ↔
      (recording.finds = true → recording.tier ≠ wanted) := by
  cases recording with
  | property tier verdict => simp [invalidAt, failedAt, finds, Recording.tier]
  | violations tier found => cases found <;> simp [invalidAt, failedAt, finds, Recording.tier]

end Recording

namespace Tier

variable {s t bound : Tier}

/-- A tier is below the lower of two exactly when it is below both. -/
theorem le_lower_iff : bound ≤ s.lower t ↔ bound ≤ s ∧ bound ≤ t := by
  show bound.rank ≤ (if s.rank ≤ t.rank then s else t).rank ↔
    bound.rank ≤ s.rank ∧ bound.rank ≤ t.rank
  split <;> omega

/-- No tier is above the highest. -/
theorem le_highest (t : Tier) : t ≤ highest := by cases t <;> decide

/-- Tier zero is below every tier. -/
theorem niveau0_le (t : Tier) : niveau0 ≤ t := Nat.zero_le _

/-- Nothing but tier zero is below it. -/
theorem le_niveau0_iff : t ≤ niveau0 ↔ t = niveau0 := by cases t <;> decide

/-- What does not reach a tier stays below it. -/
theorem le_below_of_not_le (h : ¬ s ≤ t) : t ≤ s.below := by
  revert h
  cases s <;> cases t <;> decide

/-- A tier is known from the tiers that it admits. -/
theorem eq_of_forall_le_iff (h : ∀ bound : Tier, bound ≤ s ↔ bound ≤ t) : s = t := by
  have hst : s ≤ t := (h s).1 (Nat.le_refl _)
  have hts : t ≤ s := (h t).2 (Nat.le_refl _)
  revert hst hts
  cases s <;> cases t <;> decide

end Tier

namespace Tally

/-- A tally after one more recording. -/
def record (tally : Tally) : Recording → Tally
  | .property tier verdict => tally.recordInvalid tier verdict
  | .violations tier found => tally.recordFailed tier found

/-- A tally after a sequence of recordings. -/
def recordAll (tally : Tally) (recordings : List Recording) : Tally :=
  recordings.foldl record tally

/-- A tally that holds nothing at a tier. -/
def IsCleanAt (tally : Tally) (tier : Tier) : Prop :=
  tally.invalidAt tier = [] ∧ tally.failedAt tier = []

variable {tally : Tally} {tier bound : Tier}

/-- A recording that found something lowers the ceiling below its tier. -/
theorem ceiling_record (tally : Tally) (recording : Recording) :
    (tally.record recording).ceiling =
      if recording.finds then tally.ceiling.lower recording.tier.below else tally.ceiling := by
  cases recording with
  | property tier verdict => rfl
  | violations tier found =>
      cases found with
      | nil => rfl
      | cons violation found => rfl

/-- The invalid properties of a recording are added at the end of their tier. -/
theorem invalidAt_record (tally : Tally) (recording : Recording) (tier : Tier) :
    (tally.record recording).invalidAt tier =
      tally.invalidAt tier ++ recording.invalidAt tier := by
  cases recording with
  | property other verdict =>
      rw [record, invalidAt_recordInvalid, Recording.invalidAt]
      by_cases htier : tier = other
      · simp [htier]
      · simp [htier, show ¬ other = tier from fun he => htier he.symm]
  | violations other found =>
      rw [record, recordFailed, Recording.invalidAt, List.append_nil]
      split <;> rfl

/-- So are its violations. -/
theorem failedAt_record (tally : Tally) (recording : Recording) (tier : Tier) :
    (tally.record recording).failedAt tier = tally.failedAt tier ++ recording.failedAt tier := by
  cases recording with
  | property other verdict => exact (List.append_nil _).symm
  | violations other found =>
      rw [record, failedAt_recordFailed, Recording.failedAt]
      by_cases htier : tier = other
      · simp [htier]
      · simp [htier, show ¬ other = tier from fun he => htier he.symm]

/-- After a sequence of recordings, the invalid properties of a tier are those of the recordings, in
their order. -/
theorem invalidAt_recordAll (recordings : List Recording) :
    (tally.recordAll recordings).invalidAt tier =
      tally.invalidAt tier ++ recordings.flatMap (Recording.invalidAt tier) := by
  induction recordings generalizing tally with
  | nil => exact (List.append_nil _).symm
  | cons recording recordings ih =>
      rw [recordAll, List.foldl_cons, ← recordAll, ih, invalidAt_record, List.flatMap_cons,
        List.append_assoc]

/-- So are the violations of a tier. -/
theorem failedAt_recordAll (recordings : List Recording) :
    (tally.recordAll recordings).failedAt tier =
      tally.failedAt tier ++ recordings.flatMap (Recording.failedAt tier) := by
  induction recordings generalizing tally with
  | nil => exact (List.append_nil _).symm
  | cons recording recordings ih =>
      rw [recordAll, List.foldl_cons, ← recordAll, ih, failedAt_record, List.flatMap_cons,
        List.append_assoc]

/-- Below the ceiling are the tiers that were below it before and are below every tier at which
something was found. -/
theorem le_ceiling_recordAll (recordings : List Recording) :
    bound ≤ (tally.recordAll recordings).ceiling ↔ bound ≤ tally.ceiling ∧
      ∀ recording ∈ recordings, recording.finds = true → bound ≤ recording.tier.below := by
  induction recordings generalizing tally with
  | nil => simp [recordAll]
  | cons recording recordings ih =>
      rw [recordAll, List.foldl_cons, ← recordAll, ih, ceiling_record, List.forall_mem_cons]
      cases recording.finds with
      | false => simp
      | true => simp [Tier.le_lower_iff, and_assoc]

/-- Clean are the tiers that were clean before and at which nothing was found. -/
theorem isCleanAt_recordAll (recordings : List Recording) :
    (tally.recordAll recordings).IsCleanAt tier ↔ tally.IsCleanAt tier ∧
      ∀ recording ∈ recordings, recording.finds = true → recording.tier ≠ tier := by
  simp only [IsCleanAt, invalidAt_recordAll, failedAt_recordAll, List.append_eq_nil_iff,
    List.flatMap_eq_nil_iff, ← Recording.invalidAt_failedAt_eq_nil_iff, forall_and]
  exact and_and_and_comm

/-- The ceiling is where it was, or directly below a tier at which something was found. -/
theorem ceiling_recordAll_eq (recordings : List Recording) :
    (tally.recordAll recordings).ceiling = tally.ceiling ∨
      ∃ recording ∈ recordings, recording.finds = true ∧
        (tally.recordAll recordings).ceiling = recording.tier.below := by
  induction recordings generalizing tally with
  | nil => exact .inl rfl
  | cons recording recordings ih =>
      rw [recordAll, List.foldl_cons, ← recordAll]
      rcases @ih (tally.record recording) with hkept | ⟨later, hlater, hfinds, hceiling⟩
      · rw [hkept, ceiling_record]
        cases hfinds : recording.finds with
        | false => exact .inl rfl
        | true =>
            simp only [if_true]
            unfold Tier.lower
            split
            · exact .inl rfl
            · exact .inr ⟨recording, List.mem_cons_self, hfinds, rfl⟩
      · exact .inr ⟨later, List.mem_cons_of_mem recording hlater, hfinds, hceiling⟩

/-- A tally that started empty has something at the tiers at which something was found. -/
theorem not_isCleanAt_recordAll_iff {recordings : List Recording} :
    ¬ (empty.recordAll recordings).IsCleanAt tier ↔
      ∃ recording ∈ recordings, recording.finds = true ∧ recording.tier = tier := by
  have hstart : empty.IsCleanAt tier := ⟨rfl, rfl⟩
  rw [isCleanAt_recordAll, and_iff_right hstart]
  simp

/-- The ceiling of a tally that started empty is the lowest of the highest tier and the tiers
directly below those at which it has something. -/
theorem ceiling_recordAll_isLeast (recordings : List Recording) :
    IsLeast {bound | bound = .highest ∨
        ∃ tier, ¬ (empty.recordAll recordings).IsCleanAt tier ∧ bound = tier.below}
      (empty.recordAll recordings).ceiling := by
  simp only [not_isCleanAt_recordAll_iff]
  refine ⟨?_, ?_⟩
  · rcases empty.ceiling_recordAll_eq recordings with hstart | ⟨recording, hmem, hfinds, hceiling⟩
    · exact .inl hstart
    · exact .inr ⟨_, ⟨recording, hmem, hfinds, rfl⟩, hceiling⟩
  · obtain ⟨hhighest, hbelow⟩ := (le_ceiling_recordAll recordings).1
      (Nat.le_refl (empty.recordAll recordings).ceiling.rank)
    rintro _ (rfl | ⟨_, ⟨recording, hmem, hfinds, rfl⟩, rfl⟩)
    · exact hhighest
    · exact hbelow recording hmem hfinds

/-- A tally that is filled from the start by any recordings. Its ceiling is the lowest of the
highest tier and the tiers directly below those at which it has something, so that it never rises.
At each tier it has just what was found there, in the order of the recordings, and a recording that
found nothing leaves no trace. In another order the same recordings lead to the same ceiling and, at
each tier, to the same findings in some order. -/
theorem recordAll_collects (recordings : List Recording) :
    let tally := empty.recordAll recordings
    IsLeast {bound | bound = .highest ∨ ∃ tier, ¬ tally.IsCleanAt tier ∧ bound = tier.below}
      tally.ceiling ∧
    (∀ more, (tally.recordAll more).ceiling ≤ tally.ceiling) ∧
    (∀ tier, tally.invalidAt tier = recordings.flatMap (Recording.invalidAt tier) ∧
      tally.failedAt tier = recordings.flatMap (Recording.failedAt tier)) ∧
    (∀ tier, tally.recordFailed tier [] = tally) ∧
    ∀ reordered, recordings.Perm reordered →
      (empty.recordAll reordered).ceiling = tally.ceiling ∧
        ∀ tier, ((empty.recordAll reordered).invalidAt tier).Perm (tally.invalidAt tier) ∧
          ((empty.recordAll reordered).failedAt tier).Perm (tally.failedAt tier) := by
  intro tally
  have hinvalid : ∀ (recordings : List Recording) tier,
      (empty.recordAll recordings).invalidAt tier =
        recordings.flatMap (Recording.invalidAt tier) := fun _ _ => invalidAt_recordAll _
  have hfailed : ∀ (recordings : List Recording) tier,
      (empty.recordAll recordings).failedAt tier =
        recordings.flatMap (Recording.failedAt tier) := fun _ _ => failedAt_recordAll _
  refine ⟨ceiling_recordAll_isLeast recordings, fun more => ?_,
    fun tier => ⟨hinvalid recordings tier, hfailed recordings tier⟩, fun _ => rfl,
    fun reordered hperm => ⟨?_, fun tier => ?_⟩⟩
  · exact ((le_ceiling_recordAll more).1 (Nat.le_refl _)).1
  · refine Tier.eq_of_forall_le_iff fun bound => ?_
    rw [le_ceiling_recordAll, le_ceiling_recordAll]
    simp only [hperm.mem_iff]
  · rw [hinvalid, hinvalid, hfailed, hfailed]
    exact ⟨(hperm.symm).flatMap_right _, (hperm.symm).flatMap_right _⟩

end Tally

end PublicationAudit
