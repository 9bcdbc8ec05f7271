import PublicationAudit.Proofs.Validation.Knowledge

/-!
# Verdicts are added, never changed

Whatever a walk does, it leaves the subjects in progress as they were and adds verdicts after those
that were known, for subjects that are not in progress. `RunState.Advances` is the relation, closed
under one walk after another; `Advances.leave` is the step that adds a verdict.
-/

namespace PublicationAudit

namespace RunState

/-- A walk that begins and ends with the same subjects in progress, adds verdicts after those that
were known, and reaches none for a subject in progress. -/
structure Advances (before after : RunState) : Prop where
  inProgress : after.inProgress = before.inProgress
  separate : ∀ uri ∈ before.inProgress, before.verdict? uri = none → after.verdict? uri = none
  grown : ∃ reached, after.verdicts.entries = before.verdicts.entries ++ reached

variable {before mid after : RunState} {uri : String} {verdict : Verdict}

namespace Advances

/-- A walk that reaches no verdict. -/
theorem of_alike (h : before.Alike after) : Advances before after where
  inProgress := h.inProgress
  separate uri _ hnone := by
    rw [verdict?, h.verdicts]
    exact hnone
  grown := ⟨[], by rw [h.verdicts, List.append_nil]⟩

/-- A walk that changes nothing. -/
theorem refl (state : RunState) : Advances state state := .of_alike (.refl state)

/-- One walk after another. -/
theorem trans (h : Advances before mid) (hmore : Advances mid after) : Advances before after where
  inProgress := hmore.inProgress.trans h.inProgress
  separate uri huri hnone :=
    hmore.separate uri (h.inProgress ▸ huri) (h.separate uri huri hnone)
  grown := by
    obtain ⟨first, hfirst⟩ := h.grown
    obtain ⟨second, hsecond⟩ := hmore.grown
    exact ⟨first ++ second, by rw [hsecond, hfirst, List.append_assoc]⟩

/-- Asking queries reaches no verdict. -/
theorem ask (state : RunState) (queries : List String) : Advances state (state.ask queries) :=
  .of_alike (.ask state queries)

/-- Nor does announcing a root. -/
theorem announce (state : RunState) (progress : Progress) :
    Advances state (state.announce progress) := .of_alike (.announce state progress)

/-- Nor does counting an invalid property. -/
theorem recordVerdict (state : RunState) (verdict : PropertyVerdict) :
    Advances state (state.recordVerdict verdict) := .of_alike (.recordVerdict state verdict)

/-- Nor does counting the violations of a shape. -/
theorem recordViolations (state : RunState) (tier : Option Tier) (violations : List Violation) :
    Advances state (state.recordViolations tier violations) :=
  .of_alike (.recordViolations state tier violations)

/-- A known verdict stays. -/
theorem verdict?_eq (h : Advances before after) (hknown : before.verdict? uri = some verdict) :
    after.verdict? uri = some verdict := by
  obtain ⟨reached, hreached⟩ := h.grown
  rw [verdict?, OrderedMap.find?] at hknown ⊢
  rw [hreached, List.lookup_append, hknown, Option.some_or]

/-- The verdict with which a validation ends comes last, since it is the first for its subject. -/
theorem entries_leave (h : Advances (before.enter uri) after) (hnew : before.verdict? uri = none)
    (verdict : Verdict) :
    (after.leave uri verdict).verdicts.entries = after.verdicts.entries ++ [(uri, verdict)] :=
  OrderedMap.entries_insert_of_new (h.separate uri List.mem_cons_self hnew) verdict

/-- A whole validation, from before its beginning to after its end. -/
theorem leave (h : Advances (before.enter uri) after) (hnew : before.verdict? uri = none)
    (hout : uri ∉ before.inProgress) : Advances before (after.leave uri verdict) where
  inProgress := by
    show after.inProgress.erase uri = before.inProgress
    rw [h.inProgress]
    exact List.erase_cons_head ..
  separate other hother hnone := by
    have hne : other ≠ uri := fun he => hout (he ▸ hother)
    rw [verdict?_leave, if_neg hne]
    exact h.separate other (List.mem_cons_of_mem uri hother) hnone
  grown := by
    obtain ⟨reached, hreached⟩ := h.grown
    rw [h.entries_leave hnew, hreached, List.append_assoc]
    exact ⟨_, rfl⟩

end Advances

end RunState

end PublicationAudit
