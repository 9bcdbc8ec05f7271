import PublicationAudit.OrderedMap
import PublicationAudit.Validation.Entry

/-!
# The tally of findings

Findings are collected by tier while a run goes on. The ceiling is the bound that the findings alone
imply: it starts at the highest tier and drops below every tier at which something was found.
-/

namespace PublicationAudit

/-- The findings of a run. -/
structure Tally where
  invalid : OrderedMap Tier (List PropertyVerdict)
  failed : OrderedMap Tier (List Violation)
  ceiling : Tier

namespace Tally

/-- The tally before any finding. -/
def empty : Tally := ⟨.empty, .empty, .highest⟩

instance : Inhabited Tally := ⟨empty⟩

/-- Counts a property that is not valid. -/
def recordInvalid (tally : Tally) (tier : Tier) (verdict : PropertyVerdict) : Tally :=
  { tally with
    invalid := tally.invalid.push tier verdict
    ceiling := tally.ceiling.lower tier.below }

/-- Counts the violations of a shape's constraints; nothing changes when there are none. -/
def recordFailed (tally : Tally) (tier : Tier) (violations : List Violation) : Tally :=
  if violations.isEmpty then tally
  else
    { tally with
      failed := tally.failed.upsert tier fun old => old.getD [] ++ violations
      ceiling := tally.ceiling.lower tier.below }

/-- The invalid properties of a tier in the order in which they were found. -/
def invalidAt (tally : Tally) (tier : Tier) : List PropertyVerdict :=
  (tally.invalid.find? tier).getD []

/-- The violations of a tier in the order in which they were found. -/
def failedAt (tally : Tally) (tier : Tier) : List Violation :=
  (tally.failed.find? tier).getD []

/-- A recorded property is added at the end of its tier. -/
theorem invalidAt_recordInvalid (tally : Tally) (tier other : Tier) (verdict : PropertyVerdict) :
    (tally.recordInvalid tier verdict).invalidAt other =
      if other = tier then tally.invalidAt tier ++ [verdict] else tally.invalidAt other := by
  simp only [recordInvalid, invalidAt, OrderedMap.push, OrderedMap.find?_upsert]
  split <;> simp

/-- Recorded violations are added at the end of their tier. -/
theorem failedAt_recordFailed (tally : Tally) (tier other : Tier) (violations : List Violation) :
    (tally.recordFailed tier violations).failedAt other =
      if other = tier then tally.failedAt tier ++ violations else tally.failedAt other := by
  cases violations with
  | nil =>
    by_cases h : other = tier <;> simp [recordFailed, h]
  | cons v vs =>
    simp only [recordFailed, failedAt, List.isEmpty_cons, Bool.false_eq_true, if_false,
      OrderedMap.find?_upsert]
    split <;> simp

end Tally

end PublicationAudit
