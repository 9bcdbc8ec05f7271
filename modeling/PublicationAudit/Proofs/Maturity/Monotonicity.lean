import PublicationAudit.Proofs.FactHistory
import PublicationAudit.Proofs.Maturity.Ceiling

/-!
# The score is monotone

A score rises with the facts and with the properties that need not be used, and it falls with the
shapes and with the findings. All of this is one comparison, `achieved_le_of_milder`: where no more
shapes are asked for, no fact is missing, no further property is expected and nothing further was
found, every clean tier stays clean. The main statement is `achieved_monotone`.
-/

namespace PublicationAudit

section Milder

variable {shapes fewer : ShapeSet} {facts more : FactSet} {sparse wider : List String}
  {tally cleaner : Tally} {tier : Tier}

/-- Fewer shapes require no class that more facts leave undeclared. -/
theorem missingClasses_of_milder (hshapes : fewer.shapes ⊆ shapes.shapes)
    (hfacts : facts.toList ⊆ more.toList)
    (hnone : (MaturityReport.missingClasses shapes facts tier).isEmpty = true) :
    (MaturityReport.missingClasses fewer more tier).isEmpty = true := by
  refine missingClasses_isEmpty_iff.2 fun shape hshape htier => ?_
  obtain ⟨subject, hdeclared⟩ := missingClasses_isEmpty_iff.1 hnone shape (hshapes hshape) htier
  exact ⟨subject, hfacts hdeclared⟩

/-- Fewer shapes, with more properties set aside, expect none that more facts leave unused. -/
theorem missingOptional_of_milder (hshapes : fewer.shapes ⊆ shapes.shapes)
    (hfacts : facts.toList ⊆ more.toList) (hsparse : sparse ⊆ wider)
    (hnone : (MaturityReport.missingOptional shapes facts sparse tier).isEmpty = true) :
    (MaturityReport.missingOptional fewer more wider tier).isEmpty = true := by
  refine missingOptional_isEmpty_iff.2
    fun shape hshape property hproperty htier hoptional hexpected => ?_
  obtain ⟨subject, object, hdeclared, hused⟩ := missingOptional_isEmpty_iff.1 hnone shape
    (hshapes hshape) property hproperty htier hoptional fun hset => hexpected (hsparse hset)
  exact ⟨subject, object, hfacts hdeclared, hfacts hused⟩

/-- A clean tier stays clean. -/
theorem isAchieved_of_milder (hshapes : fewer.shapes ⊆ shapes.shapes)
    (hfacts : facts.toList ⊆ more.toList) (hsparse : sparse ⊆ wider)
    (hclean : tally.IsCleanAt tier → cleaner.IsCleanAt tier)
    (h : (MaturityReport.tierReport shapes facts sparse tally tier).isAchieved = true) :
    (MaturityReport.tierReport fewer more wider cleaner tier).isAchieved = true := by
  obtain ⟨hclasses, hoptional, hfound⟩ := isAchieved_tierReport_iff.1 h
  exact isAchieved_tierReport_iff.2 ⟨missingClasses_of_milder hshapes hfacts hclasses,
    missingOptional_of_milder hshapes hfacts hsparse hoptional, hclean hfound⟩

/-- So no lower tier is achieved. -/
theorem achieved_le_of_milder (hshapes : fewer.shapes ⊆ shapes.shapes)
    (hfacts : facts.toList ⊆ more.toList) (hsparse : sparse ⊆ wider)
    (hclean : ∀ tier, tally.IsCleanAt tier → cleaner.IsCleanAt tier) :
    (MaturityReport.score shapes facts sparse tally).achieved ≤
      (MaturityReport.score fewer more wider cleaner).achieved := by
  obtain ⟨hachieved, -⟩ :=
    @achievedTier_isGreatest (MaturityReport.tierReport shapes facts sparse tally) fun _ => rfl
  obtain ⟨-, hgreatest⟩ :=
    @achievedTier_isGreatest (MaturityReport.tierReport fewer more wider cleaner) fun _ => rfl
  exact hgreatest fun scored hscored hle =>
    isAchieved_of_milder hshapes hfacts hsparse (hclean scored) (hachieved scored hscored hle)

end Milder

/-- Merging facts never lowers the achieved tier, recording findings never raises it, appending
shapes never raises it, and setting properties aside never lowers it. -/
theorem achieved_monotone (shapes : ShapeSet) (facts : FactSet) (sparse : List String)
    (tally : Tally) :
    (∀ more, (MaturityReport.score shapes facts sparse tally).achieved ≤
      (MaturityReport.score shapes (facts.extend more).2 sparse tally).achieved) ∧
    (∀ recordings,
      (MaturityReport.score shapes facts sparse (tally.recordAll recordings)).achieved ≤
        (MaturityReport.score shapes facts sparse tally).achieved) ∧
    (∀ more, (MaturityReport.score ⟨shapes.shapes ++ more⟩ facts sparse tally).achieved ≤
      (MaturityReport.score shapes facts sparse tally).achieved) ∧
    ∀ paths, (MaturityReport.score shapes facts sparse tally).achieved ≤
      (MaturityReport.score shapes facts (sparse ++ paths) tally).achieved := by
  have hshapes : shapes.shapes ⊆ shapes.shapes := List.Subset.refl _
  have hfacts : facts.toList ⊆ facts.toList := List.Subset.refl _
  have hsparse : sparse ⊆ sparse := List.Subset.refl _
  have hclean : ∀ tier, tally.IsCleanAt tier → tally.IsCleanAt tier := fun _ h => h
  refine ⟨fun more => ?_, fun recordings => ?_, fun more => ?_, fun paths => ?_⟩
  · have hmore : facts.toList ⊆ (facts.extend more).2.toList := by
      rw [FactSet.toList_extend_eq]
      exact List.subset_append_left _ _
    exact achieved_le_of_milder hshapes hmore hsparse hclean
  · have hbefore : ∀ tier, (tally.recordAll recordings).IsCleanAt tier → tally.IsCleanAt tier :=
      fun _ hafter => ((Tally.isCleanAt_recordAll recordings).1 hafter).1
    exact achieved_le_of_milder hshapes hfacts hsparse hbefore
  · exact achieved_le_of_milder (List.subset_append_left _ _) hfacts hsparse hclean
  · exact achieved_le_of_milder hshapes hfacts (List.subset_append_left _ _) hclean

end PublicationAudit
