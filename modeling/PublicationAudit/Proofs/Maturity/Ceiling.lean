import PublicationAudit.Proofs.Maturity.AchievedTier
import PublicationAudit.Proofs.Maturity.Recordings
import PublicationAudit.Proofs.Validation.WalkInduction

/-!
# The score and the ceiling

The ceiling of a tally is a running minimum, the score is read off the reports on the scored tiers.
The main statement is `achieved_le_ceiling_iff`: the score stays at or below the ceiling as long as
nothing is found at tier zero, which has no report. A finding at tier zero takes the ceiling down to
tier zero and leaves the score where it is (`achieved_above_ceiling_of_tier_zero`).
-/

namespace PublicationAudit

/-- A tier that some shape or some property of a shape belongs to. -/
def ShapeSet.Carries (shapes : ShapeSet) (tier : Tier) : Prop :=
  ∃ shape ∈ shapes.shapes, shape.tier = some tier ∨
    ∃ property ∈ shape.properties, property.tier = some tier

/-- Which tiers a shape set carries is decided by going through its shapes. -/
instance (shapes : ShapeSet) (tier : Tier) : Decidable (shapes.Carries tier) :=
  inferInstanceAs (Decidable (∃ shape ∈ shapes.shapes, _))

section Score

variable {shapes : ShapeSet} {facts : FactSet} {sparse : List String} {tally : Tally}
  {tier : Tier}

/-- A tier is clean when nothing is missing at it and nothing was found. -/
theorem isAchieved_tierReport_iff :
    (MaturityReport.tierReport shapes facts sparse tally tier).isAchieved = true ↔
      (MaturityReport.missingClasses shapes facts tier).isEmpty = true ∧
        (MaturityReport.missingOptional shapes facts sparse tier).isEmpty = true ∧
          tally.IsCleanAt tier := by
  simp only [TierReport.isAchieved, MaturityReport.tierReport, Tally.IsCleanAt, Bool.and_eq_true,
    and_assoc, List.isEmpty_iff]

/-- Up to the achieved tier nothing was found at a scored tier. -/
theorem isCleanAt_of_le_achieved (hscored : tier ∈ Tier.scored)
    (h : tier ≤ (MaturityReport.score shapes facts sparse tally).achieved) :
    tally.IsCleanAt tier := by
  obtain ⟨hbelow, -⟩ :=
    @achievedTier_isGreatest (MaturityReport.tierReport shapes facts sparse tally) fun _ => rfl
  exact (isAchieved_tierReport_iff.1 (hbelow tier hscored h)).2.2

/-- Every tier but tier zero is scored. -/
theorem mem_scored_of_ne_niveau0 (h : tier ≠ .niveau0) : tier ∈ Tier.scored := by
  revert h
  cases tier <;> decide

/-- After any recordings the score is at or below the ceiling, unless something was found at tier
zero and the score is above it. -/
theorem achieved_le_ceiling_recordAll (recordings : List Recording) :
    (MaturityReport.score shapes facts sparse (Tally.empty.recordAll recordings)).achieved ≤
        (Tally.empty.recordAll recordings).ceiling ↔
      (MaturityReport.score shapes facts sparse (Tally.empty.recordAll recordings)).achieved =
          .niveau0 ∨
        ∀ recording ∈ recordings, recording.finds = true → recording.tier ≠ .niveau0 := by
  rw [Tally.le_ceiling_recordAll]
  constructor
  · rintro ⟨-, hbelow⟩
    rw [or_iff_not_imp_right]
    intro hzero
    push Not at hzero
    obtain ⟨recording, hmem, hfinds, htier⟩ := hzero
    have hle := hbelow recording hmem hfinds
    rw [htier] at hle
    exact Tier.le_niveau0_iff.1 hle
  · intro h
    refine ⟨Tier.le_highest _, fun recording hmem hfinds => ?_⟩
    rcases h with hzero | hnone
    · rw [hzero]
      exact Tier.niveau0_le _
    · -- A tier at which something was found has a report that is not clean.
      refine Tier.le_below_of_not_le fun hreached => ?_
      have hclean := isCleanAt_of_le_achieved
        (mem_scored_of_ne_niveau0 (hnone recording hmem hfinds)) hreached
      exact ((Tally.isCleanAt_recordAll recordings).1 hclean).2 recording hmem hfinds rfl

end Score

/-! ## Recordings of a run -/

/-- A tally that was filled from another by recordings at tiers that the shapes carry. -/
def Tally.FilledFrom (tally : Tally) (shapes : ShapeSet) (start : Tally) : Prop :=
  ∃ recordings, tally = start.recordAll recordings ∧
    ∀ recording ∈ recordings, shapes.Carries recording.tier

/-- One more recording at a tier that the shapes carry. -/
theorem Tally.FilledFrom.record {shapes : ShapeSet} {start tally : Tally}
    (h : tally.FilledFrom shapes start) (recording : Recording)
    (hcarries : shapes.Carries recording.tier) :
    (tally.record recording).FilledFrom shapes start := by
  obtain ⟨recordings, rfl, hall⟩ := h
  refine ⟨recordings ++ [recording], ?_, fun other hother => ?_⟩
  · rw [recordAll, recordAll, List.foldl_append, List.foldl_cons, List.foldl_nil]
  · rcases List.mem_append.1 hother with hold | hnew
    · exact hall other hold
    · rw [List.mem_singleton.1 hnew]
      exact hcarries

/-- A walk fills the tally by recordings at tiers that the shapes carry. -/
theorem walkKeeps_filledFrom (validator : Validator) (start : Tally) :
    WalkKeeps validator fun state => state.tally.FilledFrom validator.shapes start where
  ask _ _ h := h
  enter _ _ h := h
  leave _ _ _ h := h
  recordVerdict state shape hshape property hproperty verdict htier h := by
    unfold RunState.recordVerdict
    split
    · rename_i tier _ hverdict
      exact h.record (.property tier verdict)
        ⟨shape, hshape, .inr ⟨property, hproperty, htier.symm.trans hverdict⟩⟩
    · exact h
  recordViolations state shape hshape violations h := by
    unfold RunState.recordViolations
    split
    · rename_i tier htier
      exact h.record (.violations tier violations) ⟨shape, hshape, .inl htier⟩
    · exact h

/-- After any run, stopped or not, the tally holds recordings at tiers that the shapes carry. -/
theorem validateAll_filledFrom (validator : Validator) (observer : Observer)
    (roots : List SubjectTree) (state : RunState) :
    (validator.validateAll observer roots state).2.tally.FilledFrom validator.shapes state.tally :=
  (walkKeeps_filledFrom validator state.tally).validateAll (fun _ _ h => h) observer roots
    ⟨[], rfl, fun _ h => by simp at h⟩

/-- Whatever is recorded, the score is at or below the ceiling exactly when it is tier zero or
nothing was found at tier zero. The tally of a run over any forest is such a tally, so for shapes
that do not carry tier zero the score never exceeds the ceiling. -/
theorem achieved_le_ceiling_iff (shapes : ShapeSet) (facts : FactSet) (sparse : List String) :
    (∀ recordings : List Recording,
      (MaturityReport.score shapes facts sparse (Tally.empty.recordAll recordings)).achieved ≤
          (Tally.empty.recordAll recordings).ceiling ↔
        (MaturityReport.score shapes facts sparse (Tally.empty.recordAll recordings)).achieved =
            .niveau0 ∨
          ∀ recording ∈ recordings, recording.finds = true → recording.tier ≠ .niveau0) ∧
    ∀ (engine : QueryEngine) (observer : Observer) (roots : List SubjectTree),
      let final := ((⟨shapes, engine⟩ : Validator).validateAll observer roots .fresh).2
      (∃ recordings, final.tally = Tally.empty.recordAll recordings ∧
        ∀ recording ∈ recordings, shapes.Carries recording.tier) ∧
      (¬ shapes.Carries .niveau0 →
        (MaturityReport.score shapes facts sparse final.tally).achieved ≤ final.tally.ceiling) := by
  refine ⟨achieved_le_ceiling_recordAll, ?_⟩
  intro engine observer roots final
  obtain ⟨recordings, hfinal, hcarries⟩ :=
    validateAll_filledFrom ⟨shapes, engine⟩ observer roots .fresh
  refine ⟨⟨recordings, hfinal, hcarries⟩, fun hnone => ?_⟩
  rw [show final.tally = Tally.empty.recordAll recordings from hfinal,
    achieved_le_ceiling_recordAll]
  exact .inr fun recording hmem _ htier => hnone (htier ▸ hcarries recording hmem)

/-- A person without a name. -/
def nameless : List Fact := [⟨.iri "urn:a", Vocabulary.rdfType, .iri "urn:Person"⟩]

/-- A person should have a name, at tier zero. -/
def nameShape : List Fact :=
  [⟨.iri "urn:PersonShape", Vocabulary.targetClass, .iri "urn:Person"⟩,
    ⟨.iri "urn:PersonShape", Vocabulary.property, .iri "urn:NameShape"⟩,
    ⟨.iri "urn:NameShape", Vocabulary.path, .iri "urn:name"⟩,
    ⟨.iri "urn:NameShape", Vocabulary.minCount, .plain "1"⟩,
    ⟨.iri "urn:NameShape", Vocabulary.maturityLevel, .plain "Niveau 0"⟩]

/-- A missing name at tier zero takes the ceiling down to tier zero, and the publication keeps the
highest maturity. -/
theorem achieved_above_ceiling_of_tier_zero :
    ∃ shapes, ShapeSet.ofFacts (.ofList nameShape) = .ok shapes ∧
      ∃ publication final, validatePublication (fun _ => .ok []) shapes [] Observer.silent
          (.ofList nameless) .fresh = (.ok publication, final) ∧
        publication.report.achieved = .niveau3 ∧ final.tally.ceiling = .niveau0 ∧
        ¬ publication.report.achieved ≤ final.tally.ceiling :=
  ⟨_, rfl, _, _, rfl, by decide, by decide, by decide⟩

/-- Two recordings, of which the one at tier zero found nothing. -/
def lonely : List Recording :=
  [.violations .niveau0 [], .violations .niveau2 [⟨"urn:a", none, none, "lonely"⟩]]

/-- Without findings at tier zero the score stays at or below the ceiling, after recordings and
after a run over shapes of the first tier. -/
theorem achieved_le_ceiling_iff_acquaintances :
    (∀ recording ∈ lonely, recording.finds = true → recording.tier ≠ .niveau0) ∧
      (MaturityReport.score ⟨[Validator.personShape]⟩ Validator.acquaintances []
        (Tally.empty.recordAll lonely)).achieved ≤ (Tally.empty.recordAll lonely).ceiling ∧
      ¬ (⟨[Validator.personShape]⟩ : ShapeSet).Carries .niveau0 ∧
      ((⟨⟨[Validator.personShape]⟩, fun _ => .ok []⟩ : Validator).validateAll Observer.silent
        Validator.acquaintances.readForest .fresh).2.tally.ceiling = .niveau3 ∧
      (MaturityReport.score ⟨[Validator.personShape]⟩ Validator.acquaintances []
        ((⟨⟨[Validator.personShape]⟩, fun _ => .ok []⟩ : Validator).validateAll Observer.silent
          Validator.acquaintances.readForest .fresh).2.tally).achieved ≤
        ((⟨⟨[Validator.personShape]⟩, fun _ => .ok []⟩ : Validator).validateAll Observer.silent
          Validator.acquaintances.readForest .fresh).2.tally.ceiling := by
  have hfound : ∀ recording ∈ lonely, recording.finds = true → recording.tier ≠ .niveau0 := by
    decide
  have hcarries : ¬ (⟨[Validator.personShape]⟩ : ShapeSet).Carries .niveau0 := by decide
  obtain ⟨hrecorded, hrun⟩ :=
    achieved_le_ceiling_iff ⟨[Validator.personShape]⟩ Validator.acquaintances []
  exact ⟨hfound, (hrecorded lonely).2 (.inr hfound), hcarries, by decide,
    (hrun (fun _ => .ok []) Observer.silent Validator.acquaintances.readForest).2 hcarries⟩

end PublicationAudit
