import PublicationAudit.Proofs.Maturity.AchievedTier
import PublicationAudit.Proofs.Validation.Reordering

/-!
# Audits of reordered facts

The order in which facts are listed decides in which order roots are validated, which copies are
expanded, what is in progress on a cycle and in which order findings are counted. The main statement
is `validation_reordered`: it decides nothing of what an audit concludes, as long as each subject
declares its classes in the same order. `FinishedValidation` is a validation that was not stopped,
and `FinishedValidation.JudgesAs` says what two of them agree on.
-/

namespace PublicationAudit

/-- A validation of facts from a fresh state that its observer did not stop: the entries that it
returned, the publication made from them, and the state in which it ended. -/
structure FinishedValidation (engine : QueryEngine) (shapes : ShapeSet) (sparse : List String)
    (observer : Observer) (facts : FactSet) where
  entries : List Entry
  publication : Publication
  final : RunState
  validated : (⟨shapes, engine⟩ : Validator).validateAll observer facts.readForest .fresh =
    (.ok entries, final)
  published : validatePublication engine shapes sparse observer facts .fresh =
    (.ok publication, final)

/-- Two validations of the same typed subjects come to the same conclusions. The entries of a
subject, of which there is one for each shape for its class, differ at most in the values that they
report; as much is found at every tier; and the maturity reports differ at most in the order of
their findings. -/
structure FinishedValidation.JudgesAs {engine : QueryEngine} {shapes : ShapeSet}
    {sparse : List String} {observer otherObserver : Observer} {facts otherFacts : FactSet}
    (run : FinishedValidation engine shapes sparse observer facts)
    (other : FinishedValidation engine shapes sparse otherObserver otherFacts) : Prop where
  classes : ∀ subject, facts.classOf? subject = otherFacts.classOf? subject
  shaped : ∀ subject cls, facts.classOf? subject = some cls → shapes.shapesFor cls ≠ [] →
    List.Forall₂ (fun shape entry => entry.shapeId = some shape.id ∧
        entry.verdicts.map (·.path) = shape.properties.map (·.path))
      (shapes.shapesFor cls) (entriesOf run.entries subject)
  entries : ∀ subject, facts.isTyped subject = true →
    (entriesOf run.entries subject).map Entry.withoutValues =
      (entriesOf other.entries subject).map Entry.withoutValues
  invalid : ∀ tier, (run.final.tally.invalidAt tier).length =
    (other.final.tally.invalidAt tier).length
  failed : ∀ tier, (run.final.tally.failedAt tier).length =
    (other.final.tally.failedAt tier).length
  maturity : run.publication.maturity = other.publication.maturity
  reports : List.Forall₂ (fun report otherReport => report.tier = otherReport.tier ∧
      report.missingClasses = otherReport.missingClasses ∧
      report.missingOptional = otherReport.missingOptional ∧
      report.invalid.length = otherReport.invalid.length ∧
      report.failed.length = otherReport.failed.length)
    run.publication.report.tiers other.publication.report.tiers

/-! ## What is missing -/

namespace FactSet.Alike

variable {facts other : FactSet} (h : facts.Alike other)

include h

/-- The same classes have instances. -/
theorem hasInstance_eq : facts.hasInstance = other.hasInstance := by
  funext cls
  rw [Bool.eq_iff_iff, hasInstance_iff, hasInstance_iff]
  exact exists_congr fun subject => h.perm.mem_iff

/-- The same properties are used. -/
theorem isUsed_eq : MaturityReport.isUsed facts = MaturityReport.isUsed other := by
  funext cls path
  rw [Bool.eq_iff_iff, isUsed_iff, isUsed_iff]
  simp only [h.perm.mem_iff]

/-- The same classes are missing, in the order of the shapes. -/
theorem missingClasses_eq (shapes : ShapeSet) :
    MaturityReport.missingClasses shapes facts = MaturityReport.missingClasses shapes other := by
  funext tier
  rw [MaturityReport.missingClasses, MaturityReport.missingClasses, h.hasInstance_eq]

/-- And the same optional properties. -/
theorem missingOptional_eq (shapes : ShapeSet) (sparse : List String) :
    MaturityReport.missingOptional shapes facts sparse =
      MaturityReport.missingOptional shapes other sparse := by
  funext tier
  rw [MaturityReport.missingOptional, MaturityReport.missingOptional, h.isUsed_eq]

end FactSet.Alike

/-! ## What is found -/

section Findings

variable {facts other : FactSet} {validator : Validator} {observer otherObserver : Observer}
  {engine : QueryEngine} {slot : Slot} {entry : Entry} {entries otherEntries : List Entry}

/-- The violations that an entry for a slot shows. -/
def Slot.violations (engine : QueryEngine) (slot : Slot) : List Violation :=
  slot.shape.elim [] fun shape =>
    shape.constraints.flatMap fun c => c.violations engine slot.subject none

/-- The violations of an entry belong to its slot alone. -/
theorem FactSet.Reports.violations_eq (h : facts.Reports engine slot entry) :
    entry.violations = slot.violations engine := by
  rw [Slot.violations]
  cases hshape : slot.shape with
  | none => exact (h.plain hshape).violations
  | some shape => exact (h.shaped shape hshape).violations

/-- The violations that a tally holds after a run are those of the slots for shapes of the tier. -/
theorem failedAt_perm_slots (hkeys : facts.KeysDistinct)
    (h : (validator.validateAll observer facts.readForest .fresh).1 = .ok entries) (tier : Tier) :
    ((validator.validateAll observer facts.readForest .fresh).2.tally.failedAt tier).Perm
      ((facts.slots validator.shapes).flatMap fun slot =>
        if slot.tier = some tier then slot.violations validator.engine else []) := by
  have hreports := Validator.reports_of_validateAll hkeys h
  refine (failedAt_perm hkeys h tier).trans (.of_eq ?_)
  clear h
  generalize facts.slots validator.shapes = slots at hreports
  induction hreports with
  | nil => rfl
  | cons hentry _ ih =>
      rw [List.zip_cons_cons, List.flatMap_cons, List.flatMap_cons, ih, hentry.violations_eq]

/-- The invalid verdicts of entries without values are their invalid verdicts without values. -/
theorem filter_isInvalidAt_withoutValues (tier : Tier) (entries : List Entry) :
    ((entries.map Entry.withoutValues).flatMap Entry.verdicts).filter (·.isInvalidAt tier) =
      ((entries.flatMap Entry.verdicts).filter (·.isInvalidAt tier)).map
        PropertyVerdict.withoutValues := by
  have hverdicts : (entries.map Entry.withoutValues).flatMap Entry.verdicts =
      (entries.flatMap Entry.verdicts).map PropertyVerdict.withoutValues := by
    rw [List.flatMap_map, List.map_flatMap]
    simp only [Entry.verdicts_withoutValues]
  -- Whether a verdict is invalid at a tier does not depend on its values.
  have htest : (fun verdict : PropertyVerdict => verdict.isInvalidAt tier) ∘
      PropertyVerdict.withoutValues = fun verdict => verdict.isInvalidAt tier := rfl
  rw [hverdicts, List.filter_map, htest]

namespace FactSet.Alike

variable (h : facts.Alike other) (hkeys : facts.KeysDistinct)
  (hentries : (validator.validateAll observer facts.readForest .fresh).1 = .ok entries)
  (hother : (validator.validateAll otherObserver other.readForest .fresh).1 = .ok otherEntries)

include h hkeys hentries hother

/-- Runs find the same invalid properties, values apart. -/
theorem invalid_perm (tier : Tier) :
    (((validator.validateAll observer facts.readForest .fresh).2.tally.invalidAt tier).map
        PropertyVerdict.withoutValues).Perm
      (((validator.validateAll otherObserver other.readForest .fresh).2.tally.invalidAt tier).map
        PropertyVerdict.withoutValues) := by
  have hotherKeys := h.keysDistinct hkeys
  have hperm := h.entries_perm (Validator.reports_of_validateAll hkeys hentries)
    (Validator.reports_of_validateAll hotherKeys hother)
  have hthese := (invalidAt_perm hkeys hentries tier).map PropertyVerdict.withoutValues
  have hthose := (invalidAt_perm hotherKeys hother tier).map PropertyVerdict.withoutValues
  rw [← filter_isInvalidAt_withoutValues] at hthese hthose
  exact hthese.trans (((hperm.flatMap_right Entry.verdicts).filter _).trans hthose.symm)

/-- Runs find the same violations of the constraints of shapes. -/
theorem failed_perm (tier : Tier) :
    ((validator.validateAll observer facts.readForest .fresh).2.tally.failedAt tier).Perm
      ((validator.validateAll otherObserver other.readForest .fresh).2.tally.failedAt tier) := by
  have hthese := failedAt_perm_slots hkeys hentries tier
  have hthose := failedAt_perm_slots (h.keysDistinct hkeys) hother tier
  exact hthese.trans (((h.slots_perm validator.shapes).flatMap_right _).trans hthose.symm)

end FactSet.Alike

end Findings

/-! ## The achieved tier -/

/-- The achieved tier depends only on which tiers are clean. -/
theorem achievedTier_congr (report otherReport : Tier → TierReport)
    (htier : ∀ tier, (report tier).tier = (otherReport tier).tier)
    (hclean : ∀ tier, (report tier).isAchieved = (otherReport tier).isAchieved)
    (tiers : List Tier) :
    MaturityReport.achievedTier (tiers.map report) =
      MaturityReport.achievedTier (tiers.map otherReport) := by
  have hsameTier : TierReport.tier ∘ report = TierReport.tier ∘ otherReport := funext htier
  have hsameClean : TierReport.isAchieved ∘ report = TierReport.isAchieved ∘ otherReport :=
    funext hclean
  rw [MaturityReport.achievedTier, MaturityReport.achievedTier, List.takeWhile_map,
    List.takeWhile_map, List.getLast?_map, List.getLast?_map, Option.map_map, Option.map_map,
    hsameClean, hsameTier]

namespace FinishedValidation

variable {engine : QueryEngine} {shapes : ShapeSet} {sparse : List String}
  {observer otherObserver : Observer} {facts otherFacts : FactSet}

/-- A validation whose observer always lets it go on is finished. -/
theorem nonempty_of_accepts (engine : QueryEngine) (shapes : ShapeSet) (sparse : List String)
    (facts : FactSet) (haccepts : ∀ progress, observer progress = .ok ()) :
    Nonempty (FinishedValidation engine shapes sparse observer facts) := by
  obtain ⟨entries, hentries⟩ : ∃ entries, ((⟨shapes, engine⟩ : Validator).validateAll observer
      facts.readForest .fresh).1 = .ok entries :=
    Validator.validateAll_accepted haccepts facts.readForest .fresh
  have hrun : (⟨shapes, engine⟩ : Validator).validateAll observer facts.readForest .fresh =
      (.ok entries, _) := Prod.ext hentries rfl
  obtain ⟨publication, hpublished⟩ : ∃ publication,
      validatePublication engine shapes sparse observer facts .fresh = (.ok publication, _) := by
    simp only [validatePublication]
    rw [hrun]
    exact ⟨_, rfl⟩
  exact ⟨⟨entries, publication, _, hrun, hpublished⟩⟩

variable (run : FinishedValidation engine shapes sparse observer facts)
  (other : FinishedValidation engine shapes sparse otherObserver otherFacts)

/-- The entries that validation returned. -/
theorem returned : ((⟨shapes, engine⟩ : Validator).validateAll observer facts.readForest
    .fresh).1 = .ok run.entries :=
  congrArg Prod.fst run.validated

/-- The state in which validation ended. -/
theorem ended : ((⟨shapes, engine⟩ : Validator).validateAll observer facts.readForest
    .fresh).2 = run.final :=
  congrArg Prod.snd run.validated

/-- The publication is scored from the facts and the tally. -/
theorem scored : run.publication.report =
      MaturityReport.score shapes facts sparse run.final.tally ∧
    run.publication.maturity = run.publication.report.achieved := by
  obtain ⟨-, -, hreport, hmaturity, -⟩ := validatePublication_ok (congrArg Prod.fst run.published)
  rw [run.ended] at hreport
  exact ⟨hreport, hmaturity⟩

/-- A typed subject has an entry for each shape for its class. -/
theorem forall₂_entriesOf {subject : Node} {cls : String} (hkeys : facts.KeysDistinct)
    (hcls : facts.classOf? subject = some cls) (hshapes : shapes.shapesFor cls ≠ []) :
    List.Forall₂ (fun shape entry => entry.shapeId = some shape.id ∧
        entry.verdicts.map (·.path) = shape.properties.map (·.path))
      (shapes.shapesFor cls) (entriesOf run.entries subject) := by
  have hreports := FactSet.reports_entriesOf hkeys (FactSet.isTyped_of_class hcls)
    (Validator.reports_of_validateAll hkeys run.returned)
  rw [FactSet.slotsOf, hcls, Option.elim_some] at hreports
  cases hfor : shapes.shapesFor cls with
  | nil => exact absurd hfor hshapes
  | cons first rest =>
      simp only [hfor, List.forall₂_map_left_iff] at hreports
      refine hreports.imp fun shape entry hentry => ?_
      have hshaped := hentry.shaped shape rfl
      obtain ⟨verdicts, hjudged, hverdicts⟩ := hshaped.judged
      refine ⟨hshaped.shapeId, ?_⟩
      rw [Entry.verdicts, hjudged]
      exact map_eq_of_forall₂ hverdicts fun _ _ hverdict => hverdict.path

/-- Finished validations of facts that are alike, with distinct identifiers, come to the same
conclusions. -/
theorem judgesAs_of_alike (h : facts.Alike otherFacts) (hkeys : facts.KeysDistinct) :
    run.JudgesAs other := by
  have hinvalid := fun tier => (h.invalid_perm hkeys run.returned other.returned tier).length_eq
  have hfailed := fun tier => (h.failed_perm hkeys run.returned other.returned tier).length_eq
  simp only [List.length_map, run.ended, other.ended] at hinvalid hfailed
  have hclean : ∀ tier,
      (MaturityReport.tierReport shapes facts sparse run.final.tally tier).isAchieved =
        (MaturityReport.tierReport shapes otherFacts sparse other.final.tally tier).isAchieved := by
    intro tier
    have hsameInvalid := isEmpty_eq_of_length_eq (hinvalid tier)
    have hsameFailed := isEmpty_eq_of_length_eq (hfailed tier)
    simp only [TierReport.isAchieved, MaturityReport.tierReport, h.missingClasses_eq,
      h.missingOptional_eq, hsameInvalid, hsameFailed]
  obtain ⟨hreport, hmaturity⟩ := run.scored
  obtain ⟨hotherReport, hotherMaturity⟩ := other.scored
  refine
    { classes := fun subject => congrFun h.classOf? subject
      shaped := fun subject cls hcls hshapes => run.forall₂_entriesOf hkeys hcls hshapes
      entries := fun subject hsubject => h.entriesOf_withoutValues hkeys hsubject
        (Validator.reports_of_validateAll hkeys run.returned)
        (Validator.reports_of_validateAll (h.keysDistinct hkeys) other.returned)
      invalid := hinvalid
      failed := hfailed
      maturity := ?_
      reports := ?_ }
  · rw [hmaturity, hotherMaturity, hreport, hotherReport]
    exact achievedTier_congr (MaturityReport.tierReport shapes facts sparse run.final.tally)
      (MaturityReport.tierReport shapes otherFacts sparse other.final.tally) (fun _ => rfl) hclean
      Tier.scored
  · rw [hreport, hotherReport]
    show List.Forall₂ _ (Tier.scored.map _) (Tier.scored.map _)
    rw [List.forall₂_map_left_iff, List.forall₂_map_right_iff, List.forall₂_same]
    intro tier _
    exact ⟨rfl, congrFun (h.missingClasses_eq shapes) tier,
      congrFun (h.missingOptional_eq shapes sparse) tier, hinvalid tier, hfailed tier⟩

end FinishedValidation

/-- Facts with distinct identifiers can be listed in any order in which each subject declares its
classes as before: validations that their observer does not stop end, and they come to the same
conclusions. -/
theorem validation_reordered (engine : QueryEngine) (shapes : ShapeSet) (sparse : List String)
    (observer : Observer) (haccepts : ∀ progress, observer progress = .ok ())
    (facts reordered : List Fact) (hkeys : (FactSet.ofList facts).KeysDistinct)
    (hreordered : Reordered facts reordered) :
    ∃ (run : FinishedValidation engine shapes sparse observer (.ofList facts))
      (other : FinishedValidation engine shapes sparse observer (.ofList reordered)),
      run.JudgesAs other := by
  obtain ⟨run⟩ := FinishedValidation.nonempty_of_accepts engine shapes sparse (.ofList facts)
    haccepts
  obtain ⟨other⟩ := FinishedValidation.nonempty_of_accepts engine shapes sparse
    (.ofList reordered) haccepts
  exact ⟨run, other, run.judgesAs_of_alike other hreordered.alike hkeys⟩

/-- Two persons who know each other, the first of whom is a member as well. -/
def introductions : List Fact :=
  [⟨.iri "urn:a", Vocabulary.rdfType, .iri "urn:Person"⟩,
    ⟨.iri "urn:a", Vocabulary.rdfType, .iri "urn:Member"⟩,
    ⟨.iri "urn:a", "urn:knows", .iri "urn:b"⟩,
    ⟨.iri "urn:b", Vocabulary.rdfType, .iri "urn:Person"⟩,
    ⟨.iri "urn:b", "urn:knows", .iri "urn:a"⟩]

/-- The same, the second person first. -/
def introductionsFromSecond : List Fact :=
  [⟨.iri "urn:b", "urn:knows", .iri "urn:a"⟩,
    ⟨.iri "urn:a", "urn:knows", .iri "urn:b"⟩,
    ⟨.iri "urn:a", Vocabulary.rdfType, .iri "urn:Person"⟩,
    ⟨.iri "urn:b", Vocabulary.rdfType, .iri "urn:Person"⟩,
    ⟨.iri "urn:a", Vocabulary.rdfType, .iri "urn:Member"⟩]

/-- The roots come in another order, so that the cycle is entered and folded elsewhere, and yet the
validations come to the same conclusions. -/
theorem validation_reordered_introductions :
    (∀ progress, Observer.silent progress = .ok ()) ∧
      (FactSet.ofList introductions).KeysDistinct ∧
      Reordered introductions introductionsFromSecond ∧
      (FactSet.ofList introductions).typedSubjects = [.iri "urn:a", .iri "urn:b"] ∧
      (FactSet.ofList introductionsFromSecond).typedSubjects = [.iri "urn:b", .iri "urn:a"] ∧
      ∃ (run : FinishedValidation (fun _ => .ok []) ⟨[Validator.personShape, sociableShape]⟩ []
          Observer.silent (.ofList introductions))
        (other : FinishedValidation (fun _ => .ok []) ⟨[Validator.personShape, sociableShape]⟩ []
          Observer.silent (.ofList introductionsFromSecond)), run.JudgesAs other :=
  ⟨fun _ => rfl, by decide, by decide, by decide, by decide,
    validation_reordered (fun _ => .ok []) ⟨[Validator.personShape, sociableShape]⟩ []
      Observer.silent (fun _ => rfl) introductions introductionsFromSecond (by decide) (by decide)⟩

end PublicationAudit
