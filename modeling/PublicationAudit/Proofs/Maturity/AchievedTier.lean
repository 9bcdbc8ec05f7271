import Mathlib.Order.Bounds.Defs
import PublicationAudit.Proofs.Maturity.Findings

/-!
# The achieved tier

What the maturity of a publication means. `TierClean` says when nothing is missing or found at a
tier, of the facts and of the collected entries. The main statement is `maturity_isGreatest`: an
audit returns the greatest tier up to which every scored tier is clean.
-/

namespace PublicationAudit

/-- Nothing is missing or found at a tier. The entries are the objects of the collections, one for
each slot of the report. -/
structure TierClean (facts : FactSet) (shapes : ShapeSet) (sparse : List String)
    (publication : Publication) (entries : List Entry) (tier : Tier) : Prop where
  declared : ∀ shape ∈ shapes.shapes, shape.tier = some tier →
    ∃ subject, ⟨subject, Vocabulary.rdfType, .iri shape.targetClass⟩ ∈ facts.toList
  used : ∀ shape ∈ shapes.shapes, ∀ property ∈ shape.properties, property.tier = some tier →
    property.minCount = 0 → property.path ∉ sparse →
      ∃ subject object, ⟨subject, Vocabulary.rdfType, .iri shape.targetClass⟩ ∈ facts.toList ∧
        ⟨subject, property.path, object⟩ ∈ facts.toList
  valid : ∀ entry ∈ publication.objects, ∀ verdict ∈ entry.verdicts,
    verdict.tier = some tier → verdict.valid = true
  unviolated : ∀ pair ∈ (facts.slots shapes).zip entries, pair.1.tier = some tier →
    pair.2.violations = []

section Score

variable {facts : FactSet} {shapes : ShapeSet} {sparse : List String} {tally : Tally} {tier : Tier}

/-- A class is missing when a shape of the tier targets it and no fact declares an instance. -/
theorem MaturityReport.mem_missingClasses {cls : String} :
    cls ∈ missingClasses shapes facts tier ↔
      (∃ shape ∈ shapes.shapes, shape.tier = some tier ∧ shape.targetClass = cls) ∧
        ∀ subject, ⟨subject, Vocabulary.rdfType, .iri cls⟩ ∉ facts.toList := by
  have hnone : facts.hasInstance cls = false ↔
      ∀ subject, ⟨subject, Vocabulary.rdfType, .iri cls⟩ ∉ facts.toList := by
    rw [← Bool.not_eq_true, FactSet.hasInstance_iff, not_exists]
  rw [missingClasses, List.mem_eraseDups, List.mem_map, ← hnone]
  constructor
  · rintro ⟨shape, hshape, rfl⟩
    obtain ⟨hshape, hboth⟩ := List.mem_filter.1 hshape
    simp only [Bool.and_eq_true, decide_eq_true_eq, Bool.not_eq_true'] at hboth
    exact ⟨⟨shape, hshape, hboth.1, rfl⟩, hboth.2⟩
  · rintro ⟨⟨shape, hshape, htier, rfl⟩, hmissing⟩
    exact ⟨shape, List.mem_filter.2 ⟨hshape, by simp [htier, hmissing]⟩, rfl⟩

/-- A property is used when a fact of an instance has its path. -/
theorem isUsed_iff {cls path : String} :
    MaturityReport.isUsed facts cls path = true ↔
      ∃ subject object, ⟨subject, Vocabulary.rdfType, .iri cls⟩ ∈ facts.toList ∧
        ⟨subject, path, object⟩ ∈ facts.toList := by
  simp only [MaturityReport.isUsed, List.any_eq_true, Bool.not_eq_true',
    List.isEmpty_eq_false_iff_exists_mem, FactSet.mem_instancesOf, FactSet.mem_objects,
    exists_and_left]

/-- A property is missing when a shape has it as one that is optional at the tier and not sparse,
and no instance of its class uses it. -/
theorem MaturityReport.mem_missingOptional {cls path : String} :
    ⟨cls, path⟩ ∈ missingOptional shapes facts sparse tier ↔
      (∃ shape ∈ shapes.shapes, shape.targetClass = cls ∧ ∃ property ∈ shape.properties,
        property.path = path ∧ property.tier = some tier ∧ property.minCount = 0) ∧
        path ∉ sparse ∧ isUsed facts cls path = false := by
  rw [missingOptional, List.mem_eraseDups, List.mem_flatMap]
  constructor
  · rintro ⟨shape, hshape, hinShape⟩
    obtain ⟨property, hfilter, hsame⟩ := List.mem_map.1 hinShape
    cases hsame
    obtain ⟨hproperty, hexpected⟩ := List.mem_filter.1 hfilter
    simp only [Bool.and_eq_true, decide_eq_true_eq, Bool.not_eq_true', PropertyShape.isOptional,
      beq_iff_eq, List.contains_eq_mem, decide_eq_false_iff_not] at hexpected
    obtain ⟨⟨⟨htier, hoptional⟩, hsparse⟩, hunused⟩ := hexpected
    exact ⟨⟨shape, hshape, rfl, property, hproperty, rfl, htier, hoptional⟩, hsparse, hunused⟩
  · rintro ⟨⟨shape, hshape, rfl, property, hproperty, rfl, htier, hoptional⟩, hsparse, hunused⟩
    refine ⟨shape, hshape, List.mem_map.2 ⟨property, List.mem_filter.2 ⟨hproperty, ?_⟩, rfl⟩⟩
    simp [htier, PropertyShape.isOptional, hoptional, hsparse, hunused]

/-- No class is missing when facts declare instances of all that are required. -/
theorem missingClasses_isEmpty_iff :
    (MaturityReport.missingClasses shapes facts tier).isEmpty = true ↔
      ∀ shape ∈ shapes.shapes, shape.tier = some tier →
        ∃ subject, ⟨subject, Vocabulary.rdfType, .iri shape.targetClass⟩ ∈ facts.toList := by
  simp only [List.isEmpty_iff, List.eq_nil_iff_forall_not_mem, MaturityReport.mem_missingClasses,
    not_and, not_forall, not_not]
  constructor
  · exact fun hnone shape hshape htier => hnone _ ⟨shape, hshape, htier, rfl⟩
  · rintro hall _ ⟨shape, hshape, htier, rfl⟩
    exact hall shape hshape htier

/-- No optional property is missing when facts use all that are expected. -/
theorem missingOptional_isEmpty_iff :
    (MaturityReport.missingOptional shapes facts sparse tier).isEmpty = true ↔
      ∀ shape ∈ shapes.shapes, ∀ property ∈ shape.properties, property.tier = some tier →
        property.minCount = 0 → property.path ∉ sparse →
          ∃ subject object, ⟨subject, Vocabulary.rdfType, .iri shape.targetClass⟩ ∈ facts.toList ∧
            ⟨subject, property.path, object⟩ ∈ facts.toList := by
  simp only [List.isEmpty_iff, List.eq_nil_iff_forall_not_mem, ← isUsed_iff]
  constructor
  · intro hnone shape hshape property hproperty htier hoptional hsparse
    by_contra hunused
    exact hnone _ (MaturityReport.mem_missingOptional.2 ⟨⟨shape, hshape, rfl, property, hproperty,
      rfl, htier, hoptional⟩, hsparse, Bool.eq_false_iff.2 hunused⟩)
  · rintro hall ⟨cls, path⟩ hmissing
    obtain ⟨⟨shape, hshape, rfl, property, hproperty, rfl, htier, hoptional⟩, hsparse, hunused⟩ :=
      MaturityReport.mem_missingOptional.1 hmissing
    rw [hall shape hshape property hproperty htier hoptional hsparse] at hunused
    cases hunused

/-- The last tier before the first that is not clean, or the one below all of them. -/
def lastClean (report : Tier → TierReport) (base : Tier) (tiers : List Tier) : Tier :=
  ((((tiers.map report).takeWhile TierReport.isAchieved).getLast?).map (·.tier)).getD base

section LastClean

variable {report : Tier → TierReport} {first : Tier} {tiers : List Tier}

/-- A tier that is not clean ends the search. -/
theorem lastClean_of_not_clean (base : Tier) (h : (report first).isAchieved = false) :
    lastClean report base (first :: tiers) = base := by
  rw [lastClean, List.map_cons, List.takeWhile_cons_of_neg (by simp [h])]
  rfl

/-- Beyond a clean tier the search goes on from it. -/
theorem lastClean_of_clean (base : Tier) (htier : ∀ tier, (report tier).tier = tier)
    (h : (report first).isAchieved = true) :
    lastClean report base (first :: tiers) = lastClean report first tiers := by
  rw [lastClean, List.map_cons, List.takeWhile_cons_of_pos h, List.getLast?_cons, lastClean]
  cases ((tiers.map report).takeWhile TierReport.isAchieved).getLast? with
  | none => exact htier first
  | some last => rfl

/-- Of tiers that follow one another, the search finds the greatest up to which all are clean. -/
theorem lastClean_spec (htier : ∀ tier, (report tier).tier = tier) (base : Tier)
    (tiers : List Tier)
    (hranks : tiers.map Tier.rank = List.range' (base.rank + 1) tiers.length) :
    (∀ tier ∈ tiers, tier ≤ lastClean report base tiers → (report tier).isAchieved = true) ∧
      ∀ tier : Tier, tier.rank ≤ base.rank + tiers.length →
        (∀ lower ∈ tiers, lower ≤ tier → (report lower).isAchieved = true) →
          tier ≤ lastClean report base tiers := by
  induction tiers generalizing base with
  | nil => exact ⟨fun _ h => by simp at h, fun tier hrank _ => hrank⟩
  | cons first tiers ih =>
      have hfollow : ∀ tier ∈ first :: tiers, base.rank < tier.rank := fun tier hmem => by
        have hrange := List.mem_map_of_mem (f := Tier.rank) hmem
        rw [hranks, List.mem_range'_1] at hrange
        omega
      rw [List.map_cons, List.length_cons, List.range'_succ, List.cons.injEq] at hranks
      obtain ⟨hfirst, hrest⟩ := hranks
      cases hclean : (report first).isAchieved with
      | false =>
          -- Every tier above the base is at least the first one, which is not clean.
          rw [lastClean_of_not_clean base hclean]
          refine ⟨fun tier hmem hle => ?_, fun tier _ hall => ?_⟩
          · exact absurd (hfollow tier hmem) (Nat.not_lt.2 hle)
          · by_contra habove
            have hreaches : first.rank ≤ tier.rank := by
              have hlt : ¬ tier.rank ≤ base.rank := habove
              omega
            rw [hall first List.mem_cons_self hreaches] at hclean
            cases hclean
      | true =>
          rw [lastClean_of_clean base htier hclean]
          obtain ⟨hbelow, hgreatest⟩ := ih first (by rw [hrest, hfirst])
          refine ⟨fun tier hmem hle => ?_, fun tier hrank hall => ?_⟩
          · rcases List.mem_cons.1 hmem with rfl | hin
            · exact hclean
            · exact hbelow tier hin hle
          · refine hgreatest tier ?_ fun lower hlower =>
              hall lower (List.mem_cons_of_mem first hlower)
            rw [List.length_cons] at hrank
            omega

/-- Of reports on the scored tiers, the achieved tier is the greatest up to which all are clean. -/
theorem achievedTier_isGreatest (htier : ∀ tier, (report tier).tier = tier) :
    IsGreatest {tier | ∀ scored ∈ Tier.scored, scored ≤ tier → (report scored).isAchieved = true}
      (MaturityReport.achievedTier (Tier.scored.map report)) := by
  obtain ⟨hbelow, hgreatest⟩ := lastClean_spec htier .niveau0 Tier.scored rfl
  exact ⟨hbelow, fun tier hclean => hgreatest tier (by cases tier <;> decide) hclean⟩

end LastClean

end Score

/-! ## The maturity of a publication -/

section Audit

variable {facts : FactSet} {engine : QueryEngine} {shapes : ShapeSet} {observer : Observer}
  {publication : Publication} {entries : List Entry} {tier : Tier}

/-- Nothing invalid was found at a tier when the collected entries show nothing invalid. -/
theorem invalidAt_isEmpty_iff {validator : Validator} (hkeys : facts.KeysDistinct)
    (hentries : (validator.validateAll observer facts.readForest .fresh).1 = .ok entries)
    (hobjects : publication.objects.Perm entries) :
    ((validator.validateAll observer facts.readForest .fresh).2.tally.invalidAt tier).isEmpty =
        true ↔
      ∀ entry ∈ publication.objects, ∀ verdict ∈ entry.verdicts, verdict.tier = some tier →
        verdict.valid = true := by
  have hperm := invalidAt_perm hkeys hentries tier
  simp only [List.isEmpty_iff, List.eq_nil_iff_forall_not_mem, hperm.mem_iff, hobjects.mem_iff,
    List.mem_filter, List.mem_flatMap, PropertyVerdict.isInvalidAt, Bool.and_eq_true,
    Bool.not_eq_true', decide_eq_true_eq]
  constructor
  · intro hnone entry hentry verdict hverdict htier
    by_contra hinvalid
    exact hnone verdict ⟨⟨entry, hentry, hverdict⟩, by simpa using hinvalid, htier⟩
  · rintro hall verdict ⟨⟨entry, hentry, hverdict⟩, hinvalid, htier⟩
    simp [hall entry hentry verdict hverdict htier] at hinvalid

/-- No constraint was found violated at a tier when no entry for a shape of the tier shows
violations. -/
theorem failedAt_isEmpty_iff {validator : Validator} (hkeys : facts.KeysDistinct)
    (hentries : (validator.validateAll observer facts.readForest .fresh).1 = .ok entries) :
    ((validator.validateAll observer facts.readForest .fresh).2.tally.failedAt tier).isEmpty =
        true ↔
      ∀ pair ∈ (facts.slots validator.shapes).zip entries, pair.1.tier = some tier →
        pair.2.violations = [] := by
  have hperm := failedAt_perm hkeys hentries tier
  rw [List.isEmpty_iff, ← List.perm_nil]
  have hnil : (((facts.slots validator.shapes).zip entries).flatMap fun pair =>
      if pair.1.tier = some tier then pair.2.violations else []) = [] ↔
      ∀ pair ∈ (facts.slots validator.shapes).zip entries, pair.1.tier = some tier →
        pair.2.violations = [] := by
    simp only [List.flatMap_eq_nil_iff, ite_eq_right_iff]
  rw [← hnil, ← List.perm_nil]
  exact ⟨hperm.symm.trans, hperm.trans⟩

/-- The report on a tier is clean exactly when the tier is. -/
theorem isAchieved_iff_tierClean (sparse : List String) (hkeys : facts.KeysDistinct)
    (hentries : ((⟨shapes, engine⟩ : Validator).validateAll observer facts.readForest .fresh).1 =
      .ok entries)
    (hobjects : publication.objects.Perm entries) :
    (MaturityReport.tierReport shapes facts sparse
        ((⟨shapes, engine⟩ : Validator).validateAll observer facts.readForest .fresh).2.tally
        tier).isAchieved = true ↔
      TierClean facts shapes sparse publication entries tier := by
  simp only [TierReport.isAchieved, MaturityReport.tierReport, Bool.and_eq_true,
    missingClasses_isEmpty_iff, missingOptional_isEmpty_iff,
    invalidAt_isEmpty_iff hkeys hentries hobjects, failedAt_isEmpty_iff hkeys hentries]
  exact ⟨fun ⟨⟨⟨hdeclared, hused⟩, hvalid⟩, hunviolated⟩ => ⟨hdeclared, hused, hvalid, hunviolated⟩,
    fun h => ⟨⟨⟨h.declared, h.used⟩, h.valid⟩, h.unviolated⟩⟩

/-- An audit of facts with distinct identifiers, which its observer does not stop, returns as
maturity the greatest tier up to which every scored tier is clean; that is tier zero when the first
scored tier is not clean, whatever holds at higher tiers. -/
theorem maturity_isGreatest (engine : QueryEngine) (shapes : ShapeSet) (sparse : List String)
    (observer : Observer) (haccepts : ∀ progress, observer progress = .ok ()) (facts : FactSet)
    (hkeys : facts.KeysDistinct) :
    ∃ publication entries,
      (validatePublication engine shapes sparse observer facts .fresh).1 = .ok publication ∧
      ((⟨shapes, engine⟩ : Validator).validateAll observer facts.readForest .fresh).1 =
        .ok entries ∧
      List.Forall₂ (facts.Reports engine) (facts.slots shapes) entries ∧
      publication.objects.Perm entries ∧
      IsGreatest {tier | ∀ scored ∈ Tier.scored, scored ≤ tier →
        TierClean facts shapes sparse publication entries scored} publication.maturity ∧
      (¬ TierClean facts shapes sparse publication entries .niveau1 →
        publication.maturity = .niveau0) := by
  obtain ⟨publication, hpublication⟩ :=
    validatePublication_accepted engine shapes sparse observer facts haccepts
  obtain ⟨entries, hentries, hreport, hmaturity, hobjects⟩ := validatePublication_ok hpublication
  have hreports := Validator.reports_of_validateAll hkeys hentries
  have hgreatest : IsGreatest {tier | ∀ scored ∈ Tier.scored, scored ≤ tier →
      TierClean facts shapes sparse publication entries scored} publication.maturity := by
    rw [hmaturity, hreport]
    simp only [← isAchieved_iff_tierClean sparse hkeys hentries hobjects]
    exact achievedTier_isGreatest fun _ => rfl
  refine ⟨publication, entries, hpublication, hentries, hreports, hobjects, hgreatest,
    fun hfirst => ?_⟩
  by_contra hmore
  refine hfirst (hgreatest.1 .niveau1 (by decide) ?_)
  cases hachieved : publication.maturity with
  | niveau0 => exact absurd hachieved hmore
  | niveau1 | niveau2 | niveau3 => decide

/-- Two persons who know each other alone reach the tier that asks for one acquaintance, and no
more. -/
theorem maturity_isGreatest_acquaintances :
    (∀ progress, Observer.silent progress = .ok ()) ∧ Validator.acquaintances.KeysDistinct ∧
      ∃ publication entries,
        (validatePublication (fun _ => .ok []) ⟨[Validator.personShape, sociableShape]⟩ []
          Observer.silent Validator.acquaintances .fresh).1 = .ok publication ∧
        IsGreatest {tier | ∀ scored ∈ Tier.scored, scored ≤ tier →
          TierClean Validator.acquaintances ⟨[Validator.personShape, sociableShape]⟩ [] publication
            entries scored} publication.maturity := by
  obtain ⟨publication, entries, hpublication, -, -, -, hgreatest, -⟩ :=
    maturity_isGreatest (fun _ => .ok []) ⟨[Validator.personShape, sociableShape]⟩ []
      Observer.silent (fun _ => rfl) Validator.acquaintances (by decide)
  exact ⟨fun _ => rfl, by decide, publication, entries, hpublication, hgreatest⟩

example : (validatePublication (fun _ => .ok []) ⟨[Validator.personShape, sociableShape]⟩ []
    Observer.silent Validator.acquaintances .fresh).1.toOption.map (·.maturity) =
      some .niveau1 := by
  decide

end Audit

end PublicationAudit
