import PublicationAudit.Proofs.Maturity.AchievedTier
import PublicationAudit.Proofs.Validation.SingleSubject

/-!
# Missing items and collections

A maturity report reads from the facts which classes and properties are missing; the collections are
made from the entries that validation returns. Both read what an instance of a class is in their own
way: a report from any declaration of a class, an entry from the one class under which its subject
is read. `missingItems_agree` says that they do not contradict each other, also where identifiers
are not distinct: a class that is reported missing has no objects, no object has a value of a
property that is reported missing, and the class of every missing item has a collection.
-/

namespace PublicationAudit

/-! ## What entries show -/

/-- An entry that counts the values of a subject of its class, for one of the slots of the
subject. -/
def Entry.CountsSubject (facts : FactSet) (shapes : ShapeSet) (entry : Entry) : Prop :=
  ∃ subject, facts.classOf? subject = some entry.cls ∧
    ∃ slot ∈ facts.slotsOf shapes subject, entry.counts = facts.slotCounts slot

section Entries

variable {facts : FactSet} {validator : Validator} {observer : Observer} {entries : List Entry}
  {entry : Entry} {answers : Answers} {copy : SubjectTree} {isFirst : Bool}

/-- The first copies of a forest read from facts are copies of subjects of these facts. -/
theorem FirstCopies.exists_isCopy {uri : String}
    (h : (ofForest facts.readForest).find? uri = some copy) :
    ∃ isFirst, copy.IsCopy facts isFirst :=
  (readForest_copies facts).isCopy copy (mem_copies_of_find? h)

namespace Validator

/-- The entries of a copy have its class. -/
theorem cls_of_mem_verdictFrom (h : entry ∈ (validator.verdictFrom answers copy).entries) :
    entry.cls = copy.cls := by
  unfold verdictFrom at h
  split at h
  · rw [List.mem_singleton.1 h]
    rfl
  · obtain ⟨shape, -, rfl⟩ := List.mem_map.1 h
    rfl

/-- The entries of a copy count the values of its subject. -/
theorem countsSubject_of_mem_verdictFrom (hcopy : copy.IsCopy facts isFirst)
    (h : entry ∈ (validator.verdictFrom answers copy).entries) :
    entry.CountsSubject facts validator.shapes := by
  have hcounts : entry.counts ∈
      (facts.slotsOf validator.shapes copy.node).map facts.slotCounts := by
    rw [← hcopy.counts_eq validator answers]
    exact List.mem_map_of_mem h
  obtain ⟨slot, hslot, heq⟩ := List.mem_map.1 hcounts
  exact ⟨copy.node, by rw [hcopy.cls, cls_of_mem_verdictFrom h], slot, hslot, heq.symm⟩

/-- Every entry that a run returns counts the values of a subject of its class. Where two subjects
have one identifier, an entry may be that of the other. -/
theorem countsSubject_of_validateAll
    (h : (validator.validateAll observer facts.readForest .fresh).1 = .ok entries) :
    ∀ entry ∈ entries, entry.CountsSubject facts validator.shapes := by
  obtain ⟨hgrows, verdicts, hverdicts, rfl⟩ := validateFrom_verdicts
    (FirstCopies.ofForest_complete facts.readForest) (fun _ => FirstCopies.contains_root)
    (RunState.sound_fresh validator _) rfl h
  have hsound := hgrows.sound (RunState.sound_fresh validator _)
  intro entry hentry
  obtain ⟨verdict, hverdict, hshown⟩ := List.mem_flatMap.1 hentry
  obtain ⟨root, -, hknown⟩ := exists_of_forall₂ hverdicts.flip hverdict
  obtain ⟨copy, stack, hexplains⟩ := hsound.explained _ _ hknown
  obtain ⟨isFirst, hcopy⟩ := FirstCopies.exists_isCopy hexplains.found
  rw [hexplains.given _ (RunState.allows_answersUnder _ stack)] at hshown
  exact countsSubject_of_mem_verdictFrom hcopy hshown

end Validator

end Entries

/-! ## What a report says is missing -/

namespace FactSet

variable {facts : FactSet} {shapes : ShapeSet} {subject : Node} {cls path : String} {slot : Slot}
  {count : Nat}

/-- The class under which a subject is read is one that the facts declare. -/
theorem declares_of_classOf? (h : facts.classOf? subject = some cls) :
    ⟨subject, Vocabulary.rdfType, .iri cls⟩ ∈ facts.toList := by
  rw [← mem_objects]
  have htype : cls ∈ facts.typesOf subject := by
    unfold classOf? isDocument at h
    split at h
    · rename_i hdocument
      cases h
      exact List.contains_iff_mem.1 hdocument
    · exact List.mem_of_head? h
  obtain ⟨object, hobject, hiri⟩ := List.mem_filterMap.1 htype
  cases object with
  | iri text =>
      cases hiri
      exact hobject
  | blank label => cases hiri
  | literal text datatype language => cases hiri

/-- Where no fact has a path, nothing is counted for it. -/
theorem count_eq_zero (hnone : ∀ object, ⟨subject, path, object⟩ ∉ facts.toList)
    (hslot : slot ∈ facts.slotsOf shapes subject) (h : (path, count) ∈ facts.slotCounts slot) :
    count = 0 := by
  have hvalues : facts.valueFacts subject path = [] := by
    refine List.filter_eq_nil_iff.2 fun fact hfact hmatch => ?_
    simp only [decide_eq_true_eq] at hmatch
    obtain ⟨rfl, rfl, -⟩ := hmatch
    exact hnone fact.object hfact
  unfold slotCounts at h
  rw [subject_of_mem_slotsOf hslot] at h
  split at h
  · obtain ⟨property, -, hentry⟩ := List.mem_map.1 h
    cases hentry
    simp [valueCount, hvalues]
  · obtain ⟨shown, -, hentry⟩ := List.mem_map.1 h
    cases hentry
    simp [hvalues]

end FactSet

namespace MaturityReport

variable {shapes : ShapeSet} {facts : FactSet} {sparse : List String} {tier : Tier}
  {cls path : String}

/-- No instance of its class uses a property that is reported missing. -/
theorem not_used_of_missing (h : ⟨cls, path⟩ ∈ missingOptional shapes facts sparse tier)
    {subject : Node} (hdeclared : ⟨subject, Vocabulary.rdfType, .iri cls⟩ ∈ facts.toList)
    (object : Node) : ⟨subject, path, object⟩ ∉ facts.toList := by
  intro hfact
  have hunused := (mem_missingOptional.1 h).2.2
  rw [isUsed_iff.2 ⟨subject, object, hdeclared, hfact⟩] at hunused
  cases hunused

/-- What is missing concerns target classes of shapes. -/
theorem mem_targetClasses_of_missing
    (h : cls ∈ missingClasses shapes facts tier ++
      (missingOptional shapes facts sparse tier).map (·.targetClass)) :
    cls ∈ shapes.targetClasses := by
  rw [ShapeSet.targetClasses, List.mem_eraseDups]
  rcases List.mem_append.1 h with hcls | hproperty
  · obtain ⟨⟨shape, hshape, -, rfl⟩, -⟩ := mem_missingClasses.1 hcls
    exact List.mem_map_of_mem hshape
  · obtain ⟨missing, hmissing, rfl⟩ := List.mem_map.1 hproperty
    obtain ⟨⟨shape, hshape, hsame, -⟩, -⟩ := mem_missingOptional.1 hmissing
    rw [← hsame]
    exact List.mem_map_of_mem hshape

end MaturityReport

/-! ## What a collection says is missing -/

/-- Of tiers in ascending order, the first that passes a test is the least that does. -/
theorem Tier.find?_eq_some_iff {tiers : List Tier} (hascending : tiers.Pairwise (· < ·))
    (p : Tier → Bool) (tier : Tier) :
    tiers.find? p = some tier ↔ IsLeast {t | t ∈ tiers ∧ p t = true} tier := by
  induction tiers with
  | nil => simp [IsLeast]
  | cons first tiers ih =>
      obtain ⟨hfirst, hrest⟩ := List.pairwise_cons.1 hascending
      cases hp : p first with
      | true =>
          rw [List.find?_cons_of_pos hp, Option.some.injEq]
          constructor
          · rintro rfl
            refine ⟨⟨List.mem_cons_self, hp⟩, ?_⟩
            rintro other ⟨hother, -⟩
            rcases List.mem_cons.1 hother with rfl | hlater
            · exact Nat.le_refl _
            · exact Nat.le_of_lt (hfirst other hlater)
          · rintro ⟨⟨htier, -⟩, hleast⟩
            rcases List.mem_cons.1 htier with rfl | hlater
            · rfl
            · exact absurd (hleast ⟨List.mem_cons_self, hp⟩) (Nat.not_le.2 (hfirst tier hlater))
      | false =>
          rw [List.find?_cons_of_neg (by simp [hp]), ih hrest]
          have hsame : {t | t ∈ first :: tiers ∧ p t = true} = {t | t ∈ tiers ∧ p t = true} := by
            ext other
            constructor
            · rintro ⟨hmem, hother⟩
              rcases List.mem_cons.1 hmem with rfl | hlater
              · simp [hp] at hother
              · exact ⟨hlater, hother⟩
            · exact fun ⟨hlater, hother⟩ => ⟨List.mem_cons_of_mem first hlater, hother⟩
          rw [hsame]

namespace Collection

/-- The tier at which the class of a collection is missing. -/
def missingTier? (collection : Collection) : Option Tier :=
  collection.compliance.bind (·.missingAtTier)

/-- The paths of the optional properties that are missing in a collection. -/
def missingPaths (collection : Collection) : List String :=
  collection.compliance.elim [] (·.missingOptional)

/-- A collection and a report do not contradict each other about missing items. The collection
carries a tier exactly when the report says that its class is missing, which is the lowest such
tier, and then it is empty. It names the properties that the report says are missing for its class,
and none of its objects has a value of one of these. -/
structure AgreesOnMissing (report : MaturityReport) (collection : Collection) : Prop where
  tier : ∀ tier, collection.missingTier? = some tier ↔
    IsLeast {t | ∃ r ∈ report.tiers, r.tier = t ∧ collection.classUri ∈ r.missingClasses} tier
  empty : collection.missingTier?.isSome = true → collection.count = 0 ∧ collection.objects = []
  paths : ∀ path, path ∈ collection.missingPaths ↔
    ∃ r ∈ report.tiers, ⟨collection.classUri, path⟩ ∈ r.missingOptional
  unused : ∀ path ∈ collection.missingPaths, ∀ object ∈ collection.objects,
    ∀ count, (path, count) ∈ object.counts → count = 0

variable {report : MaturityReport} {group : String × List Entry}

/-- A collection carries the tier of the first report that lists its class. -/
theorem missingTier?_ofGroup (report : MaturityReport) (group : String × List Entry) :
    (ofGroup report group).missingTier? =
      (report.tiers.find? fun r => r.missingClasses.contains group.1).map (·.tier) := by
  simp only [missingTier?, ofGroup, Compliance.ofReport?]
  split
  · rename_i hnothing
    simp only [Bool.and_eq_true, Option.isNone_iff_eq_none] at hnothing
    rw [hnothing.1]
    rfl
  · rfl

/-- A collection names the properties that reports list for its class. -/
theorem mem_missingPaths_ofGroup {path : String} :
    path ∈ (ofGroup report group).missingPaths ↔
      ∃ r ∈ report.tiers, ⟨group.1, path⟩ ∈ r.missingOptional := by
  have hpaths : (ofGroup report group).missingPaths =
      (report.missingPathsFor group.1).eraseDups := by
    simp only [missingPaths, ofGroup, Compliance.ofReport?]
    split
    · rename_i hnothing
      simp only [Bool.and_eq_true, List.isEmpty_iff] at hnothing
      exact hnothing.2.symm
    · rfl
  rw [hpaths, List.mem_eraseDups, MaturityReport.mem_missingPathsFor]

end Collection

/-! ## Publications -/

section Publication

variable {engine : QueryEngine} {shapes : ShapeSet} {sparse : List String} {observer : Observer}
  {facts : FactSet} {publication : Publication}

/-- The collections of a publication are those of the target classes and of the other classes that
entries show, and each holds the entries of its class among those that validation returns. -/
theorem classes_of_validatePublication
    (h : (validatePublication engine shapes sparse observer facts .fresh).1 = .ok publication) :
    ∃ entries,
      ((⟨shapes, engine⟩ : Validator).validateAll observer facts.readForest .fresh).1 =
        .ok entries ∧
      publication.classes =
        (shapes.targetClasses ++ entries.map (·.cls)).eraseDups.map fun cls =>
          Collection.ofGroup publication.report
            (cls, entries.filter fun entry => entry.cls = cls) := by
  simp only [validatePublication] at h
  split at h
  · cases h
  · rename_i entries final hrun
    cases h
    exact ⟨entries, by rw [hrun], Collection.ofEntries_eq_map shapes _ entries⟩

/-- A score lists its tiers in ascending order, so a collection carries the lowest at which its
class is missing. -/
theorem Collection.missingTier?_score (shapes : ShapeSet) (facts : FactSet) (sparse : List String)
    (tally : Tally) (cls : String) (objects : List Entry) (tier : Tier) :
    (ofGroup (MaturityReport.score shapes facts sparse tally) (cls, objects)).missingTier? =
        some tier ↔
      IsLeast {t | ∃ r ∈ (MaturityReport.score shapes facts sparse tally).tiers, r.tier = t ∧
        cls ∈ r.missingClasses} tier := by
  have htiers : (MaturityReport.score shapes facts sparse tally).tiers =
      Tier.scored.map (MaturityReport.tierReport shapes facts sparse tally) := rfl
  have hset : {t | ∃ r ∈ (MaturityReport.score shapes facts sparse tally).tiers, r.tier = t ∧
        cls ∈ r.missingClasses} =
      {t | t ∈ Tier.scored ∧
        (MaturityReport.missingClasses shapes facts t).contains cls = true} := by
    ext t
    constructor
    · rintro ⟨r, hr, rfl, hcls⟩
      obtain ⟨scored, hscored, rfl⟩ := List.mem_map.1 hr
      exact ⟨hscored, List.contains_iff_mem.2 hcls⟩
    · rintro ⟨hscored, hcls⟩
      exact ⟨_, List.mem_map_of_mem hscored, rfl, List.contains_iff_mem.1 hcls⟩
  rw [hset, ← Tier.find?_eq_some_iff (by decide), missingTier?_ofGroup, htiers, List.find?_map,
    Option.map_map]
  exact iff_of_eq (congrArg (· = some tier) (congrFun Option.map_id _))

/-- A collection of entries of subjects of its class agrees with a score. -/
theorem Collection.agreesOnMissing_score (tally : Tally) {cls : String} {objects : List Entry}
    (hobjects : ∀ object ∈ objects, object.cls = cls ∧ object.CountsSubject facts shapes) :
    AgreesOnMissing (MaturityReport.score shapes facts sparse tally)
      (ofGroup (MaturityReport.score shapes facts sparse tally) (cls, objects)) := by
  have htier := missingTier?_score shapes facts sparse tally cls objects
  have hempty : (ofGroup (MaturityReport.score shapes facts sparse tally)
      (cls, objects)).missingTier?.isSome = true → objects = [] := by
    intro hmissing
    obtain ⟨tier, hsome⟩ := Option.isSome_iff_exists.1 hmissing
    obtain ⟨⟨r, hr, -, hcls⟩, -⟩ := (htier tier).1 hsome
    obtain ⟨scored, -, rfl⟩ := List.mem_map.1 hr
    -- An object would be one of a subject that is declared to be of the class.
    refine List.eq_nil_iff_forall_not_mem.2 fun object hobject => ?_
    obtain ⟨rfl, subject, hsubject, -⟩ := hobjects object hobject
    exact (MaturityReport.mem_missingClasses.1 hcls).2 subject
      (FactSet.declares_of_classOf? hsubject)
  refine ⟨htier, fun hmissing => ?_, fun path => mem_missingPaths_ofGroup, ?_⟩
  · obtain rfl := hempty hmissing
    exact ⟨rfl, rfl⟩
  · intro path hpath object hobject count hcount
    obtain ⟨r, hr, hunused⟩ := mem_missingPaths_ofGroup.1 hpath
    obtain ⟨scored, -, rfl⟩ := List.mem_map.1 hr
    obtain ⟨rfl, subject, hsubject, slot, hslot, hcounts⟩ := hobjects object hobject
    have hnone := MaturityReport.not_used_of_missing hunused
      (FactSet.declares_of_classOf? hsubject)
    exact FactSet.count_eq_zero hnone hslot (hcounts ▸ hcount)

/-- Missing items and collections never contradict each other: in a publication no collection of a
missing class has an object, and no object has a value of a missing property. Every missing item is
shown, since its class has a collection. -/
theorem missingItems_agree
    (h : (validatePublication engine shapes sparse observer facts .fresh).1 = .ok publication) :
    (∀ collection ∈ publication.classes, collection.AgreesOnMissing publication.report) ∧
      ∀ r ∈ publication.report.tiers,
        ∀ cls ∈ r.missingClasses ++ r.missingOptional.map (·.targetClass),
          ∃ collection ∈ publication.classes, collection.classUri = cls := by
  obtain ⟨entries, hentries, hclasses⟩ := classes_of_validatePublication h
  obtain ⟨-, -, hreport, -, -⟩ := validatePublication_ok h
  rw [hclasses, hreport]
  constructor
  · intro collection hcollection
    obtain ⟨cls, -, rfl⟩ := List.mem_map.1 hcollection
    refine Collection.agreesOnMissing_score _ fun object hobject => ?_
    obtain ⟨hentry, hcls⟩ := List.mem_filter.1 hobject
    exact ⟨of_decide_eq_true hcls, Validator.countsSubject_of_validateAll hentries object hentry⟩
  · intro r hr cls hcls
    obtain ⟨tier, -, rfl⟩ := List.mem_map.1 hr
    have htarget : cls ∈ shapes.targetClasses := MaturityReport.mem_targetClasses_of_missing hcls
    exact ⟨_, List.mem_map_of_mem (List.mem_eraseDups.2 (List.mem_append_left _ htarget)), rfl⟩

/-- A person may have a nickname. -/
def nicknameShape : NodeShape where
  id := "urn:NicknameShape"
  targetClass := "urn:Person"
  name := "Nickname"
  tier := none
  properties := [⟨"nickname", none, "urn:nickname", none, 0, none, some .niveau2, []⟩]
  constraints := []

/-- There is an office. -/
def officeShape : NodeShape where
  id := "urn:OfficeShape"
  targetClass := "urn:Office"
  name := "Office"
  tier := some .niveau3
  properties := []
  constraints := []

/-- Two persons have no nicknames and no office. -/
theorem missingItems_agree_acquaintances :
    ∃ publication,
      (validatePublication (fun _ => .ok []) ⟨[nicknameShape, officeShape]⟩ [] Observer.silent
        Validator.acquaintances .fresh).1 = .ok publication ∧
      publication.classes.map (fun c => (c.classUri, c.count, c.missingTier?, c.missingPaths)) =
        [("urn:Person", 2, none, ["urn:nickname"]), ("urn:Office", 0, some .niveau3, [])] ∧
      (∀ collection ∈ publication.classes, collection.AgreesOnMissing publication.report) ∧
      ∀ r ∈ publication.report.tiers,
        ∀ cls ∈ r.missingClasses ++ r.missingOptional.map (·.targetClass),
          ∃ collection ∈ publication.classes, collection.classUri = cls := by
  have hshown : (validatePublication (fun _ => .ok []) ⟨[nicknameShape, officeShape]⟩ []
      Observer.silent Validator.acquaintances .fresh).1.toOption.map (fun publication =>
        publication.classes.map fun c => (c.classUri, c.count, c.missingTier?, c.missingPaths)) =
      some [("urn:Person", 2, none, ["urn:nickname"]), ("urn:Office", 0, some .niveau3, [])] := by
    decide
  obtain ⟨publication, hpublication⟩ := validatePublication_accepted (fun _ => .ok [])
    ⟨[nicknameShape, officeShape]⟩ [] Observer.silent Validator.acquaintances fun _ => rfl
  rw [hpublication] at hshown
  exact ⟨publication, hpublication, Option.some.inj hshown, missingItems_agree hpublication⟩

end Publication

end PublicationAudit
