import Mathlib.Algebra.GroupWithZero.Nat
import PublicationAudit.Proofs.FirstMentions
import PublicationAudit.Proofs.Forest.Faithfulness
import PublicationAudit.Proofs.Validation.Reordering

/-!
# Subjects that no shape targets

A subject whose class no shape targets is reported and not judged. `AccountsFor` says that readings
leave out none of the facts of a list and count none twice; that they add up to the list is read off
it. The main statement is `validateAll_reports_unshaped`.
-/

namespace PublicationAudit

/-- The numbers of elements of the keys add up to the number of all. -/
theorem sum_countP_keys {α κ : Type} [DecidableEq κ] (key : α → κ) {keys : List κ}
    (hnodup : keys.Nodup) {elements : List α} (hcover : ∀ a ∈ elements, key a ∈ keys) :
    (keys.map fun k => elements.countP (key · = k)).sum = elements.length := by
  have hparts := (flatMap_filter_perm key hnodup hcover).length_eq
  rw [List.length_flatMap] at hparts
  simpa only [List.countP_eq_length_filter] using hparts

/-- Readings account for facts: there is one for each predicate, in the order in which the facts
first mention them, with the number of facts that have it. -/
structure AccountsFor (facts : List Fact) (readings : List PropertyReading) : Prop where
  paths : FirstMentions (fun _ => True) (facts.map (·.predicate)) (readings.map (·.path))
  names : ∀ reading ∈ readings, reading.name = shortName reading.path
  counts : ∀ reading ∈ readings,
    reading.actualCount = facts.countP fun fact => fact.predicate = reading.path

namespace AccountsFor

variable {facts : List Fact} {readings : List PropertyReading}

/-- There are as many readings as distinct predicates. -/
theorem length_eq (h : AccountsFor facts readings) :
    readings.length = (facts.map (·.predicate)).toFinset.card := by
  rw [← List.length_map, ← List.toFinset_card_of_nodup h.paths.nodup]
  congr 1
  ext path
  rw [List.mem_toFinset, List.mem_toFinset, h.paths.mem_iff, and_true]

/-- No fact is left out, and none is counted twice. -/
theorem sum_actualCount (h : AccountsFor facts readings) :
    (readings.map (·.actualCount)).sum = facts.length := by
  have hcover : ∀ fact ∈ facts, fact.predicate ∈ readings.map (·.path) := fun fact hfact =>
    (h.paths.mem_iff _).2 ⟨List.mem_map.2 ⟨fact, hfact, rfl⟩, trivial⟩
  have hcounts : readings.map (·.actualCount) = (readings.map (·.path)).map fun path =>
      facts.countP fun fact => fact.predicate = path := by
    rw [List.map_map]
    exact List.map_congr_left h.counts
  rw [hcounts, sum_countP_keys (fun fact : Fact => fact.predicate) h.paths.nodup hcover]

end AccountsFor

namespace FactSet

variable {facts : FactSet} {subject : Node} {entry : Entry}

/-- The readings of an entry without a shape account for the facts that copies of its subject
render. -/
theorem ReportsPlain.accountsFor (h : facts.ReportsPlain subject entry) :
    ∃ readings, entry.properties = .plain readings ∧
      AccountsFor (facts.renderedFacts subject) readings := by
  obtain ⟨readings, hproperties, hreadings⟩ := h.plain
  have hpaths : readings.map (·.path) = (facts.shownPaths subject).map id :=
    map_eq_of_forall₂ hreadings fun _ _ hreading => hreading.1
  rw [List.map_id, shownPaths, reportedFacts_eq_renderedFacts] at hpaths
  have hread : ∀ reading ∈ readings, reading.name = shortName reading.path ∧
      reading.actualCount =
        (facts.renderedFacts subject).countP fun fact => fact.predicate = reading.path := by
    intro reading hreading
    obtain ⟨path, -, hpath, hname, hcount⟩ := exists_of_forall₂ hreadings.flip hreading
    rw [hname, hcount, ← hpath, valueFacts_eq, reportedFacts_eq_renderedFacts,
      List.countP_eq_length_filter]
    exact ⟨rfl, rfl⟩
  exact ⟨readings, hproperties, hpaths ▸ firstMentions_all _, fun reading hreading =>
    (hread reading hreading).1, fun reading hreading => (hread reading hreading).2⟩

/-- A subject whose class no shape targets is reported once, without a shape. -/
theorem slotsOf_eq_of_unshaped {shapes : ShapeSet} {cls : String}
    (hcls : facts.classOf? subject = some cls)
    (hunshaped : ∀ shape ∈ shapes.shapes, shape.targetClass ≠ cls) :
    facts.slotsOf shapes subject = [⟨subject, none⟩] := by
  have hnone : shapes.shapesFor cls = [] := List.filter_eq_nil_iff.2 fun shape hshape => by
    simpa using hunshaped shape hshape
  rw [slotsOf, hcls, Option.elim_some, hnone]

end FactSet

namespace Validator

/-- A run over facts with distinct identifiers, which its observer does not stop, loses nothing of a
subject whose class no shape targets. The subject has one entry, under its class and without a
verdict. The properties of the entry account for the facts that are shown of the subject, which are
all but declarations of classes, and those too if it is a document: there is one for each predicate,
and together they count every fact once, wherever the walk met the subject first. -/
theorem validateAll_reports_unshaped (facts : FactSet) (hkeys : facts.KeysDistinct)
    (validator : Validator) (observer : Observer)
    (haccepts : ∀ progress, observer progress = .ok ()) :
    ∃ entries, (validator.validateAll observer facts.readForest .fresh).1 = .ok entries ∧
      ∀ subject cls, facts.classOf? subject = some cls →
        (∀ shape ∈ validator.shapes.shapes, shape.targetClass ≠ cls) →
          ∃ entry readings, entriesOf entries subject = [entry] ∧
            entry.cls = cls ∧ entry.className = shortName cls ∧
            entry.shapeId = none ∧ entry.shapeName = none ∧
            entry.validCount = none ∧ entry.violations = [] ∧
            entry.properties = .plain readings ∧
            AccountsFor (facts.renderedFacts subject) readings ∧
            entry.totalCount = readings.length ∧
            entry.totalCount =
              ((facts.renderedFacts subject).map (·.predicate)).toFinset.card ∧
            (readings.map (·.actualCount)).sum = (facts.renderedFacts subject).length := by
  obtain ⟨entries, hentries⟩ := validateAll_accepted haccepts facts.readForest .fresh
  refine ⟨entries, hentries, fun subject cls hcls hunshaped => ?_⟩
  have hthese := FactSet.reports_entriesOf hkeys (FactSet.isTyped_of_class hcls)
    (reports_of_validateAll hkeys hentries)
  rw [FactSet.slotsOf_eq_of_unshaped hcls hunshaped] at hthese
  obtain ⟨entry, rest, hreport, hrest, hentry⟩ := List.forall₂_cons_left_iff.1 hthese
  rw [List.forall₂_nil_left_iff.1 hrest] at hentry
  have hplain := hreport.plain rfl
  have hclass : entry.cls = cls := Option.some.inj (hreport.cls.symm.trans hcls)
  obtain ⟨readings, hproperties, haccounts⟩ := hplain.accountsFor
  have htotal : entry.totalCount = readings.length := by
    obtain ⟨others, hothers, hreadings⟩ := hplain.plain
    cases hproperties.symm.trans hothers
    rw [hplain.totalCount, hreadings.length_eq]
  exact ⟨entry, readings, hentry, hclass, hclass ▸ hreport.className, hplain.shapeId,
    hplain.shapeName, hplain.validCount, hplain.violations, hproperties, haccounts, htotal,
    htotal.trans haccounts.length_eq, haccounts.sum_actualCount⟩

/-- A person who opened a meeting that is held by the person, stated as a node and as a text. -/
def openedMeeting : FactSet := .ofList
  [⟨.iri "urn:a", Vocabulary.rdfType, .iri "urn:Person"⟩,
    ⟨.iri "urn:a", "urn:opened", .iri "urn:m"⟩,
    ⟨.iri "urn:m", Vocabulary.rdfType, .iri "urn:Meeting"⟩,
    ⟨.iri "urn:m", Vocabulary.isGehoudenDoor, .iri "urn:a"⟩,
    ⟨.iri "urn:m", "urn:title", .plain "budget"⟩,
    ⟨.iri "urn:m", Vocabulary.isGehoudenDoor, .plain "urn:a"⟩]

/-- The meeting, which the walk meets inside the person, shows two properties with three values in
all. The same body counts once for a shape, and twice here. -/
theorem validateAll_reports_unshaped_meeting :
    let meeting : Node := .iri "urn:m"
    openedMeeting.KeysDistinct ∧ (∀ progress, Observer.silent progress = .ok ()) ∧
      openedMeeting.classOf? meeting = some "urn:Meeting" ∧
      (∀ shape ∈ [personShape], shape.targetClass ≠ "urn:Meeting") ∧
      openedMeeting.valueCount meeting Vocabulary.isGehoudenDoor = 1 ∧
      ∃ entries, ((⟨⟨[personShape]⟩, fun _ => .ok []⟩ : Validator).validateAll Observer.silent
          openedMeeting.readForest .fresh).1 = .ok entries ∧
        ∃ entry readings, entriesOf entries meeting = [entry] ∧
          entry.properties = .plain readings ∧ entry.totalCount = 2 ∧
          (∀ reading ∈ readings, reading.path = Vocabulary.isGehoudenDoor →
            reading.actualCount = 2) ∧
          (readings.map (·.actualCount)).sum = 3 := by
  have hunshaped : ∀ shape ∈ [personShape], shape.targetClass ≠ "urn:Meeting" := by decide
  obtain ⟨entries, hentries, hthese⟩ := validateAll_reports_unshaped openedMeeting (by decide)
    ⟨⟨[personShape]⟩, fun _ => .ok []⟩ Observer.silent fun _ => rfl
  obtain ⟨entry, readings, hentry, -, -, -, -, -, -, hproperties, haccounts, -, htotal, hsum⟩ :=
    hthese (.iri "urn:m") "urn:Meeting" (by decide) hunshaped
  refine ⟨by decide, fun _ => rfl, by decide, hunshaped, by decide, entries, hentries, entry,
    readings, hentry, hproperties, htotal.trans (by decide), fun reading hreading hpath => ?_,
    hsum.trans (by decide)⟩
  rw [haccounts.counts reading hreading, hpath]
  decide

end Validator

end PublicationAudit
