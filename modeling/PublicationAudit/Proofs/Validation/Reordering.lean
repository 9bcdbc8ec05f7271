import PublicationAudit.Proofs.FactOrder
import PublicationAudit.Proofs.Validation.FlatReading

/-!
# Reports of reordered facts

A report is the flat reading of the facts (`FactSet.Reports`), and the flat reading asks of the
facts only what sets that are alike agree on. The values of an entry may come in another order, and
a subject on a cycle may be folded in another place: `Entry.withoutValues` leaves the values out.
The main statements are `Alike.entriesOf_withoutValues`, which compares the entries of one subject,
and `Alike.entries_perm`, which compares whole reports.
-/

namespace PublicationAudit

/-- A verdict without the values that it reports. -/
def PropertyVerdict.withoutValues (verdict : PropertyVerdict) : PropertyVerdict :=
  { verdict with values := [] }

/-- An entry without the values that it reports; nothing is left of properties that are not
judged. -/
def Entry.withoutValues (entry : Entry) : Entry :=
  { entry with
    properties := match entry.properties with
      | .judged verdicts => .judged (verdicts.map PropertyVerdict.withoutValues)
      | .plain _ => .plain [] }

/-- The verdicts of an entry without values are its verdicts without values. -/
theorem Entry.verdicts_withoutValues (entry : Entry) :
    entry.withoutValues.verdicts = entry.verdicts.map PropertyVerdict.withoutValues := by
  unfold Entry.withoutValues Entry.verdicts
  cases entry.properties <;> rfl

/-- The entries of a report that have the identifier of a subject. -/
def entriesOf (entries : List Entry) (subject : Node) : List Entry :=
  entries.filter fun entry => entry.uri = subject.key

namespace FactSet

section FlatReading

variable {facts other : FactSet} {engine : QueryEngine} {subject : Node}

namespace Alike

variable (h : facts.Alike other)

include h

/-- The values of a property are the same facts, in some order. -/
theorem valueFacts_perm (subject : Node) (path : String) :
    (facts.valueFacts subject path).Perm (other.valueFacts subject path) := by
  rw [valueFacts, valueFacts, h.typesOf]
  exact h.perm.filter _

/-- So they are as many, also where distinct identifiers are counted. -/
theorem valueCount_eq (subject : Node) (path : String) :
    facts.valueCount subject path = other.valueCount subject path := by
  have hperm := h.valueFacts_perm subject path
  rw [valueCount, valueCount, hperm.length_eq, List.toFinset_eq_of_perm _ _ (hperm.map _)]

/-- The same facts lead outside. -/
theorem leadsOutside_iff {fact : Fact} : facts.LeadsOutside fact ↔ other.LeadsOutside fact := by
  rw [LeadsOutside, LeadsOutside, h.nests]

/-- The same facts nest a subject of a class. -/
theorem nestsClass_iff {required : String} {fact : Fact} :
    facts.NestsClass required fact ↔ other.NestsClass required fact := by
  rw [NestsClass, NestsClass, h.nests, h.classOf?]

/-- The values of a property have a class in both or in neither. -/
theorem meetsClass_iff {path required : String} :
    facts.MeetsClass subject path required ↔ other.MeetsClass subject path required := by
  have hperm := h.valueFacts_perm subject path
  have hempty : facts.valueFacts subject path = [] ↔ other.valueFacts subject path = [] := by
    rw [← List.length_eq_zero_iff, hperm.length_eq, List.length_eq_zero_iff]
  simp only [MeetsClass, ne_eq, hempty, hperm.mem_iff, h.leadsOutside_iff, h.nestsClass_iff]

/-- A property that is valid in one is valid in the other. -/
theorem conforms {shape : PropertyShape} (hconforms : facts.Conforms engine subject shape) :
    other.Conforms engine subject shape where
  min := h.valueCount_eq subject shape.path ▸ hconforms.min
  max := h.valueCount_eq subject shape.path ▸ hconforms.max
  cls := fun required hrequired => h.meetsClass_iff.1 (hconforms.cls required hrequired)
  written := by
    intro fact hfact
    exact hconforms.written fact ((h.valueFacts_perm subject shape.path).mem_iff.2 hfact)
  unviolated := hconforms.unviolated

/-- The same properties are valid. -/
theorem conforms_iff {shape : PropertyShape} :
    facts.Conforms engine subject shape ↔ other.Conforms engine subject shape :=
  ⟨h.conforms, h.symm.conforms⟩

/-- A subject is reported for the same shapes. -/
theorem slotsOf_eq (shapes : ShapeSet) : facts.slotsOf shapes = other.slotsOf shapes := by
  funext subject
  rw [slotsOf, slotsOf, h.classOf?]

/-- Reports have the same slots, in some order. -/
theorem slots_perm (shapes : ShapeSet) : (facts.slots shapes).Perm (other.slots shapes) := by
  rw [slots, slots, h.slotsOf_eq]
  exact h.typedSubjects_perm.flatMap_right _

/-- A subject shows as many properties. -/
theorem length_shownPaths (subject : Node) :
    (facts.shownPaths subject).length = (other.shownPaths subject).length := by
  have hreported : (facts.reportedFacts subject).Perm (other.reportedFacts subject) := by
    rw [reportedFacts, reportedFacts, factsFor_eq_filter, factsFor_eq_filter, h.isDocument]
    exact (h.perm.filter _).filter _
  exact (eraseDups_perm (hreported.map _)).length_eq

end Alike

end FlatReading

/-! ## Entries -/

section Entries

variable {facts other : FactSet} {engine : QueryEngine} {shapes : ShapeSet} {slot : Slot}
  {subject : Node} {entry otherEntry : Entry} {entries otherEntries : List Entry}

namespace Alike

variable (h : facts.Alike other)

include h

/-- Verdicts on a property are the same but for the values. -/
theorem withoutValues_of_judgedFlat {shape : PropertyShape} {verdict otherVerdict : PropertyVerdict}
    (hverdict : facts.JudgedFlat engine subject shape verdict)
    (hother : other.JudgedFlat engine subject shape otherVerdict) :
    verdict.withoutValues = otherVerdict.withoutValues := by
  have hvalid : verdict.valid = otherVerdict.valid :=
    Bool.eq_iff_iff.2 (hverdict.valid.trans (h.conforms_iff.trans hother.valid.symm))
  have hcount : verdict.actualCount = otherVerdict.actualCount := by
    rw [hverdict.actualCount, hother.actualCount, h.valueCount_eq]
  cases verdict
  cases otherVerdict
  simp only [PropertyVerdict.withoutValues, PropertyVerdict.mk.injEq]
  exact ⟨hverdict.name.trans hother.name.symm, hverdict.description.trans hother.description.symm,
    hverdict.path.trans hother.path.symm, hverdict.requiredClass.trans hother.requiredClass.symm,
    hverdict.minCount.trans hother.minCount.symm, hverdict.maxCount.trans hother.maxCount.symm,
    hcount, trivial, hvalid, hverdict.tier.trans hother.tier.symm,
    hverdict.violations.trans hother.violations.symm⟩

/-- So are entries for a shape. -/
theorem withoutValues_of_reportsShaped {shape : NodeShape} (huri : entry.uri = otherEntry.uri)
    (hcls : entry.cls = otherEntry.cls) (hname : entry.className = otherEntry.className)
    (hentry : facts.ReportsShaped engine subject shape entry)
    (hother : other.ReportsShaped engine subject shape otherEntry) :
    entry.withoutValues = otherEntry.withoutValues := by
  obtain ⟨verdicts, hjudged, hverdicts⟩ := hentry.judged
  obtain ⟨otherVerdicts, hotherJudged, hotherVerdicts⟩ := hother.judged
  have hsame : verdicts.map PropertyVerdict.withoutValues =
      otherVerdicts.map PropertyVerdict.withoutValues :=
    map_eq_of_forall₂_both hverdicts hotherVerdicts fun _ _ _ => h.withoutValues_of_judgedFlat
  have hvalid : (verdicts.filter (·.valid)).length = (otherVerdicts.filter (·.valid)).length := by
    have hlengths := congrArg (fun verdicts => (verdicts.filter (·.valid)).length) hsame
    simpa [List.filter_map, Function.comp_def, PropertyVerdict.withoutValues] using hlengths
  have hvalidCount : entry.validCount = otherEntry.validCount := by
    rw [hentry.validCount, hother.validCount, Entry.verdicts, Entry.verdicts, hjudged,
      hotherJudged]
    exact congrArg some hvalid
  have hshapeId := hentry.shapeId.trans hother.shapeId.symm
  have hshapeName := hentry.shapeName.trans hother.shapeName.symm
  have htotal := hentry.totalCount.trans hother.totalCount.symm
  have hviolations := hentry.violations.trans hother.violations.symm
  rw [Entry.withoutValues, Entry.withoutValues, hjudged, hotherJudged]
  simp only [huri, hcls, hname, hshapeId, hshapeName, htotal, hvalidCount, hviolations, hsame]

/-- So are entries without a shape. -/
theorem withoutValues_of_reportsPlain (huri : entry.uri = otherEntry.uri)
    (hcls : entry.cls = otherEntry.cls) (hname : entry.className = otherEntry.className)
    (hentry : facts.ReportsPlain subject entry) (hother : other.ReportsPlain subject otherEntry) :
    entry.withoutValues = otherEntry.withoutValues := by
  obtain ⟨_, hread, -⟩ := hentry.plain
  obtain ⟨_, hotherRead, -⟩ := hother.plain
  have hshapeId := hentry.shapeId.trans hother.shapeId.symm
  have hshapeName := hentry.shapeName.trans hother.shapeName.symm
  have hvalidCount := hentry.validCount.trans hother.validCount.symm
  have hviolations := hentry.violations.trans hother.violations.symm
  have htotal : entry.totalCount = otherEntry.totalCount := by
    rw [hentry.totalCount, hother.totalCount, h.length_shownPaths]
  rw [Entry.withoutValues, Entry.withoutValues, hread, hotherRead]
  simp only [huri, hcls, hname, hshapeId, hshapeName, htotal, hvalidCount, hviolations]

/-- Entries for the same slot are the same but for the values. -/
theorem withoutValues_of_reports (hentry : facts.Reports engine slot entry)
    (hother : other.Reports engine slot otherEntry) :
    entry.withoutValues = otherEntry.withoutValues := by
  have huri := hentry.uri.trans hother.uri.symm
  have hcls : entry.cls = otherEntry.cls :=
    Option.some.inj (hentry.cls.symm.trans (h.classOf? ▸ hother.cls))
  have hname : entry.className = otherEntry.className := by
    rw [hentry.className, hother.className, hcls]
  cases hshape : slot.shape with
  | some shape =>
      exact h.withoutValues_of_reportsShaped huri hcls hname (hentry.shaped shape hshape)
        (hother.shaped shape hshape)
  | none =>
      exact h.withoutValues_of_reportsPlain huri hcls hname (hentry.plain hshape)
        (hother.plain hshape)

end Alike

/-- The slots of a subject are for the subject. -/
theorem subject_of_mem_slotsOf (h : slot ∈ facts.slotsOf shapes subject) :
    slot.subject = subject := by
  unfold slotsOf at h
  split at h
  · rw [List.mem_singleton.1 h]
  · obtain ⟨shape, -, rfl⟩ := List.mem_map.1 h
    rfl

/-- Where identifiers are distinct, they tell the slots of a typed subject from those of others. -/
theorem slots_filter_key (hkeys : facts.KeysDistinct) (hsubject : facts.isTyped subject = true) :
    (facts.slots shapes).filter (fun slot => slot.subject.key = subject.key) =
      facts.slotsOf shapes subject := by
  rw [slots, List.filter_flatMap, flatMap_eq_of_unique (a := subject)
    (List.Nodup.of_map _ hkeys) (mem_typedSubjects.2 hsubject)]
  · refine List.filter_eq_self.2 fun slot hslot => ?_
    rw [subject_of_mem_slotsOf hslot, decide_eq_true_eq]
  · intro node hnode hne
    refine List.filter_eq_nil_iff.2 fun slot hslot hkey => hne ?_
    rw [subject_of_mem_slotsOf hslot, decide_eq_true_eq] at hkey
    exact hkeys.eq_of_key_eq (mem_typedSubjects.1 hnode) hsubject hkey

/-- The entries that have the identifier of a typed subject are those for its slots. -/
theorem reports_entriesOf (hkeys : facts.KeysDistinct) (hsubject : facts.isTyped subject = true)
    (hreports : List.Forall₂ (facts.Reports engine) (facts.slots shapes) entries) :
    List.Forall₂ (facts.Reports engine) (facts.slotsOf shapes subject)
      (entriesOf entries subject) := by
  rw [← slots_filter_key hkeys hsubject]
  exact List.rel_filter (fun slot entry hentry => by simp [hentry.uri]) hreports

/-- The entries of a typed subject are the same but for the values, in the same order. -/
theorem Alike.entriesOf_withoutValues (h : facts.Alike other) (hkeys : facts.KeysDistinct)
    (hsubject : facts.isTyped subject = true)
    (hreports : List.Forall₂ (facts.Reports engine) (facts.slots shapes) entries)
    (hother : List.Forall₂ (other.Reports engine) (other.slots shapes) otherEntries) :
    (entriesOf entries subject).map Entry.withoutValues =
      (entriesOf otherEntries subject).map Entry.withoutValues := by
  have hthese := reports_entriesOf hkeys hsubject hreports
  have hthose := reports_entriesOf (h.keysDistinct hkeys) (h.isTyped ▸ hsubject) hother
  rw [← h.slotsOf_eq] at hthose
  exact map_eq_of_forall₂_both hthese hthose fun _ _ _ => h.withoutValues_of_reports

/-- The entries of whole reports are the same but for the values, in some order. -/
theorem Alike.entries_perm (h : facts.Alike other)
    (hreports : List.Forall₂ (facts.Reports engine) (facts.slots shapes) entries)
    (hother : List.Forall₂ (other.Reports engine) (other.slots shapes) otherEntries) :
    (entries.map Entry.withoutValues).Perm (otherEntries.map Entry.withoutValues) := by
  -- The entries of one report, sorted by the slots of the other.
  obtain ⟨sorted, hsorted, hperm⟩ := List.perm_comp_forall₂ (h.slots_perm shapes).symm hreports
  have hsame : sorted.map Entry.withoutValues = otherEntries.map Entry.withoutValues :=
    map_eq_of_forall₂_both hsorted hother fun _ _ _ => h.withoutValues_of_reports
  exact hsame ▸ (hperm.map Entry.withoutValues).symm

end Entries

end FactSet

end PublicationAudit
