import PublicationAudit.Proofs.Collections
import PublicationAudit.Proofs.Maturity.Ledger
import PublicationAudit.Proofs.Validation.FlatReading

/-!
# Findings and collections

The findings of a maturity report are written down deep inside a walk, the collections are made
from what the walk returns. `findings_match_collections` says that they agree: at every scored tier
the findings are those that the collected entries show themselves, once each.
-/

namespace PublicationAudit

/-- The tier of the shape for which an entry is reported. -/
def Slot.tier (slot : Slot) : Option Tier := slot.shape.bind (·.tier)

namespace Validator

variable {facts : FactSet} {validator : Validator} {observer : Observer} {entries : List Entry}
  {γ : Type}

/-- The entries of a first copy are reported for shapes of these tiers. -/
theorem tiersOf_eq {copy : SubjectTree} (h : copy.IsCopy facts true) (validator : Validator) :
    validator.tiersOf copy.cls = (facts.slotsOf validator.shapes copy.node).map Slot.tier := by
  unfold tiersOf FactSet.slotsOf
  rw [h.cls, Option.elim_some]
  cases validator.shapes.shapesFor copy.cls with
  | nil => rfl
  | cons shape shapes => rw [List.map_map]; rfl

/-- A run reaches verdicts on the typed subjects and on nothing else. -/
theorem verdicts_keys_perm (hkeys : facts.KeysDistinct)
    (h : (validator.validateAll observer facts.readForest .fresh).1 = .ok entries) :
    (validator.validateAll observer facts.readForest .fresh).2.verdicts.keys.Perm
      (facts.typedSubjects.map Node.key) := by
  obtain ⟨hsound, -, verdicts, -, hverdicts⟩ := validateAll_explained hkeys h
  refine (List.perm_ext_iff_of_nodup (OrderedMap.nodup_keys_list _) hkeys).2 fun uri => ?_
  rw [OrderedMap.mem_keys_iff, List.mem_map]
  constructor
  · intro hknown
    -- A verdict is explained on a first copy, and a first copy is that of a typed subject.
    obtain ⟨verdict, hverdict⟩ := Option.isSome_iff_exists.1 hknown
    obtain ⟨copy, stack, hexplains⟩ := hsound.explained uri verdict hverdict
    obtain ⟨huri, hcopy⟩ := FirstCopies.isCopy_of_firstCopy hkeys hexplains.found
    exact ⟨copy.node, FactSet.mem_typedSubjects.2 (FactSet.isTyped_of_class hcopy.cls), huri⟩
  · rintro ⟨subject, hsubject, rfl⟩
    obtain ⟨verdict, -, hverdict, -⟩ := exists_of_forall₂ hverdicts hsubject
    exact Option.isSome_iff_exists.2 ⟨verdict, hverdict⟩

/-- After a run that was not stopped, a ledger holds the findings of the entries that the run
returns, once each. -/
theorem held_perm (ledger : Ledger γ) (hkeys : facts.KeysDistinct)
    (h : (validator.validateAll observer facts.readForest .fresh).1 = .ok entries) :
    (ledger.held (validator.validateAll observer facts.readForest .fresh).2.tally).Perm
      (((facts.slots validator.shapes).zip entries).flatMap fun pair =>
        ledger.ofEntry pair.1.tier pair.2) := by
  have hfound := held_perm_found ledger validator observer facts.readForest
  have hreached := verdicts_keys_perm hkeys h
  obtain ⟨-, -, verdicts, rfl, hverdicts⟩ := validateAll_explained hkeys h
  generalize (validator.validateAll observer facts.readForest .fresh).2 = final at *
  refine hfound.trans ?_
  -- The verdicts reached are those on the typed subjects, in another order.
  rw [OrderedMap.entries_eq_map_keys final.verdicts (.shaped [])]
  refine ((hreached.map _).flatMap_right _).trans (.of_eq ?_)
  rw [List.map_map, List.flatMap_map]
  refine flatMap_zip_flatMap (hverdicts.imp fun subject verdict hverdict => ?_)
  obtain ⟨hknown, copy, stack, rfl, hcopy, hexplains⟩ := hverdict
  have hreports := hcopy.reports validator (final.answersUnder stack)
  rw [← hexplains.given _ (RunState.allows_answersUnder _ stack)] at hreports
  refine ⟨hreports.length_eq, ?_⟩
  have hlookup : (final.verdicts.find? copy.node.key).getD (.shaped []) = verdict := by
    rw [show final.verdicts.find? copy.node.key = some verdict from hknown, Option.getD_some]
  simp only [Function.comp_apply, hlookup, Ledger.found, hexplains.found]
  rw [Ledger.ofEntries, tiersOf_eq hcopy, List.zip_map_left, List.flatMap_map]
  rfl

end Validator

/-! ## The findings of an audit -/

section Audit

variable {engine : QueryEngine} {shapes : ShapeSet} {sparse : List String} {observer : Observer}
  {facts : FactSet} {publication : Publication} {entries : List Entry} {tier : Tier}

/-- A publication is scored and grouped from what validation finds and returns. -/
theorem validatePublication_ok
    (h : (validatePublication engine shapes sparse observer facts .fresh).1 = .ok publication) :
    ∃ entries,
      ((⟨shapes, engine⟩ : Validator).validateAll observer facts.readForest .fresh).1 =
        .ok entries ∧
      publication.report = MaturityReport.score shapes facts sparse
        ((⟨shapes, engine⟩ : Validator).validateAll observer facts.readForest .fresh).2.tally ∧
      publication.maturity = publication.report.achieved ∧
      publication.objects.Perm entries := by
  simp only [validatePublication] at h
  split at h
  · cases h
  · rename_i entries final hrun
    cases h
    rw [hrun]
    exact ⟨entries, rfl, rfl, rfl, Collection.objects_perm shapes _ entries⟩

/-- An observer that always lets a run go on does not stop an audit. -/
theorem validatePublication_accepted (engine : QueryEngine) (shapes : ShapeSet)
    (sparse : List String) (observer : Observer) (facts : FactSet)
    (haccepts : ∀ progress, observer progress = .ok ()) :
    ∃ publication,
      (validatePublication engine shapes sparse observer facts .fresh).1 = .ok publication := by
  obtain ⟨entries, hentries⟩ : ∃ entries, ((⟨shapes, engine⟩ : Validator).validateAll observer
      facts.readForest .fresh).1 = .ok entries :=
    Validator.validateAll_accepted haccepts facts.readForest .fresh
  simp only [validatePublication]
  split
  · rename_i hrun
    rw [hrun] at hentries
    cases hentries
  · exact ⟨_, rfl⟩

/-- Every scored tier has its report. -/
theorem tier?_score (tally : Tally) (h : tier ∈ Tier.scored) :
    (MaturityReport.score shapes facts sparse tally).tier? tier =
      some (MaturityReport.tierReport shapes facts sparse tally tier) := by
  simp only [Tier.scored, List.mem_cons, List.not_mem_nil, or_false] at h
  rcases h with rfl | rfl | rfl <;> rfl

/-- The findings of a kind that only properties give rise to. -/
theorem flatMap_ofEntry_invalid {slots : List Slot} (h : entries.length ≤ slots.length) :
    ((slots.zip entries).flatMap fun pair => (Ledger.invalid tier).ofEntry pair.1.tier pair.2) =
      (entries.flatMap Entry.verdicts).filter (·.isInvalidAt tier) := by
  have hentry : ∀ (other : Option Tier) (entry : Entry),
      (Ledger.invalid tier).ofEntry other entry = entry.verdicts.filter (·.isInvalidAt tier) :=
    fun other entry => by
      show (entry.verdicts.flatMap fun v => if v.isInvalidAt tier then [v] else []) ++ [] = _
      rw [List.append_nil]
      induction entry.verdicts with
      | nil => rfl
      | cons verdict verdicts ih =>
          rw [List.flatMap_cons, ih]
          cases hinvalid : verdict.isInvalidAt tier <;> simp [hinvalid]
  simp only [hentry]
  rw [flatMap_zip_snd (fun entry : Entry => entry.verdicts.filter (·.isInvalidAt tier)) h,
    List.filter_flatMap]

/-- The findings of a kind that only shapes give rise to. -/
theorem ofEntry_failed (other : Option Tier) (entry : Entry) :
    (Ledger.failed tier).ofEntry other entry =
      if other = some tier then entry.violations else [] := by
  show (entry.verdicts.flatMap fun _ => []) ++ _ = _
  rw [List.flatMap_eq_nil_iff.2 fun _ _ => rfl, List.nil_append]
  rfl

/-- The invalid properties that a tally holds after a run are those of the entries. -/
theorem invalidAt_perm {validator : Validator} (hkeys : facts.KeysDistinct)
    (h : (validator.validateAll observer facts.readForest .fresh).1 = .ok entries) (tier : Tier) :
    ((validator.validateAll observer facts.readForest .fresh).2.tally.invalidAt tier).Perm
      ((entries.flatMap Entry.verdicts).filter (·.isInvalidAt tier)) := by
  have hlength := (Validator.reports_of_validateAll hkeys h).length_eq
  have hheld := Validator.held_perm (Ledger.invalid tier) hkeys h
  rwa [flatMap_ofEntry_invalid hlength.ge] at hheld

/-- The violations that a tally holds after a run are those of the entries for shapes of the
tier. -/
theorem failedAt_perm {validator : Validator} (hkeys : facts.KeysDistinct)
    (h : (validator.validateAll observer facts.readForest .fresh).1 = .ok entries) (tier : Tier) :
    ((validator.validateAll observer facts.readForest .fresh).2.tally.failedAt tier).Perm
      (((facts.slots validator.shapes).zip entries).flatMap fun pair =>
        if pair.1.tier = some tier then pair.2.violations else []) := by
  have hheld := Validator.held_perm (Ledger.failed tier) hkeys h
  simp only [ofEntry_failed] at hheld
  exact hheld

/-- After an audit that was not stopped, the collections hold the entries that validation returned,
one for each slot of the report, and at every scored tier the invalid properties of the maturity
report are those of the collected entries, and its violations those of the entries for shapes of the
tier. -/
theorem findings_match_collections (engine : QueryEngine) (shapes : ShapeSet)
    (sparse : List String) (observer : Observer) (facts : FactSet) (hkeys : facts.KeysDistinct)
    (publication : Publication)
    (h : (validatePublication engine shapes sparse observer facts .fresh).1 = .ok publication) :
    ∃ entries,
      ((⟨shapes, engine⟩ : Validator).validateAll observer facts.readForest .fresh).1 =
        .ok entries ∧
      List.Forall₂ (facts.Reports engine) (facts.slots shapes) entries ∧
      publication.objects.Perm entries ∧
      ∀ tier ∈ Tier.scored, ∃ report, publication.report.tier? tier = some report ∧
        report.invalid.Perm
          ((publication.objects.flatMap Entry.verdicts).filter (·.isInvalidAt tier)) ∧
        report.failed.Perm (((facts.slots shapes).zip entries).flatMap fun pair =>
          if pair.1.tier = some tier then pair.2.violations else []) := by
  obtain ⟨entries, hentries, hreport, -, hobjects⟩ := validatePublication_ok h
  have hreports := Validator.reports_of_validateAll hkeys hentries
  refine ⟨entries, hentries, hreports, hobjects, fun tier htier => ?_⟩
  have hinvalid := invalidAt_perm hkeys hentries tier
  have hsame := ((hobjects.flatMap_right Entry.verdicts).filter (·.isInvalidAt tier)).symm
  exact ⟨_, hreport ▸ tier?_score _ htier, hinvalid.trans hsame,
    failedAt_perm hkeys hentries tier⟩

/-- A person should know at least two persons. -/
def sociableShape : NodeShape where
  id := "urn:SociableShape"
  targetClass := "urn:Person"
  name := "Sociable"
  tier := some .niveau2
  properties := [⟨"knows", none, "urn:knows", some "urn:Person", 2, none, some .niveau2, []⟩]
  constraints := []

/-- Two persons who know each other alone are a finding each, also on the cycle. -/
theorem findings_match_collections_acquaintances :
    Validator.acquaintances.KeysDistinct ∧ ∃ publication,
      (validatePublication (fun _ => .ok []) ⟨[sociableShape]⟩ [] Observer.silent
        Validator.acquaintances .fresh).1 = .ok publication ∧
      ∃ report, publication.report.tier? .niveau2 = some report ∧
        report.invalid.Perm
          ((publication.objects.flatMap Entry.verdicts).filter (·.isInvalidAt .niveau2)) := by
  have hkeys : Validator.acquaintances.KeysDistinct := by decide
  obtain ⟨publication, h⟩ := validatePublication_accepted (fun _ => .ok []) ⟨[sociableShape]⟩ []
    Observer.silent Validator.acquaintances fun _ => rfl
  obtain ⟨entries, -, -, -, hfindings⟩ := findings_match_collections (fun _ => .ok [])
    ⟨[sociableShape]⟩ [] Observer.silent Validator.acquaintances hkeys publication h
  obtain ⟨report, hreport, hinvalid, -⟩ := hfindings .niveau2 (by decide)
  exact ⟨hkeys, publication, h, report, hreport, hinvalid⟩

example : (validatePublication (fun _ => .ok []) ⟨[sociableShape]⟩ [] Observer.silent
    Validator.acquaintances .fresh).2.tally.invalid.entries.map
      (fun group => (group.1, group.2.length)) = [(.niveau2, 2)] := by
  decide

end Audit

end PublicationAudit
