import PublicationAudit.Proofs.TypedSubjects

/-!
# The order of facts

The facts of a publication can be listed in many orders. Of two lists, `Reordered` says that they
hold the same facts and that each subject declares its classes in the same order in both. All that
is left of this in the fact sets is `FactSet.Alike` (see `Reordered.alike`): then the same subjects
are typed, under the same classes, and the same facts nest. Only the order in which subjects are
met may differ.
-/

namespace PublicationAudit

/-- Whether a fact declares a class of a subject. -/
def Fact.declares (subject : Node) (fact : Fact) : Bool :=
  fact.subject = subject ∧ fact.predicate = Vocabulary.rdfType

/-- The same facts in another order, in which every subject declares its classes as before. -/
structure Reordered (facts reordered : List Fact) : Prop where
  perm : facts.Perm reordered
  declarations : ∀ subject,
    facts.filter (Fact.declares subject) = reordered.filter (Fact.declares subject)

/-- It is enough to compare the declarations of the subjects of the facts. -/
theorem reordered_iff {facts reordered : List Fact} :
    Reordered facts reordered ↔ facts.Perm reordered ∧ ∀ fact ∈ facts,
      facts.filter (Fact.declares fact.subject) = reordered.filter (Fact.declares fact.subject) := by
  refine ⟨fun h => ⟨h.perm, fun fact _ => h.declarations fact.subject⟩, fun ⟨hperm, hsame⟩ =>
    ⟨hperm, fun subject => ?_⟩⟩
  by_cases hsubject : ∃ fact ∈ facts, fact.subject = subject
  · obtain ⟨fact, hfact, rfl⟩ := hsubject
    exact hsame fact hfact
  · -- Neither list has a fact of the subject.
    have hnone : facts.filter (Fact.declares subject) = [] :=
      List.filter_eq_nil_iff.2 fun fact hfact hdeclares => hsubject ⟨fact, hfact, by
        rw [Fact.declares, decide_eq_true_eq] at hdeclares
        exact hdeclares.1⟩
    have hsubset := hperm.filter (Fact.declares subject)
    rw [hnone] at hsubset ⊢
    exact hsubset.nil_eq

/-- Reordering is decided by comparing the lists. -/
instance (facts reordered : List Fact) : Decidable (Reordered facts reordered) :=
  decidable_of_iff _ reordered_iff.symm

namespace FactSet

/-- Sets of the same facts in which every subject declares the same classes in the same order. -/
structure Alike (facts other : FactSet) : Prop where
  perm : facts.toList.Perm other.toList
  typesOf : facts.typesOf = other.typesOf

end FactSet

/-- Reordered facts make sets that are alike. -/
theorem Reordered.alike {facts reordered : List Fact} (h : Reordered facts reordered) :
    (FactSet.ofList facts).Alike (.ofList reordered) where
  perm := by
    rw [FactSet.toList_ofList, FactSet.toList_ofList]
    exact eraseDups_perm h.perm
  typesOf := by
    funext subject
    have hsame : (FactSet.ofList facts).toList.filter (Fact.declares subject) =
        (FactSet.ofList reordered).toList.filter (Fact.declares subject) := by
      rw [FactSet.toList_ofList, FactSet.toList_ofList, filter_eraseDups, filter_eraseDups,
        h.declarations]
    rw [FactSet.typesOf_eq_declaredClasses, FactSet.typesOf_eq_declaredClasses]
    exact congrArg (List.filterMap fun fact => fact.object.iri?) hsame

namespace FactSet.Alike

variable {facts other : FactSet} (h : facts.Alike other)

include h

/-- Being alike goes both ways. -/
theorem symm : other.Alike facts := ⟨h.perm.symm, h.typesOf.symm⟩

/-- The same subjects are typed. -/
theorem isTyped : facts.isTyped = other.isTyped := by
  funext subject
  rw [FactSet.isTyped, FactSet.isTyped, h.typesOf]

/-- The same subjects are documents. -/
theorem isDocument : facts.isDocument = other.isDocument := by
  funext subject
  rw [FactSet.isDocument, FactSet.isDocument, h.typesOf]

/-- Subjects are read under the same classes. -/
theorem classOf? : facts.classOf? = other.classOf? := by
  funext subject
  rw [FactSet.classOf?, FactSet.classOf?, h.isDocument, h.typesOf]

/-- The same facts nest. -/
theorem nests : facts.nests = other.nests := by
  funext fact
  rw [FactSet.nests, FactSet.nests, h.isTyped]

/-- The typed subjects are the same, met in another order. -/
theorem typedSubjects_perm : facts.typedSubjects.Perm other.typedSubjects := by
  rw [typedSubjects, typedSubjects, subjects_eq_eraseDups, subjects_eq_eraseDups, h.isTyped]
  exact (eraseDups_perm (h.perm.map _)).filter _

/-- So identifiers tell them apart in both or in neither. -/
theorem keysDistinct (hkeys : facts.KeysDistinct) : other.KeysDistinct :=
  (h.typedSubjects_perm.map Node.key).nodup_iff.1 hkeys

end FactSet.Alike

end PublicationAudit
