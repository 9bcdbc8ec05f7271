import PublicationAudit.Forest
import PublicationAudit.Proofs.FactHistory

/-!
# Typed subjects

The subjects that declare a class are the ones that a forest shows. This module says which they are,
which of them are instances of a class, when their identifiers tell them apart (`KeysDistinct`), and
which facts nest one of them in another (`nests`): all of it is read off the facts alone.
-/

namespace PublicationAudit

namespace FactSet

variable {facts : FactSet} {subject other object : Node} {fact : Fact} {predicate cls : String}

/-- The classes that the facts declare of a subject, in order. Only IRIs name classes. -/
def declaredClasses (facts : FactSet) (subject : Node) : List String :=
  (facts.toList.filter fun f => f.subject = subject ∧ f.predicate = Vocabulary.rdfType).filterMap
    (·.object.iri?)

/-- The classes of a subject are those that the facts declare. -/
theorem typesOf_eq_declaredClasses (facts : FactSet) (subject : Node) :
    facts.typesOf subject = facts.declaredClasses subject := by
  rw [typesOf, objects_eq_scan, declaredClasses, List.filterMap_map]
  rfl

/-- The instances of a class are the subjects of its declarations. -/
theorem mem_instancesOf :
    subject ∈ facts.instancesOf cls ↔ ⟨subject, Vocabulary.rdfType, .iri cls⟩ ∈ facts.toList := by
  simp only [instancesOf, List.mem_map, List.mem_filter, decide_eq_true_eq]
  constructor
  · rintro ⟨⟨_, _, _⟩, ⟨hfact, rfl, rfl⟩, rfl⟩
    exact hfact
  · exact fun hfact => ⟨_, ⟨hfact, rfl, rfl⟩, rfl⟩

/-- The objects of a subject for a predicate are those of its facts. -/
theorem mem_objects :
    object ∈ facts.objects subject predicate ↔ ⟨subject, predicate, object⟩ ∈ facts.toList := by
  simp only [objects_eq_scan, List.mem_map, List.mem_filter, decide_eq_true_eq]
  constructor
  · rintro ⟨⟨_, _, _⟩, ⟨hfact, rfl, rfl⟩, rfl⟩
    exact hfact
  · exact fun hfact => ⟨_, ⟨hfact, rfl, rfl⟩, rfl⟩

/-- A class has an instance when a fact declares one. -/
theorem hasInstance_iff : facts.hasInstance cls = true ↔
    ∃ subject, ⟨subject, Vocabulary.rdfType, .iri cls⟩ ∈ facts.toList := by
  rw [hasInstance, Bool.not_eq_true', List.isEmpty_eq_false_iff_exists_mem]
  exact exists_congr fun subject => mem_instancesOf

/-- Whether a subject declares a class. -/
def isTyped (facts : FactSet) (subject : Node) : Bool := !(facts.typesOf subject).isEmpty

/-- The subjects that declare a class, in the order of their first fact. -/
def typedSubjects (facts : FactSet) : List Node := facts.subjects.filter facts.isTyped

/-- No two typed subjects are reported under one identifier. -/
def KeysDistinct (facts : FactSet) : Prop := (facts.typedSubjects.map Node.key).Nodup

/-- Distinct identifiers are decided by comparing them. -/
instance (facts : FactSet) : Decidable facts.KeysDistinct :=
  inferInstanceAs (Decidable (List.Nodup _))

/-- Whether a fact leads to a typed subject that is nested there: a property other than the class
whose object is no literal and declares a class. -/
def nests (facts : FactSet) (fact : Fact) : Bool :=
  fact.predicate ≠ Vocabulary.rdfType && !fact.object.isLiteral && facts.isTyped fact.object

/-- The parts of a nesting fact. -/
theorem nests_iff :
    facts.nests fact = true ↔ fact.predicate ≠ Vocabulary.rdfType ∧
      fact.object.isLiteral = false ∧ facts.isTyped fact.object = true := by
  simp [nests, and_assoc]

/-- A subject has a class to be read under exactly when it declares one. -/
theorem isSome_classOf? : (facts.classOf? subject).isSome = facts.isTyped subject := by
  unfold classOf? isDocument isTyped
  cases h : facts.typesOf subject with
  | nil => rfl
  | cons cls rest => split <;> rfl

/-- A subject with a class to be read under declares one. -/
theorem isTyped_of_class (h : facts.classOf? subject = some cls) :
    facts.isTyped subject = true := by
  rw [← isSome_classOf?, h]
  rfl

/-- A subject without a class to be read under declares none. -/
theorem isTyped_of_no_class (h : facts.classOf? subject = none) :
    facts.isTyped subject = false := by
  rw [← isSome_classOf?, h]
  rfl

/-- The subjects are those of the facts. -/
theorem mem_subjects : subject ∈ facts.subjects ↔ ∃ f ∈ facts.toList, f.subject = subject := by
  rw [subjects_eq_eraseDups, List.mem_eraseDups, List.mem_map]

/-- A declared class comes from a fact of the subject. -/
theorem exists_fact_of_typed (h : facts.isTyped subject = true) :
    ∃ f ∈ facts.factsFor subject, f.predicate = Vocabulary.rdfType := by
  unfold isTyped typesOf objects at h
  by_contra hnone
  have hfilter : (facts.factsFor subject).filter (·.predicate = Vocabulary.rdfType) = [] :=
    List.filter_eq_nil_iff.2 fun f hf hp => hnone ⟨f, hf, by simpa using hp⟩
  simp [hfilter] at h

/-- A typed subject is a subject of the facts. -/
theorem mem_subjects_of_typed (h : facts.isTyped subject = true) : subject ∈ facts.subjects := by
  obtain ⟨f, hf, -⟩ := exists_fact_of_typed h
  rw [factsFor_eq_filter, List.mem_filter] at hf
  exact mem_subjects.2 ⟨f, hf.1, by simpa using hf.2⟩

/-- The typed subjects are all that declare a class. -/
theorem mem_typedSubjects : subject ∈ facts.typedSubjects ↔ facts.isTyped subject = true := by
  rw [typedSubjects, List.mem_filter]
  exact ⟨And.right, fun h => ⟨mem_subjects_of_typed h, h⟩⟩

/-- Where identifiers are distinct, one identifier means one typed subject. -/
theorem KeysDistinct.eq_of_key_eq (h : facts.KeysDistinct) (hs : facts.isTyped subject = true)
    (ho : facts.isTyped other = true) (hkey : subject.key = other.key) : subject = other :=
  List.inj_on_of_nodup_map h (mem_typedSubjects.2 hs) (mem_typedSubjects.2 ho) hkey

/-- A reported fact is a fact of its subject. -/
theorem mem_of_mem_reportedFacts (h : fact ∈ facts.reportedFacts subject) :
    fact ∈ facts.toList ∧ fact.subject = subject := by
  have hfact := (List.mem_filter.1 h).1
  rw [factsFor_eq_filter, List.mem_filter] at hfact
  exact ⟨hfact.1, by simpa using hfact.2⟩

end FactSet

end PublicationAudit
