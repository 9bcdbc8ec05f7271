import PublicationAudit.Proofs.Forest.Copies
import PublicationAudit.Proofs.Lists

/-!
# Copies are faithful to the facts

Every copy in a forest, at any depth, has the class that the facts give its subject and renders the
facts of its subject one by one. Copies of one subject differ in nothing but which objects they
nest: with nested subjects folded to their identifiers they are equal. The main statement is
`readForest_faithful`; it is read off the plain list of facts.
-/

namespace PublicationAudit

namespace FactSet

/-- The facts that a copy renders: those of its subject, where declarations of classes are rendered
for a document only. -/
def renderedFacts (facts : FactSet) (subject : Node) : List Fact :=
  facts.toList.filter fun f => f.subject = subject ∧
    (f.predicate = Vocabulary.rdfType → Vocabulary.document ∈ facts.declaredClasses subject)

end FactSet

/-- How a target renders a fact. A declaration of a class is a reference, a literal is its text, and
any other object is referred to or nested. -/
inductive EdgeTarget.Renders (fact : Fact) : EdgeTarget → Prop where
  | declaration (htype : fact.predicate = Vocabulary.rdfType) :
      Renders fact (.reference fact.object.key)
  | literal (text : String) (datatype language : Option String)
      (hproperty : fact.predicate ≠ Vocabulary.rdfType)
      (hobject : fact.object = .literal text datatype language) : Renders fact (.literal text)
  | reference (hproperty : fact.predicate ≠ Vocabulary.rdfType)
      (hobject : fact.object.isLiteral = false) : Renders fact (.reference fact.object.key)
  | nested (tree : SubjectTree) (hproperty : fact.predicate ≠ Vocabulary.rdfType)
      (hobject : fact.object.isLiteral = false) (hnode : tree.node = fact.object) :
      Renders fact (.nested tree)

/-- How an edge renders a fact. -/
def Edge.Renders (fact : Fact) (edge : Edge) : Prop :=
  edge.path = fact.predicate ∧ edge.target.Renders fact

/-- A copy that has the class of its subject, the document class if it is declared and else the one
declared first, and renders the facts of its subject each once and in order. -/
structure SubjectTree.IsFaithful (facts : FactSet) (copy : SubjectTree) : Prop where
  cls : some copy.cls =
    if Vocabulary.document ∈ facts.declaredClasses copy.node then some Vocabulary.document
    else (facts.declaredClasses copy.node).head?
  edges : List.Forall₂ Edge.Renders (facts.renderedFacts copy.node) copy.edges

/-! ## Folding nested subjects -/

/-- A target with a nested subject replaced by its identifier. -/
def EdgeTarget.folded : EdgeTarget → EdgeTarget
  | .nested tree => .reference tree.uri
  | target => target

/-- An edge with a nested subject replaced by its identifier. -/
def Edge.folded (edge : Edge) : Edge := ⟨edge.path, edge.target.folded⟩

/-- A copy with every nested subject replaced by its identifier. -/
def SubjectTree.folded (copy : SubjectTree) : SubjectTree :=
  ⟨copy.node, copy.cls, copy.edges.map Edge.folded⟩

/-- The edge that renders a fact without nesting anything. -/
def Fact.foldedEdge (fact : Fact) : Edge :=
  ⟨fact.predicate,
    if fact.predicate ≠ Vocabulary.rdfType ∧ fact.object.isLiteral = true then
      .literal fact.object.lexical
    else .reference fact.object.key⟩

variable {facts : FactSet} {fact : Fact} {edge : Edge} {isFirst : Bool} {copy : SubjectTree}

/-- However an edge renders a fact, it folds to the same. -/
theorem Edge.Renders.folded_eq (h : edge.Renders fact) : edge.folded = fact.foldedEdge := by
  obtain ⟨path, target⟩ := edge
  obtain ⟨rfl, htarget⟩ := h
  simp only [Edge.folded, Fact.foldedEdge, Edge.mk.injEq, true_and]
  cases htarget with
  | declaration htype => simp [EdgeTarget.folded, htype]
  | literal text datatype language hproperty hobject =>
      simp [EdgeTarget.folded, hproperty, hobject, Node.isLiteral, Node.lexical]
  | reference hproperty hobject => simp [EdgeTarget.folded, hobject]
  | nested tree hproperty hobject hnode =>
      simp [EdgeTarget.folded, hobject, SubjectTree.uri, hnode]

/-- A faithful copy folds to what the facts say of its subject. -/
theorem SubjectTree.IsFaithful.folded_edges (h : copy.IsFaithful facts) :
    copy.folded.edges = (facts.renderedFacts copy.node).map Fact.foldedEdge :=
  map_eq_of_forall₂ h.edges fun _ _ hrenders => hrenders.folded_eq

/-- Faithful copies of one subject fold to the same. -/
theorem SubjectTree.IsFaithful.folded_eq {other : SubjectTree} (h : copy.IsFaithful facts)
    (hother : other.IsFaithful facts) (hnode : copy.node = other.node) :
    copy.folded = other.folded := by
  have hcls : copy.cls = other.cls :=
    Option.some.inj (h.cls.trans (hnode ▸ hother.cls.symm))
  have hedges : copy.folded.edges = other.folded.edges := by
    rw [h.folded_edges, hother.folded_edges, hnode]
  show SubjectTree.mk copy.node copy.cls copy.folded.edges = _
  rw [hnode, hcls, hedges]
  rfl

/-! ## The copies in a forest -/

namespace FactSet

/-- The reported facts of a subject are those that its copies render. -/
theorem reportedFacts_eq_renderedFacts (facts : FactSet) (subject : Node) :
    facts.reportedFacts subject = facts.renderedFacts subject := by
  rw [reportedFacts, factsFor_eq_filter, renderedFacts, List.filter_filter]
  refine List.filter_congr fun f _ => ?_
  rw [isDocument, typesOf_eq_declaredClasses]
  by_cases htype : f.predicate = Vocabulary.rdfType <;> by_cases hsubject : f.subject = subject <;>
    simp [htype, hsubject]

/-- The class of a subject in terms of the classes that the facts declare. -/
theorem classOf?_eq (facts : FactSet) (subject : Node) :
    facts.classOf? subject =
      if Vocabulary.document ∈ facts.declaredClasses subject then some Vocabulary.document
      else (facts.declaredClasses subject).head? := by
  rw [classOf?, isDocument, typesOf_eq_declaredClasses]
  simp only [List.contains_iff_mem]

/-- A subject is typed when a fact declares an IRI as its class. -/
theorem isTyped_iff {subject : Node} : facts.isTyped subject = true ↔
    ∃ f ∈ facts.toList, f.subject = subject ∧ f.predicate = Vocabulary.rdfType ∧
      f.object.iri?.isSome = true := by
  rw [isTyped, typesOf_eq_declaredClasses, Bool.not_eq_true', List.isEmpty_eq_false_iff_exists_mem]
  simp only [declaredClasses, List.mem_filterMap, List.mem_filter, decide_eq_true_eq,
    Option.isSome_iff_exists]
  constructor
  · rintro ⟨cls, f, ⟨hf, hsubject, htype⟩, hcls⟩
    exact ⟨f, hf, hsubject, htype, cls, hcls⟩
  · rintro ⟨f, hf, hsubject, htype, cls, hcls⟩
    exact ⟨cls, f, ⟨hf, hsubject, htype⟩, hcls⟩

end FactSet

/-- What shows a fact renders it. -/
theorem EdgeTarget.Shows.renders {target : EdgeTarget} (h : target.Shows facts isFirst fact) :
    target.Renders fact := by
  cases target with
  | literal text =>
      obtain ⟨hproperty, hliteral, rfl⟩ := h
      cases hobject : fact.object with
      | iri text | blank label => simp [hobject, Node.isLiteral] at hliteral
      | literal text datatype language => exact .literal text datatype language hproperty hobject
  | reference key =>
      obtain ⟨rfl, hliteral, -⟩ := h
      by_cases htype : fact.predicate = Vocabulary.rdfType
      · exact .declaration htype
      · exact .reference htype (by simpa using fun hobject => htype (hliteral hobject))
  | nested tree =>
      obtain ⟨hproperty, hobject, -⟩ := FactSet.nests_iff.1 h.2.1
      exact .nested tree hproperty hobject h.2.2.1

/-- A copy is faithful, whether it is a first one or not. -/
theorem SubjectTree.IsCopy.isFaithful (h : copy.IsCopy facts isFirst) : copy.IsFaithful facts where
  cls := by rw [← facts.classOf?_eq, h.cls]
  edges := by
    rw [← facts.reportedFacts_eq_renderedFacts]
    exact h.edges.imp fun _ _ hshows => ⟨hshows.1, hshows.2.renders⟩

/-- Copies met one after the other are copies each. -/
theorem CopiesAfter.isCopy {met : List Node} {copies : List SubjectTree}
    (h : CopiesAfter facts met copies) : ∀ copy ∈ copies, ∃ isFirst, copy.IsCopy facts isFirst := by
  induction copies generalizing met with
  | nil => simp
  | cons head copies ih =>
      intro copy hcopy
      rcases List.mem_cons.1 hcopy with rfl | hrest
      · exact ⟨_, h.1⟩
      · exact ih h.2 copy hrest

/-- A forest has one root for each subject with a declared class, in the order of their first
facts, and no other. Every copy in it is faithful to the facts, and copies of one subject are equal
once nested subjects are replaced by their identifiers. -/
theorem readForest_faithful (facts : FactSet) :
    facts.readForest.map (·.node) =
        (facts.toList.map (·.subject)).eraseDups.filter (fun subject =>
          ∃ f ∈ facts.toList, f.subject = subject ∧ f.predicate = Vocabulary.rdfType ∧
            f.object.iri?.isSome = true) ∧
      (∀ copy ∈ facts.readForest.flatMap SubjectTree.copies, copy.IsFaithful facts) ∧
      ∀ copy ∈ facts.readForest.flatMap SubjectTree.copies,
        ∀ other ∈ facts.readForest.flatMap SubjectTree.copies, copy.node = other.node →
          copy.folded = other.folded := by
  have hfaithful : ∀ copy ∈ facts.readForest.flatMap SubjectTree.copies,
      copy.IsFaithful facts := fun copy hcopy => by
    obtain ⟨isFirst, hisCopy⟩ := (readForest_copies facts).isCopy copy hcopy
    exact hisCopy.isFaithful
  refine ⟨?_, hfaithful, fun copy hcopy other hother hnode =>
    (hfaithful copy hcopy).folded_eq (hfaithful other hother) hnode⟩
  rw [readForest_roots, FactSet.typedSubjects, FactSet.subjects_eq_eraseDups]
  exact List.filter_congr fun subject _ => by
    rw [Bool.eq_iff_iff, FactSet.isTyped_iff, decide_eq_true_eq]

/-- A document with two declared classes, and its author. Each refers to the other. -/
def minutes : FactSet := .ofList
  [⟨.iri "urn:d", Vocabulary.rdfType, .iri Vocabulary.document⟩,
    ⟨.iri "urn:d", Vocabulary.rdfType, .iri "urn:Minutes"⟩,
    ⟨.iri "urn:d", "urn:author", .blank "a"⟩,
    ⟨.blank "a", Vocabulary.rdfType, .iri "urn:Person"⟩,
    ⟨.blank "a", "urn:wrote", .iri "urn:d"⟩,
    ⟨.blank "a", "urn:name", .plain "Ann"⟩]

/-- The document is met again below its author, and both copies fold to the same. -/
theorem readForest_faithful_minutes :
    minutes.readForest.map (·.node) = [.iri "urn:d", .blank "a"] ∧
      ∃ first later, (minutes.readForest.flatMap SubjectTree.copies)[0]? = some first ∧
        (minutes.readForest.flatMap SubjectTree.copies)[2]? = some later ∧
        first.node = .iri "urn:d" ∧ later.node = .iri "urn:d" ∧ first.IsFaithful minutes ∧
        later.IsFaithful minutes ∧ first.folded = later.folded := by
  obtain ⟨-, hfaithful, hfolded⟩ := readForest_faithful minutes
  refine ⟨by decide, _, _, rfl, rfl, rfl, rfl, ?_, ?_, ?_⟩
  · exact hfaithful _ (List.mem_of_getElem? (i := 0) rfl)
  · exact hfaithful _ (List.mem_of_getElem? (i := 2) rfl)
  · exact hfolded _ (List.mem_of_getElem? (i := 0) rfl) _ (List.mem_of_getElem? (i := 2) rfl) rfl

end PublicationAudit
