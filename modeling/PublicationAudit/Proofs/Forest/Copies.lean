import Mathlib.Tactic.Tauto
import PublicationAudit.Proofs.Threading
import PublicationAudit.Proofs.TypedSubjects

/-!
# Copies of a subject

A subject that is met several times has several copies in a forest. Read `readForest_copies` first:
among the copies in pre-order, every first copy nests all typed objects of its subject, every later
copy nests none, and each shows the facts of its subject one by one. `readForest_roots` says which
trees there are. Neither depends on the bound under which the forest is read.
-/

namespace PublicationAudit

mutual

/-- The copies in a tree, in the order in which they are met. -/
def SubjectTree.copies : SubjectTree → List SubjectTree
  | ⟨node, cls, edges⟩ => ⟨node, cls, edges⟩ :: SubjectTree.copiesAlong edges

/-- The copies below edges. -/
def SubjectTree.copiesAlong : List Edge → List SubjectTree
  | [] => []
  | ⟨_, target⟩ :: edges => target.copies ++ SubjectTree.copiesAlong edges

/-- The copies below a target. -/
def EdgeTarget.copies : EdgeTarget → List SubjectTree
  | .nested tree => tree.copies
  | .literal _ => []
  | .reference _ => []

end

/-- The subjects nested directly in a copy. -/
def SubjectTree.children (copy : SubjectTree) : List SubjectTree :=
  copy.edges.filterMap (·.target.nested?)

/-- A tree is met before the copies below it. -/
theorem SubjectTree.copies_eq (tree : SubjectTree) :
    tree.copies = tree :: copiesAlong tree.edges := by
  obtain ⟨node, cls, edges⟩ := tree
  rw [copies]

/-- What a target shows of a fact. Only a first copy nests, and it nests whatever it can. -/
def EdgeTarget.Shows (facts : FactSet) (isFirst : Bool) (fact : Fact) : EdgeTarget → Prop
  | .literal text =>
    fact.predicate ≠ Vocabulary.rdfType ∧ fact.object.isLiteral = true ∧ text = fact.object.key
  | .reference key =>
    key = fact.object.key ∧
      (fact.object.isLiteral = true → fact.predicate = Vocabulary.rdfType) ∧
      (isFirst = true → facts.nests fact = false)
  | .nested tree =>
    isFirst = true ∧ facts.nests fact = true ∧ tree.node = fact.object ∧
      facts.classOf? fact.object = some tree.cls

/-- An edge that shows a fact. -/
def Edge.Shows (facts : FactSet) (isFirst : Bool) (fact : Fact) (edge : Edge) : Prop :=
  edge.path = fact.predicate ∧ edge.target.Shows facts isFirst fact

/-- A copy has the class of its subject and shows the reported facts, each once and in order. -/
structure SubjectTree.IsCopy (facts : FactSet) (isFirst : Bool) (copy : SubjectTree) : Prop where
  cls : facts.classOf? copy.node = some copy.cls
  edges : List.Forall₂ (Edge.Shows facts isFirst) (facts.reportedFacts copy.node) copy.edges

/-- Copies met one after the other, after the listed nodes: each is a first copy unless its node was
met before. -/
def CopiesAfter (facts : FactSet) : List Node → List SubjectTree → Prop
  | _, [] => True
  | met, copy :: copies =>
    copy.IsCopy facts (!met.contains copy.node) ∧ CopiesAfter facts (copy.node :: met) copies

variable {facts : FactSet}

/-- A target nests a subject exactly when it is on a first copy and the fact nests one. -/
theorem EdgeTarget.Shows.isSome_nested?_eq {isFirst : Bool} {fact : Fact} {target : EdgeTarget}
    (h : target.Shows facts isFirst fact) :
    target.nested?.isSome = (isFirst && facts.nests fact) := by
  cases target with
  | literal text => simp [EdgeTarget.nested?, FactSet.nests, h.2.1]
  | reference key =>
      cases isFirst with
      | false => rfl
      | true => simp [EdgeTarget.nested?, h.2.2 rfl]
  | nested tree => simp [EdgeTarget.nested?, h.1, h.2.1]

/-- Which nodes were met matters, not in which order. -/
theorem copiesAfter_congr {met other : List Node} (h : ∀ n, n ∈ met ↔ n ∈ other)
    (copies : List SubjectTree) :
    CopiesAfter facts met copies ↔ CopiesAfter facts other copies := by
  induction copies generalizing met other with
  | nil => exact Iff.rfl
  | cons copy copies ih =>
      have hcontains : met.contains copy.node = other.contains copy.node := by
        rw [Bool.eq_iff_iff, List.contains_iff_mem, List.contains_iff_mem, h]
      have hrest : ∀ n, n ∈ copy.node :: met ↔ n ∈ copy.node :: other := fun n => by
        rw [List.mem_cons, List.mem_cons, h]
      simp only [CopiesAfter, hcontains, ih hrest]

/-- The outcome of reading: copies met one after the other, and the nodes met so far. -/
structure ReadAfter (facts : FactSet) (met : List Node) (copies : List SubjectTree)
    (after : List Node) : Prop where
  shown : CopiesAfter facts met copies
  met_iff : ∀ n, n ∈ after ↔ n ∈ met ∨ n ∈ copies.map (·.node)

namespace ReadAfter

variable {met mid after : List Node} {copies more : List SubjectTree}

/-- Reading nothing meets nothing. -/
theorem nil (met : List Node) : ReadAfter facts met [] met :=
  ⟨trivial, fun n => by simp⟩

/-- Every node met before stays met. -/
theorem subset (h : ReadAfter facts met copies after) : met ⊆ after :=
  fun n hn => (h.met_iff n).2 (.inl hn)

/-- A reading that starts with one copy. -/
theorem cons {copy : SubjectTree} (hcopy : copy.IsCopy facts (!met.contains copy.node))
    (h : ReadAfter facts (copy.node :: met) copies after) :
    ReadAfter facts met (copy :: copies) after where
  shown := ⟨hcopy, h.shown⟩
  met_iff n := by
    rw [h.met_iff, List.map_cons, List.mem_cons, List.mem_cons]
    tauto

/-- One reading after another. -/
theorem append (h : ReadAfter facts met copies mid) (hmore : ReadAfter facts mid more after) :
    ReadAfter facts met (copies ++ more) after := by
  induction copies generalizing met with
  | nil =>
      have hsame : ∀ n, n ∈ mid ↔ n ∈ met := fun n => by simpa using h.met_iff n
      exact ⟨(copiesAfter_congr hsame more).1 hmore.shown,
        fun n => by simpa [hsame] using hmore.met_iff n⟩
  | cons copy copies ih =>
      refine cons h.shown.1 (ih ⟨h.shown.2, fun n => ?_⟩)
      rw [h.met_iff, List.map_cons, List.mem_cons, List.mem_cons]
      tauto

end ReadAfter

/-! ## Reading one subject -/

/-- A reader answers for an object as the facts demand: with a tree of the object and what is met in
it, or with nothing for an object without a class. -/
def Reads (facts : FactSet) (nested : SubjectReader) (met : Expanded) (object : Node) : Prop :=
  (facts.classOf? object = none → nested met object = (none, met)) ∧
    ∀ cls, facts.classOf? object = some cls → ∃ tree, (nested met object).1 = some tree ∧
      tree.node = object ∧ tree.cls = cls ∧ ReadAfter facts met tree.copies (nested met object).2

variable {nested : SubjectReader} {isFirst : Bool} {met : Expanded} {fact : Fact}

/-- A target that is no literal: on a first copy the object is read as a subject, unless it is a
class. -/
theorem readTarget_of_not_literal (h : fact.object.isLiteral = false) :
    readTarget nested isFirst met fact =
      if isFirst && fact.predicate ≠ Vocabulary.rdfType then
        match (nested met fact.object).1 with
        | some tree => (.nested tree, (nested met fact.object).2)
        | none => (.reference fact.object.key, (nested met fact.object).2)
      else (.reference fact.object.key, met) := by
  obtain ⟨subject, predicate, object⟩ := fact
  cases object with
  | iri text => rfl
  | blank label => rfl
  | literal text datatype language => simp [Node.isLiteral] at h

/-- A literal is shown as it is, or by its identifier where it stands for a class. -/
theorem readTarget_of_literal (h : fact.object.isLiteral = true) :
    readTarget nested isFirst met fact =
      if fact.predicate = Vocabulary.rdfType then (.reference fact.object.key, met)
      else (.literal fact.object.key, met) := by
  obtain ⟨subject, predicate, object⟩ := fact
  cases object with
  | iri text => simp [Node.isLiteral] at h
  | blank label => simp [Node.isLiteral] at h
  | literal text datatype language => rfl

/-- A target shows its fact, and what is met below it is read in turn. -/
theorem readTarget_shows (facts : FactSet) (met : Expanded) (fact : Fact)
    (hnested : isFirst = true → Reads facts nested met fact.object) :
    (readTarget nested isFirst met fact).1.Shows facts isFirst fact ∧
      ReadAfter facts met (readTarget nested isFirst met fact).1.copies
        (readTarget nested isFirst met fact).2 := by
  cases hliteral : fact.object.isLiteral with
  | true =>
      rw [readTarget_of_literal hliteral]
      split
      · rename_i htype
        exact ⟨⟨rfl, fun _ => htype, fun _ => by simp [FactSet.nests, htype]⟩, .nil met⟩
      · rename_i htype
        exact ⟨⟨htype, hliteral, rfl⟩, .nil met⟩
  | false =>
      rw [readTarget_of_not_literal hliteral]
      split
      · rename_i hfirst
        simp only [Bool.and_eq_true, decide_eq_true_eq] at hfirst
        obtain ⟨huntyped, htyped⟩ := hnested hfirst.1
        cases hcls : facts.classOf? fact.object with
        | none =>
            have hnotTyped := FactSet.isTyped_of_no_class hcls
            rw [huntyped hcls]
            refine ⟨⟨rfl, fun h => ?_, fun _ => by simp [FactSet.nests, hnotTyped]⟩, .nil met⟩
            simp [hliteral] at h
        | some cls =>
            obtain ⟨tree, htree, hnode, rfl, hafter⟩ := htyped cls hcls
            rw [htree]
            have hnests := FactSet.nests_iff.2
              ⟨hfirst.2, hliteral, FactSet.isTyped_of_class hcls⟩
            exact ⟨⟨hfirst.1, hnests, hnode, hcls⟩, hafter⟩
      · rename_i hfirst
        refine ⟨⟨rfl, fun h => ?_, fun hf => ?_⟩, .nil met⟩
        · simp [hliteral] at h
        · simp only [hf, Bool.true_and, decide_eq_true_eq, not_not] at hfirst
          simp [FactSet.nests, hfirst]

/-- The edges of a copy show its facts one by one. -/
theorem threadMap_readEdge_shows (facts : FactSet) (nested : SubjectReader) (isFirst : Bool)
    (met : Expanded) (reported : List Fact)
    (hnested : isFirst = true → ∀ later, met ⊆ later → ∀ object, Reads facts nested later object) :
    List.Forall₂ (Edge.Shows facts isFirst) reported
        (threadMap (readEdge nested isFirst) met reported).1 ∧
      ReadAfter facts met
        (SubjectTree.copiesAlong (threadMap (readEdge nested isFirst) met reported).1)
        (threadMap (readEdge nested isFirst) met reported).2 := by
  induction reported generalizing met with
  | nil => exact ⟨.nil, .nil met⟩
  | cons fact reported ih =>
      obtain ⟨hshows, hread⟩ := readTarget_shows facts met fact
        (fun hfirst => hnested hfirst met (List.Subset.refl met) fact.object)
      -- What the first target meets stays met, so the later ones are read as demanded too.
      obtain ⟨hrest, hreadRest⟩ := ih (readTarget nested isFirst met fact).2
        (fun hfirst later hlater => hnested hfirst later fun n hn => hlater (hread.subset hn))
      exact ⟨.cons ⟨rfl, hshows⟩ hrest, hread.append hreadRest⟩

/-- A copy that nests nothing has nothing below it. -/
theorem copiesAlong_eq_nil {reported : List Fact} {edges : List Edge}
    (h : List.Forall₂ (Edge.Shows facts false) reported edges) :
    SubjectTree.copiesAlong edges = [] := by
  induction h with
  | nil => rfl
  | @cons fact edge _ _ hedge _ ih =>
      obtain ⟨path, target⟩ := edge
      rw [SubjectTree.copiesAlong, ih, List.append_nil]
      cases target with
      | literal text => rfl
      | reference key => rfl
      | nested tree => simp [Edge.Shows, EdgeTarget.Shows] at hedge

/-- A depth that exceeds the number of subjects still to be met is never exhausted. -/
theorem readSubject_reads {depth : Nat} {subject : Node}
    (hdepth : unmet facts.subjects met < depth) :
    Reads facts (readSubject facts depth) met subject := by
  induction depth generalizing met subject with
  | zero => omega
  | succ depth ih =>
      refine ⟨fun hcls => by simp [readSubject, hcls], fun cls hcls => ?_⟩
      rw [readSubject, hcls]
      refine ⟨_, rfl, rfl, rfl, ?_⟩
      rw [SubjectTree.copies_eq]
      -- A subject met before nests nothing, so the depth left does not matter for it. A new one
      -- counts as met from here on, which pays for the step in depth.
      cases hmet : met.contains subject with
      | true =>
          obtain ⟨hedges, hread⟩ := threadMap_readEdge_shows facts (readSubject facts depth)
            false met (facts.reportedFacts subject) (fun h => by simp at h)
          have hbelow := copiesAlong_eq_nil hedges
          rw [hbelow] at hread
          simp only [Bool.not_true, Bool.false_eq_true, if_false, hbelow]
          refine .cons (by rw [hmet]; exact ⟨hcls, hedges⟩) ⟨trivial, fun n => ?_⟩
          have hsame := hread.met_iff n
          have hmem : subject ∈ met := List.contains_iff_mem.1 hmet
          simp only [List.map_nil, List.not_mem_nil, or_false] at hsame
          rw [hsame]
          by_cases hn : n = subject <;> simp [hn, hmem]
      | false =>
          have hnew : subject ∉ met := by simpa using hmet
          have hsubject := FactSet.mem_subjects_of_typed (FactSet.isTyped_of_class hcls)
          have hfewer := unmet_cons_lt hsubject hnew
          obtain ⟨hedges, hread⟩ := threadMap_readEdge_shows facts (readSubject facts depth)
            true (subject :: met) (facts.reportedFacts subject)
            (fun _ later hlater object => ih (by
              have hle := unmet_le_of_subset facts.subjects hlater
              omega))
          exact .cons (by rw [hmet]; exact ⟨hcls, hedges⟩) hread

/-! ## Reading all subjects -/

/-- The trees of a list of subjects, one for each that declares a class. -/
theorem threadMap_readOne (subjects : List Node) (met : Expanded) :
    ((threadMap facts.readOne met subjects).1.filterMap id).map (·.node) =
        subjects.filter facts.isTyped ∧
      ReadAfter facts met
        (((threadMap facts.readOne met subjects).1.filterMap id).flatMap SubjectTree.copies)
        (threadMap facts.readOne met subjects).2 := by
  induction subjects generalizing met with
  | nil => exact ⟨rfl, .nil met⟩
  | cons subject subjects ih =>
      have hreads : Reads facts facts.readOne met subject :=
        readSubject_reads (Nat.lt_succ_of_le (unmet_le_length facts.subjects met))
      obtain ⟨hnodes, hread⟩ := ih (facts.readOne met subject).2
      cases hcls : facts.classOf? subject with
      | none =>
          have hnotTyped := FactSet.isTyped_of_no_class hcls
          rw [hreads.1 hcls] at hnodes hread
          simp only [threadMap_cons, hreads.1 hcls, List.filterMap_cons_none (f := id) rfl,
            List.filter_cons, hnotTyped]
          exact ⟨hnodes, hread⟩
      | some cls =>
          obtain ⟨tree, htree, hnode, -, hafter⟩ := hreads.2 cls hcls
          have htyped := FactSet.isTyped_of_class hcls
          simp only [threadMap_cons, htree, List.filterMap_cons_some (f := id) rfl,
            List.map_cons, List.flatMap_cons, List.filter_cons, htyped, if_true, hnode, hnodes]
          exact ⟨trivial, hafter.append hread⟩

/-- A forest has one tree for each typed subject, in the order of their first fact. -/
theorem readForest_roots (facts : FactSet) :
    facts.readForest.map (·.node) = facts.typedSubjects :=
  (threadMap_readOne facts.subjects []).1

/-- In a forest every first copy nests all it can, every later copy nests nothing, and all of them
show the facts of their subject. -/
theorem readForest_copies (facts : FactSet) :
    CopiesAfter facts [] (facts.readForest.flatMap SubjectTree.copies) :=
  (threadMap_readOne facts.subjects []).2.shown

end PublicationAudit
