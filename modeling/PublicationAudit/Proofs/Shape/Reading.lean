import PublicationAudit.Proofs.Shape.Statements

/-!
# The reading of shapes

What a set of facts says about shapes, read off the plain list of facts: which nodes are shapes, the
last value that is stated of a node for a predicate (`FactSet.lastStated?`) and everything that is
stated of it (`FactSet.stated`). `ShapeSet.ofFacts_reads` shows that shapes are compiled exactly as
they are read so, and that compilation fails for the first shape without a target class and for no
other reason.
-/

namespace PublicationAudit

namespace FactSet

/-! ## What is stated -/

/-- The objects that are stated of a node for a predicate, in order. -/
def stated (facts : FactSet) (node : Node) (predicate : String) : List Node :=
  (facts.toList.filter fun fact => fact.subject = node ∧ fact.predicate = predicate).map (·.object)

/-- The last readable object that is stated of a node for a predicate, as it is read. -/
def lastStated? {α : Type} (facts : FactSet) (node : Node) (predicate : String)
    (read? : Node → Option α) : Option α :=
  ((facts.stated node predicate).filterMap read?).getLast?

/-- The objects that are stated of a node for a predicate and can be described themselves. -/
def statedResources (facts : FactSet) (node : Node) (predicate : String) : List Node :=
  (facts.stated node predicate).filter fun object => !object.isLiteral

/-- The constraint that is stated of a node. -/
def constraintAt (facts : FactSet) (node : Node) : Constraint where
  select := facts.lastStated? node Vocabulary.select fun object => some object.lexical
  message := facts.lastStated? node Vocabulary.message fun object => some object.lexical

/-- The constraints that are stated of a shape. -/
def constraintsAt (facts : FactSet) (node : Node) : List Constraint :=
  (facts.statedResources node Vocabulary.sparql).map facts.constraintAt

/-- The property shape that is stated of a node, once it has a path. -/
def propertyAt? (facts : FactSet) (node : Node) : Option PropertyShape :=
  (facts.lastStated? node Vocabulary.path Node.iri?).map fun path =>
    { name := (facts.lastStated? node Vocabulary.name fun object => some object.lexical).getD
        (shortName path)
      description := facts.lastStated? node Vocabulary.description fun object => some object.lexical
      path := path
      requiredClass := facts.lastStated? node Vocabulary.requiredClass Node.iri?
      minCount := (facts.lastStated? node Vocabulary.minCount ShapeStatement.countOf?).getD 0
      maxCount := facts.lastStated? node Vocabulary.maxCount ShapeStatement.countOf?
      tier := facts.lastStated? node Vocabulary.maturityLevel ShapeStatement.tierOf?
      constraints := facts.constraintsAt node }

/-- The classes that a node targets, in order. -/
def targetClassesAt (facts : FactSet) (node : Node) : List String :=
  (facts.stated node Vocabulary.targetClass).filterMap Node.iri?

/-- The shape that is stated of a node for one of its target classes. -/
def shapeAt (facts : FactSet) (node : Node) (cls : String) : NodeShape where
  id := node.key
  targetClass := cls
  name := (facts.lastStated? node Vocabulary.name fun object => some object.lexical).getD
    (shortName node.key)
  tier := facts.lastStated? node Vocabulary.maturityLevel ShapeStatement.tierOf?
  properties := (facts.statedResources node Vocabulary.property).filterMap facts.propertyAt?
  constraints := facts.constraintsAt node

/-- The shapes that are stated of a node, one for each of its target classes. -/
def shapesAt (facts : FactSet) (node : Node) : List NodeShape :=
  (facts.targetClassesAt node).map (facts.shapeAt node)

/-- The subjects that the facts mark as shapes, as often as they do. -/
def shapeMarks (facts : FactSet) : List Node :=
  (facts.toList.filter fun fact => fact.predicate = Vocabulary.targetClass ∨
    fact.predicate = Vocabulary.rdfType ∧ fact.object = .iri Vocabulary.nodeShape).map (·.subject)

/-- A node that targets some class. -/
def Targets (facts : FactSet) (node : Node) : Prop :=
  ∃ cls, ⟨node, Vocabulary.targetClass, .iri cls⟩ ∈ facts.toList

variable {facts : FactSet} {node : Node}

/-- What is stated stands in the facts. -/
theorem mem_stated {predicate : String} {object : Node} :
    object ∈ facts.stated node predicate ↔ ⟨node, predicate, object⟩ ∈ facts.toList := by
  rw [stated, List.mem_map]
  constructor
  · rintro ⟨⟨_, _, _⟩, hfact, rfl⟩
    obtain ⟨hmem, rfl, rfl⟩ := by simpa using hfact
    exact hmem
  · intro hfact
    exact ⟨⟨node, predicate, object⟩, List.mem_filter.2 ⟨hfact, by simp⟩, rfl⟩

/-- The IRIs among what is stated. -/
theorem mem_stated_iris {predicate iri : String} :
    iri ∈ (facts.stated node predicate).filterMap Node.iri? ↔
      ⟨node, predicate, .iri iri⟩ ∈ facts.toList := by
  rw [List.mem_filterMap, ← mem_stated]
  constructor
  · rintro ⟨object, hobject, hiri⟩
    cases object with
    | iri _ => cases hiri; exact hobject
    | blank _ => cases hiri
    | literal _ _ _ => cases hiri
  · intro hobject
    exact ⟨.iri iri, hobject, rfl⟩

/-- A node without a target class is one that no fact gives an IRI as target class. -/
theorem targetClassesAt_eq_nil : facts.targetClassesAt node = [] ↔ ¬facts.Targets node := by
  rw [targetClassesAt, List.eq_nil_iff_forall_not_mem, Targets, not_exists]
  exact forall_congr' fun cls => not_congr mem_stated_iris

/-- A property shape is stated as soon as some path of it is an IRI. -/
theorem isSome_propertyAt : (facts.propertyAt? node).isSome = true ↔
    ∃ iri, ⟨node, Vocabulary.path, .iri iri⟩ ∈ facts.toList := by
  rw [propertyAt?, Option.isSome_map, lastStated?, List.getLast?_isSome, Ne,
    List.eq_nil_iff_forall_not_mem, not_forall_not]
  exact exists_congr fun iri => mem_stated_iris

/-- The shapes that are stated of a node differ in their target classes alone. -/
theorem shapesAt_agree {shape other : NodeShape} (hshape : shape ∈ facts.shapesAt node)
    (hother : other ∈ facts.shapesAt node) :
    { shape with targetClass := other.targetClass } = other := by
  obtain ⟨_, -, rfl⟩ := List.mem_map.1 hshape
  obtain ⟨_, -, rfl⟩ := List.mem_map.1 hother
  rfl

/-- The shapes that are stated of a node are listed by their target classes. -/
theorem shapesAt_targetClass (facts : FactSet) (node : Node) :
    (facts.shapesAt node).map (·.targetClass) = facts.targetClassesAt node := by
  rw [shapesAt, List.map_map]
  exact List.map_id _

/-- The nodes that are compiled are the subjects that are marked as shapes. -/
theorem shapeNodes_eq (facts : FactSet) : facts.shapeNodes = facts.shapeMarks.eraseDups := by
  rw [shapeNodes, shapeMarks]
  congr 3
  funext fact
  simp [Fact.marksShape, Bool.decide_or, Bool.decide_and]

/-! ## Walks over the statements of a node -/

section Walks

open ShapeStatement

variable {α β σ : Type} {kind? : ShapeStatement → Option α} {predicate : String}
  {read? : Node → Option α} {note : σ → ShapeStatement → σ}

/-- The statements of one kind say what is stated for its predicate. -/
theorem filterMap_statementsFor (h : IsKind kind? predicate read?) (facts : FactSet) (node : Node) :
    (facts.statementsFor node).filterMap kind? =
      (facts.stated node predicate).filterMap read? := by
  rw [statementsFor, h.filterMap, stated, ← objects_eq_scan, objects]

/-- A field that starts empty and that every statement of a kind overwrites holds the last that is
stated. -/
theorem walk_keeps_last (h : IsKind kind? predicate read?) (field : σ → Option α) {start : σ}
    (hnote : ∀ draft statement,
      field (note draft statement) = (kind? statement).or (field draft))
    (hstart : field start = none) (facts : FactSet) (node : Node) :
    field ((facts.statementsFor node).foldl note start) =
      facts.lastStated? node predicate read? := by
  rw [foldl_keeps_last field hnote, filterMap_statementsFor h, hstart, Option.or_none, lastStated?]

/-- A field that starts empty and that every statement of a kind adds to holds all that is
stated. -/
theorem walk_collects (h : IsKind kind? predicate read?) (field : σ → List β)
    (make? : α → Option β) {start : σ}
    (hnote : ∀ draft statement,
      field (note draft statement) = field draft ++ ((kind? statement).bind make?).toList)
    (hstart : field start = []) (facts : FactSet) (node : Node) :
    field ((facts.statementsFor node).foldl note start) =
      ((facts.stated node predicate).filterMap read?).filterMap make? := by
  rw [foldl_collects field make? hnote, filterMap_statementsFor h, hstart, List.nil_append]

/-- The objects that can be described are those that are no literals. -/
theorem filterMap_resourceOf (facts : FactSet) (node : Node) (predicate : String) :
    (facts.stated node predicate).filterMap resourceOf? =
      facts.statedResources node predicate := by
  rw [statedResources, ← List.filterMap_eq_filter]
  refine List.filterMap_congr fun object _ => ?_
  cases object <;> rfl

end Walks

end FactSet

/-! ## Compilation of one node -/

section Nodes

open ShapeStatement FactSet

variable (facts : FactSet) (node : Node)

/-- A constraint is compiled as it is read. -/
theorem Constraint.ofNode_eq : Constraint.ofNode facts node = facts.constraintAt node := by
  have hselect : (Constraint.ofNode facts node).select = (facts.constraintAt node).select :=
    walk_keeps_last isKind_select Constraint.select
      (fun _ statement => by cases statement <;> rfl) rfl facts node
  have hmessage : (Constraint.ofNode facts node).message = (facts.constraintAt node).message :=
    walk_keeps_last isKind_message Constraint.message
      (fun _ statement => by cases statement <;> rfl) rfl facts node
  exact congrArg₂ Constraint.mk hselect hmessage

/-- Where every constraint that is stated is added, all of them are there as they are read. -/
theorem walk_collects_constraints {σ : Type} {note : σ → ShapeStatement → σ}
    (field : σ → List Constraint) {start : σ}
    (hnote : ∀ draft statement, field (note draft statement) =
      field draft ++ ((constraint? statement).bind fun query =>
        some (Constraint.ofNode facts query)).toList)
    (hstart : field start = []) :
    field ((facts.statementsFor node).foldl note start) = facts.constraintsAt node := by
  have hread : Constraint.ofNode facts = facts.constraintAt := funext (Constraint.ofNode_eq facts)
  rw [walk_collects isKind_constraint field _ hnote hstart, filterMap_resourceOf, constraintsAt,
    List.filterMap_eq_map', hread]

/-- A property shape is compiled as it is read. -/
theorem PropertyShape.ofNode?_eq : PropertyShape.ofNode? facts node = facts.propertyAt? node := by
  rw [ofNode?]
  generalize hdraft : (facts.statementsFor node).foldl (PropertyDraft.note facts) {} = draft
  have hname : draft.name = facts.lastStated? node Vocabulary.name _ := hdraft ▸
    walk_keeps_last isKind_name PropertyDraft.name
      (fun _ statement => by cases statement <;> rfl) rfl facts node
  have hdescription : draft.description = facts.lastStated? node Vocabulary.description _ :=
    hdraft ▸ walk_keeps_last isKind_description PropertyDraft.description
      (fun _ statement => by cases statement <;> rfl) rfl facts node
  have hpath : draft.path = facts.lastStated? node Vocabulary.path _ := hdraft ▸
    walk_keeps_last isKind_path PropertyDraft.path
      (fun _ statement => by cases statement <;> rfl) rfl facts node
  have hclass : draft.requiredClass = facts.lastStated? node Vocabulary.requiredClass _ :=
    hdraft ▸ walk_keeps_last isKind_requiredClass PropertyDraft.requiredClass
      (fun _ statement => by cases statement <;> rfl) rfl facts node
  have hminCount :
      draft.minCount = (facts.lastStated? node Vocabulary.minCount countOf?).getD 0 := by
    -- The lower bound is never unknown: it starts as zero.
    have hlast : some draft.minCount =
        ((facts.statementsFor node).filterMap minCount?).getLast?.or (some 0) := hdraft ▸
      foldl_keeps_last (fun draft : PropertyDraft => some draft.minCount)
        (fun _ statement => by cases statement <;> rfl) _ _
    rw [filterMap_statementsFor isKind_minCount, Option.or_some] at hlast
    exact Option.some.inj hlast
  have hmaxCount : draft.maxCount = facts.lastStated? node Vocabulary.maxCount _ := hdraft ▸
    walk_keeps_last isKind_maxCount PropertyDraft.maxCount
      (fun _ statement => by cases statement <;> rfl) rfl facts node
  have htier : draft.tier = facts.lastStated? node Vocabulary.maturityLevel _ := hdraft ▸
    walk_keeps_last isKind_maturityLevel PropertyDraft.tier
      (fun _ statement => by cases statement <;> rfl) rfl facts node
  have hconstraints : draft.constraints = facts.constraintsAt node := hdraft ▸
    walk_collects_constraints facts node PropertyDraft.constraints
      (fun _ statement => by cases statement <;> first | rfl | exact (List.append_nil _).symm) rfl
  rw [PropertyDraft.finish?, propertyAt?, hname, hdescription, hpath, hclass, hminCount, hmaxCount,
    htier, hconstraints]

/-- The shapes of a node are those that are stated of it, unless it targets no class. -/
theorem NodeShape.ofNode_eq : NodeShape.ofNode facts node =
    if facts.targetClassesAt node = [] then .error (.missingTargetClass node.key)
    else .ok (facts.shapesAt node) := by
  rw [ofNode]
  generalize hdraft : (facts.statementsFor node).foldl (NodeDraft.note facts) {} = draft
  have hclasses : draft.targetClasses = facts.targetClassesAt node := by
    rw [← hdraft, walk_collects isKind_targetClass NodeDraft.targetClasses some
      (fun _ statement => by
        cases statement <;> first | rfl | exact (List.append_nil _).symm) rfl]
    exact List.filterMap_some ..
  have hname : draft.name = facts.lastStated? node Vocabulary.name _ := hdraft ▸
    walk_keeps_last isKind_name NodeDraft.name
      (fun _ statement => by cases statement <;> rfl) rfl facts node
  have htier : draft.tier = facts.lastStated? node Vocabulary.maturityLevel _ := hdraft ▸
    walk_keeps_last isKind_maturityLevel NodeDraft.tier
      (fun _ statement => by cases statement <;> rfl) rfl facts node
  have hproperties : draft.properties =
      (facts.statedResources node Vocabulary.property).filterMap facts.propertyAt? := by
    have hread : PropertyShape.ofNode? facts = facts.propertyAt? :=
      funext (PropertyShape.ofNode?_eq facts)
    rw [← hdraft, walk_collects isKind_property NodeDraft.properties (PropertyShape.ofNode? facts)
      (fun _ statement => by
        cases statement <;> first | rfl | exact (List.append_nil _).symm) rfl,
      filterMap_resourceOf, hread]
  have hconstraints : draft.constraints = facts.constraintsAt node := hdraft ▸
    walk_collects_constraints facts node NodeDraft.constraints
      (fun _ statement => by cases statement <;> first | rfl | exact (List.append_nil _).symm) rfl
  rw [NodeDraft.finish, hclasses, hname, htier, hproperties, hconstraints]
  simp only [List.isEmpty_iff]
  rfl

end Nodes

/-! ## Compilation of a set -/

variable {facts : FactSet} {nodes before after : List Node} {node : Node}

/-- A node that targets classes becomes the shapes that are stated of it. -/
theorem NodeShape.ofNode_of_targets (h : facts.Targets node) :
    NodeShape.ofNode facts node = .ok (facts.shapesAt node) := by
  have hclasses : facts.targetClassesAt node ≠ [] := fun hnil =>
    FactSet.targetClassesAt_eq_nil.1 hnil h
  rw [ofNode_eq, if_neg hclasses]

/-- A node that targets no class fails. -/
theorem NodeShape.ofNode_of_not_targets (h : ¬facts.Targets node) :
    NodeShape.ofNode facts node = .error (.missingTargetClass node.key) := by
  rw [ofNode_eq, if_pos (FactSet.targetClassesAt_eq_nil.2 h)]

/-- Nodes that all target classes become the shapes that are stated of them. -/
theorem NodeShape.ofNodes_of_targets (h : ∀ node ∈ nodes, facts.Targets node) :
    NodeShape.ofNodes facts nodes = .ok (nodes.flatMap facts.shapesAt) := by
  induction nodes with
  | nil => rfl
  | cons node nodes ih =>
      obtain ⟨hnode, hnodes⟩ := List.forall_mem_cons.1 h
      rw [ofNodes, ofNode_of_targets hnode, ih hnodes]
      rfl

/-- The first node without a target class fails the whole. -/
theorem NodeShape.ofNodes_of_not_targets (hbefore : ∀ earlier ∈ before, facts.Targets earlier)
    (hnode : ¬facts.Targets node) :
    NodeShape.ofNodes facts (before ++ node :: after) = .error (.missingTargetClass node.key) := by
  induction before with
  | nil =>
      show NodeShape.ofNodes facts (node :: after) = _
      rw [ofNodes, ofNode_of_not_targets hnode]
  | cons earlier before ih =>
      obtain ⟨hearlier, hbefore⟩ := List.forall_mem_cons.1 hbefore
      show NodeShape.ofNodes facts (earlier :: (before ++ node :: after)) = _
      rw [ofNodes, ofNode_of_targets hearlier, ih hbefore]

namespace ShapeSet

/-- A set in which every shape has a target class compiles. -/
theorem ofFacts_of_targets (h : ∀ node ∈ facts.shapeNodes, facts.Targets node) :
    ofFacts facts = .ok ⟨facts.shapeNodes.flatMap facts.shapesAt⟩ := by
  rw [ofFacts, NodeShape.ofNodes_of_targets h]
  rfl

/-- A set fails for its first shape without a target class. -/
theorem ofFacts_of_not_targets (hnodes : facts.shapeNodes = before ++ node :: after)
    (hbefore : ∀ earlier ∈ before, facts.Targets earlier) (hnode : ¬facts.Targets node) :
    ofFacts facts = .error (.missingTargetClass node.key) := by
  rw [ofFacts, hnodes, NodeShape.ofNodes_of_not_targets hbefore hnode]
  rfl

/-- A set fails for no other reason. -/
theorem missingTargetClass_of_error {failure : Failure} (h : ofFacts facts = .error failure) :
    ∃ node ∈ facts.shapeNodes, ¬facts.Targets node ∧ failure = .missingTargetClass node.key := by
  by_cases hall : ∀ node ∈ facts.shapeNodes, facts.Targets node
  · rw [ofFacts_of_targets hall] at h
    cases h
  · push Not at hall
    obtain ⟨before, node, after, hnodes, hbefore, hnode⟩ := exists_first_not hall
    rw [ofFacts_of_not_targets hnodes hbefore hnode] at h
    cases h
    exact ⟨node, hnodes ▸ List.mem_append_cons_self, hnode, rfl⟩

/-- Shapes are compiled exactly as they are read off the facts. The shapes are described by the
subjects that are marked as shapes, in the order of their first mark. Compilation fails when and
only when one of them targets no class, and then for the first such; otherwise it lists the shapes
that are stated of each, one for each of its target classes in order, which differ in nothing else.
The properties of a shape are those that have an IRI for a path. -/
theorem ofFacts_reads (facts : FactSet) :
    ∃ nodes, FirstMentions (fun _ => True) facts.shapeMarks nodes ∧
      ((∃ failure, ofFacts facts = .error failure) ↔ ∃ node ∈ nodes, ¬facts.Targets node) ∧
      (∀ before node after, nodes = before ++ node :: after →
        (∀ earlier ∈ before, facts.Targets earlier) → ¬facts.Targets node →
        ofFacts facts = .error (.missingTargetClass node.key)) ∧
      ((∀ node ∈ nodes, facts.Targets node) →
        ofFacts facts = .ok ⟨nodes.flatMap facts.shapesAt⟩) ∧
      (∀ node, (facts.shapesAt node).map (·.targetClass) = facts.targetClassesAt node ∧
        ∀ shape ∈ facts.shapesAt node, ∀ other ∈ facts.shapesAt node,
          { shape with targetClass := other.targetClass } = other) ∧
      ∀ node, (facts.propertyAt? node).isSome = true ↔
        ∃ iri, ⟨node, Vocabulary.path, .iri iri⟩ ∈ facts.toList := by
  refine ⟨facts.shapeNodes, facts.shapeNodes_eq ▸ firstMentions_all _, ⟨?_, ?_⟩,
    fun _ _ _ => ofFacts_of_not_targets, ofFacts_of_targets,
    fun node => ⟨facts.shapesAt_targetClass node, fun _ hshape _ hother =>
      FactSet.shapesAt_agree hshape hother⟩, fun _ => FactSet.isSome_propertyAt⟩
  · rintro ⟨failure, hfailure⟩
    obtain ⟨node, hmem, hnode, -⟩ := missingTargetClass_of_error hfailure
    exact ⟨node, hmem, hnode⟩
  · intro h
    obtain ⟨before, node, after, hnodes, hbefore, hnode⟩ := exists_first_not h
    exact ⟨_, ofFacts_of_not_targets hnodes hbefore hnode⟩

-- A literal in the place of a target class marks a shape all the same.
example : ofFacts (.ofList [⟨.iri "urn:S", Vocabulary.targetClass, .plain "Person"⟩]) =
    .error (.missingTargetClass "urn:S") := by
  decide

end ShapeSet

end PublicationAudit
