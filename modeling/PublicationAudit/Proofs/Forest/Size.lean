import PublicationAudit.Proofs.Forest.Termination

/-!
# How large a forest is

A typed subject has a tree of its own and one more copy for each fact that leads to it from a typed
subject, because each such fact is followed on one copy alone. `length_copies_readForest` counts the
copies so, and `ReadingEnds.depth_le` bounds how deep they lie: on the way down a tree every copy
but the last claims an edge. The main statement is `reading_bounded`.
-/

namespace PublicationAudit

/-! ## Depth -/

mutual

/-- The number of copies on the longest way down a tree. -/
def SubjectTree.depth : SubjectTree → Nat
  | ⟨_, _, edges⟩ => 1 + SubjectTree.depthAlong edges

/-- The number of copies on the longest way down below edges. -/
def SubjectTree.depthAlong : List Edge → Nat
  | [] => 0
  | ⟨_, target⟩ :: edges => max target.depth (SubjectTree.depthAlong edges)

/-- The number of copies on the longest way down below a target. -/
def EdgeTarget.depth : EdgeTarget → Nat
  | .nested tree => tree.depth
  | .literal _ => 0
  | .reference _ => 0

end

/-- Edges are as deep as the deepest of their targets. -/
theorem SubjectTree.depthAlong_le_iff {edges : List Edge} {n : Nat} :
    depthAlong edges ≤ n ↔ ∀ edge ∈ edges, edge.target.depth ≤ n := by
  induction edges with
  | nil => simp [depthAlong]
  | cons edge edges ih =>
      obtain ⟨path, target⟩ := edge
      rw [depthAlong, Nat.max_le, ih, List.forall_mem_cons]

/-- An edge in the folded form has nothing below it. -/
theorem Fact.depth_foldedEdge (fact : Fact) : fact.foldedEdge.target.depth = 0 := by
  unfold Fact.foldedEdge
  split <;> rfl

variable {facts : FactSet} {claims : EdgeClaims} {subject : Node} {tree : SubjectTree}

/-- A tree is at most one copy deeper than there are typed subjects with an edge to claim. -/
theorem FactSet.ReadingEnds.depth_le {answer : Option SubjectTree × EdgeClaims}
    (h : facts.ReadingEnds claims subject answer) (htree : answer.1 = some tree) :
    tree.depth ≤ claims.pending facts + 1 := by
  induction h generalizing tree with
  | untyped => simp at htree
  | typed claims subject cls hcls nested hnested ih =>
      obtain rfl := Option.some.inj htree
      rw [SubjectTree.depth, Nat.add_comm, Nat.add_le_add_iff_right,
        SubjectTree.depthAlong_le_iff]
      intro edge hedge
      obtain ⟨later, fact, hcomes, rfl⟩ := exists_comesTo hedge
      by_cases hfollows : fact.Follows (claims.unclaimed facts subject)
      · -- The object is read when an edge more is claimed, and keeps to the bound that is left.
        have hkept : (claims.claim facts subject).KeptIn later :=
          hcomes.state_induction
            (fun mid other hmid hkept => hkept.trans
              (claimEdge_keeps fun hother => (hnested mid other hmid hother).keeps))
            (.refl _)
        have hfewer := EdgeClaims.pending_lt_of_claimed (FactSet.isTyped_of_class hcls)
          hfollows.isNew hkept
        rw [claimEdge_of_follows hfollows]
        cases hread : (nested later fact.object).1 with
        | none => exact Nat.zero_le _
        | some below =>
            have hbelow := ih later fact hcomes hfollows hread
            show below.depth ≤ claims.pending facts
            omega
      · rw [claimEdge_of_not_follows hfollows, Fact.depth_foldedEdge]
        exact Nat.zero_le _

/-- Every tree that a reader answers with, from any claims, is at most one copy deeper than there
are typed subjects. -/
theorem depth_le_of_answers {readings : List ReadCall}
    (h : tree ∈ ReadCall.answers facts (claimSubject facts facts.depthBound) claims readings) :
    tree.depth ≤ facts.typedSubjects.length + 1 := by
  rw [ReadCall.answers_eq, List.mem_filterMap] at h
  obtain ⟨answer, hanswer, rfl⟩ := h
  obtain ⟨later, subject, -, hread⟩ := exists_comesTo hanswer
  have hdepth := (claimSubject_depthBound_ends facts later subject).depth_le hread
  exact Nat.le_trans hdepth (Nat.succ_le_succ (unmet_le_length facts.typedSubjects _))

/-! ## Copies are roots or children -/

mutual

/-- A tree has its root and otherwise children of its copies. -/
theorem SubjectTree.length_copies (tree : SubjectTree) :
    tree.copies.length = 1 + (tree.copies.flatMap SubjectTree.children).length := by
  obtain ⟨node, cls, edges⟩ := tree
  have hedges := SubjectTree.length_copiesAlong edges
  have hchildren : (SubjectTree.mk node cls edges).children =
      edges.filterMap (·.target.nested?) := rfl
  rw [SubjectTree.copies, List.length_cons, List.flatMap_cons, List.length_append, hchildren]
  omega

/-- The copies below edges are what the edges nest and otherwise children of such copies. -/
theorem SubjectTree.length_copiesAlong (edges : List Edge) :
    (SubjectTree.copiesAlong edges).length =
      (edges.filterMap (·.target.nested?)).length +
        ((SubjectTree.copiesAlong edges).flatMap SubjectTree.children).length := by
  match edges with
  | [] => rfl
  | ⟨path, target⟩ :: edges =>
      have htarget := target.length_copies
      have hedges := SubjectTree.length_copiesAlong edges
      have hnested : ((⟨path, target⟩ :: edges).filterMap (·.target.nested?)).length =
          target.nested?.toList.length + (edges.filterMap (·.target.nested?)).length := by
        cases htop : target.nested? <;> simp [htop, Nat.add_comm]
      rw [SubjectTree.copiesAlong, List.length_append, List.flatMap_append, List.length_append,
        hnested, htarget, hedges]
      omega

/-- The copies below a target are what it nests and otherwise children of such copies. -/
theorem EdgeTarget.length_copies (target : EdgeTarget) :
    target.copies.length =
      target.nested?.toList.length +
        (target.copies.flatMap SubjectTree.children).length := by
  match target with
  | .nested tree => exact tree.length_copies
  | .literal _ => rfl
  | .reference _ => rfl

end

/-- The copies in trees are the roots and otherwise children of copies. -/
theorem length_copies_forest (roots : List SubjectTree) :
    (roots.flatMap SubjectTree.copies).length =
      roots.length + ((roots.flatMap SubjectTree.copies).flatMap SubjectTree.children).length := by
  induction roots with
  | nil => rfl
  | cons root roots ih =>
      have hroot := root.length_copies
      rw [List.flatMap_cons, List.length_append, List.flatMap_append, List.length_append,
        List.length_cons]
      omega

/-! ## Children are nesting facts -/

namespace FactSet

/-- The facts of a subject that nest a typed subject. -/
def nestingFacts (facts : FactSet) (subject : Node) : List Fact :=
  facts.toList.filter fun f => f.subject = subject && facts.nests f

/-- A copy renders every fact of its subject that nests a typed subject. -/
theorem filter_reportedFacts_nests (facts : FactSet) (subject : Node) :
    (facts.reportedFacts subject).filter facts.nests = facts.nestingFacts subject := by
  rw [reportedFacts_eq_renderedFacts, renderedFacts, List.filter_filter, nestingFacts]
  refine List.filter_congr fun f _ => ?_
  cases hnests : facts.nests f with
  | false => simp
  | true => simp [(nests_iff.1 hnests).1]

end FactSet

/-- Edges that show facts nest as many subjects as there are facts to nest. -/
theorem length_nested_of_shows {isFirst : Bool} {reported : List Fact} {edges : List Edge}
    (h : List.Forall₂ (Edge.Shows facts isFirst) reported edges) :
    (edges.filterMap (·.target.nested?)).length =
      (reported.filter fun f => isFirst && facts.nests f).length := by
  induction h with
  | nil => rfl
  | @cons fact edge _ _ hedge _ ih =>
      have hsome := hedge.2.isSome_nested?_eq
      cases htop : edge.target.nested? with
      | none =>
          rw [htop, Option.isSome_none] at hsome
          rw [List.filterMap_cons_none (f := fun edge : Edge => edge.target.nested?) htop,
            List.filter_cons_of_neg (by simp [← hsome]), ih]
      | some child =>
          rw [htop, Option.isSome_some] at hsome
          rw [List.filterMap_cons_some (f := fun edge : Edge => edge.target.nested?) htop,
            List.filter_cons_of_pos (by simp [← hsome]), List.length_cons, List.length_cons, ih]

/-- A first copy has a child for each fact of its subject that nests one, and a later copy none. -/
theorem SubjectTree.IsCopy.length_children {isFirst : Bool} (h : tree.IsCopy facts isFirst) :
    tree.children.length = if isFirst then (facts.nestingFacts tree.node).length else 0 := by
  rw [children, length_nested_of_shows h.edges]
  cases isFirst with
  | false => simp
  | true => simp [← FactSet.filter_reportedFacts_nests]

/-- In a row of copies the children are counted by the nodes that are met for the first time. -/
theorem CopiesAfter.length_children {met : List Node} {copies : List SubjectTree}
    (h : CopiesAfter facts met copies) :
    (copies.flatMap SubjectTree.children).length =
      ((((copies.map (·.node)).filter (· ∉ met)).eraseDups).flatMap facts.nestingFacts).length := by
  induction copies generalizing met with
  | nil => rfl
  | cons copy copies ih =>
      have hcopy := h.1.length_children
      rw [List.flatMap_cons, List.length_append, hcopy, ih h.2, List.map_cons]
      by_cases hmet : copy.node ∈ met
      · have hsame : ((copies.map (·.node)).filter (· ∉ copy.node :: met)) =
            (copies.map (·.node)).filter (· ∉ met) :=
          List.filter_congr fun node _ => by
            by_cases hnode : node = copy.node <;> simp [hnode, hmet]
        rw [hsame, List.filter_cons_of_neg (by simp [hmet])]
        simp [hmet]
      · -- The node is met here, and of the later copies those of other nodes count.
        have hothers : ((copies.map (·.node)).filter (· ∉ copy.node :: met)) =
            ((copies.map (·.node)).filter (· ∉ met)).filter fun node => !node == copy.node := by
          rw [List.filter_filter]
          exact List.filter_congr fun node _ => by
            by_cases hnode : node = copy.node <;> simp [hnode]
        rw [List.filter_cons_of_pos (by simp [hmet]), List.eraseDups_cons, ← hothers,
          List.flatMap_cons, List.length_append]
        simp [hmet]

/-- The nodes of the copies in a forest are the typed subjects. -/
theorem nodes_readForest_perm (facts : FactSet) :
    ((facts.readForest.flatMap SubjectTree.copies).map (·.node)).eraseDups.Perm
      facts.typedSubjects := by
  have hnodup : facts.typedSubjects.Nodup := by
    rw [FactSet.typedSubjects, FactSet.subjects_eq_eraseDups]
    exact (nodup_eraseDups _).filter _
  refine (List.perm_ext_iff_of_nodup (nodup_eraseDups _) hnodup).2 fun node => ?_
  rw [List.mem_eraseDups, List.mem_map]
  constructor
  · rintro ⟨copy, hcopy, rfl⟩
    obtain ⟨isFirst, hisCopy⟩ := (readForest_copies facts).isCopy copy hcopy
    exact FactSet.mem_typedSubjects.2 (FactSet.isTyped_of_class hisCopy.cls)
  · intro hnode
    rw [← readForest_roots, List.mem_map] at hnode
    obtain ⟨root, hroot, rfl⟩ := hnode
    refine ⟨root, List.mem_flatMap.2 ⟨root, hroot, ?_⟩, rfl⟩
    rw [SubjectTree.copies_eq]
    exact List.mem_cons_self

/-- The facts of typed subjects that nest, taken subject by subject, are all such facts. -/
theorem nestingFacts_typedSubjects_perm (facts : FactSet) :
    (facts.typedSubjects.flatMap facts.nestingFacts).Perm
      (facts.toList.filter fun f => facts.isTyped f.subject && facts.nests f) := by
  have hnodup : facts.typedSubjects.Nodup :=
    (nodes_readForest_perm facts).nodup_iff.1 (nodup_eraseDups _)
  have hparts : facts.typedSubjects.flatMap facts.nestingFacts =
      facts.typedSubjects.flatMap fun subject =>
        (facts.toList.filter fun f => facts.isTyped f.subject && facts.nests f).filter
          (·.subject = subject) := by
    rw [List.flatMap_def, List.flatMap_def]
    congr 1
    refine List.map_congr_left fun subject hsubject => ?_
    rw [FactSet.nestingFacts, List.filter_filter]
    refine List.filter_congr fun f _ => ?_
    by_cases hf : f.subject = subject
    · simp [hf, FactSet.mem_typedSubjects.1 hsubject]
    · simp [hf]
  rw [hparts]
  exact flatMap_filter_perm Fact.subject hnodup fun f hf => by
    have htest := (List.mem_filter.1 hf).2
    rw [Bool.and_eq_true] at htest
    exact FactSet.mem_typedSubjects.2 htest.1

/-- A forest has a copy for each typed subject and one more for each fact that leads from a typed
subject to another, or to itself. -/
theorem length_copies_readForest (facts : FactSet) :
    (facts.readForest.flatMap SubjectTree.copies).length =
      facts.typedSubjects.length +
        (facts.toList.filter fun f => facts.isTyped f.subject && facts.nests f).length := by
  have hroots : facts.readForest.length = facts.typedSubjects.length := by
    rw [← readForest_roots, List.length_map]
  have hchildren := (readForest_copies facts).length_children
  have hall : ((facts.readForest.flatMap SubjectTree.copies).map (·.node)).filter (· ∉ []) =
      (facts.readForest.flatMap SubjectTree.copies).map (·.node) :=
    List.filter_eq_self.2 fun _ _ => by simp
  rw [hall, ((nodes_readForest_perm facts).flatMap_right facts.nestingFacts).length_eq,
    (nestingFacts_typedSubjects_perm facts).length_eq] at hchildren
  rw [length_copies_forest, hroots, hchildren]

/-- Reading is bounded by the facts, whether they have cycles or not. From any claims, the reading
of any subject has exactly one end, and a reader finds it. A new reader that is asked for all
subjects answers with the forest. It has as many copies as there are typed subjects and facts that
lead from a typed subject along a property to a typed node that is no literal, and no way down it
holds more copies than there are typed subjects and one. -/
theorem reading_bounded (facts : FactSet) :
    (∀ claims subject, ∃! answer, facts.ReadingEnds claims subject answer) ∧
      (∀ claims subject, facts.ReadingEnds claims subject
        (claimSubject facts facts.depthBound claims subject)) ∧
      ReadCall.answers facts (claimSubject facts facts.depthBound) .empty [.all] =
        facts.readForest ∧
      (facts.readForest.flatMap SubjectTree.copies).length =
        facts.typedSubjects.length +
          (facts.toList.filter fun f =>
            f.predicate ≠ Vocabulary.rdfType ∧ facts.isTyped f.subject = true ∧
              f.object.isLiteral = false ∧ facts.isTyped f.object = true).length ∧
      ∀ tree ∈ facts.readForest, tree.depth ≤ facts.typedSubjects.length + 1 := by
  have hends := claimSubject_depthBound_ends facts
  have hanswers : ReadCall.answers facts (claimSubject facts facts.depthBound) .empty [.all] =
      facts.readForest := (answers_claimSubject facts [.all]).trans facts.readCalls_all
  refine ⟨fun claims subject => ⟨_, hends claims subject, fun answer hanswer =>
    hanswer.unique (hends claims subject)⟩, hends, hanswers, ?_, fun tree htree => ?_⟩
  · rw [length_copies_readForest]
    congr 2
    refine List.filter_congr fun f _ => ?_
    rw [Bool.eq_iff_iff, Bool.and_eq_true, FactSet.nests_iff, decide_eq_true_eq]
    tauto
  · rw [← hanswers] at htree
    exact depth_le_of_answers htree

/-- The document and its author refer to each other. The tree of the document is as deep as it may
be, with the document again below its author, and of the four copies two are no roots. -/
theorem reading_bounded_minutes :
    ∃ tree ∈ minutes.readForest, tree.node = .iri "urn:d" ∧ tree.depth = 3 ∧
      tree.depth ≤ minutes.typedSubjects.length + 1 ∧
      (minutes.readForest.flatMap SubjectTree.copies).length = 2 + 2 := by
  obtain ⟨-, -, -, hcount, hdepth⟩ := reading_bounded minutes
  have hroots : minutes.readForest ≠ [] := by decide
  have hdocument := List.head_mem hroots
  exact ⟨minutes.readForest.head hroots, hdocument, rfl, rfl, hdepth _ hdocument,
    hcount.trans (by decide)⟩

end PublicationAudit
