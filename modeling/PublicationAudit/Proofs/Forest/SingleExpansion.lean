import PublicationAudit.Proofs.Forest.EdgeClaims
import PublicationAudit.Proofs.Forest.Faithfulness

/-!
# Every edge is expanded once

Among the copies that one reader makes, in pre-order and call after call, the first copy of a
subject nests all that it can, and every later one is folded. The main statement is
`readCalls_expand_once`: so each edge to a typed subject is expanded in exactly one copy, whatever
the reader is asked for, and also when it keeps account of its edges one by one.
-/

namespace PublicationAudit

/-- How a first copy renders a fact: a typed subject is nested, anything else is folded. -/
def Edge.Unfolds (facts : FactSet) (fact : Fact) (edge : Edge) : Prop :=
  if facts.nests fact then ∃ tree, edge = ⟨fact.predicate, .nested tree⟩ ∧ tree.node = fact.object
  else edge = fact.foldedEdge

/-- A copy that nests every typed object of its subject. -/
def SubjectTree.IsExpanded (facts : FactSet) (copy : SubjectTree) : Prop :=
  List.Forall₂ (Edge.Unfolds facts) (facts.reportedFacts copy.node) copy.edges

/-- A copy that nests nothing and refers to the typed objects of its subject instead. -/
def SubjectTree.IsFolded (facts : FactSet) (copy : SubjectTree) : Prop :=
  copy.edges = (facts.reportedFacts copy.node).map Fact.foldedEdge

/-- Whether a copy of the subject nests an object along a path. -/
def SubjectTree.expands (copy : SubjectTree) (subject : Node) (path : String) : Bool :=
  copy.node = subject &&
    copy.edges.any fun edge => edge.path = path && edge.target.nested?.isSome

variable {facts : FactSet} {fact : Fact} {edge : Edge} {isFirst : Bool} {copy : SubjectTree}

/-- Where nothing is nested there is nothing to fold. -/
theorem Edge.folded_of_not_nested (h : edge.target.nested? = none) : edge.folded = edge := by
  obtain ⟨path, target⟩ := edge
  cases target with
  | literal text | reference key => rfl
  | nested tree => simp [EdgeTarget.nested?] at h

/-- An edge that nests nothing renders its fact in the folded form. -/
theorem Edge.Shows.eq_foldedEdge (h : edge.Shows facts isFirst fact)
    (hnested : edge.target.nested? = none) : edge = fact.foldedEdge := by
  have hrenders : edge.Renders fact := ⟨h.1, h.2.renders⟩
  rw [← hrenders.folded_eq, Edge.folded_of_not_nested hnested]

/-- On a first copy an edge nests what it can. -/
theorem Edge.Shows.unfolds (h : edge.Shows facts true fact) : edge.Unfolds facts fact := by
  have hnested := h.2.isSome_nested?_eq
  rw [Bool.true_and] at hnested
  unfold Edge.Unfolds
  split
  · rename_i hnests
    obtain ⟨path, target⟩ := edge
    obtain ⟨rfl, hshows⟩ := h
    rw [hnests] at hnested
    obtain ⟨tree, htree⟩ := Option.isSome_iff_exists.1 hnested
    cases target with
    | literal text | reference key => simp [EdgeTarget.nested?] at htree
    | nested tree => exact ⟨tree, rfl, hshows.2.2.1⟩
  · rename_i hnests
    rw [Bool.not_eq_true] at hnests
    rw [hnests, Option.isSome_eq_false_iff, Option.isNone_iff_eq_none] at hnested
    exact h.eq_foldedEdge hnested

namespace SubjectTree.IsCopy

/-- A first copy is expanded. -/
theorem isExpanded (h : copy.IsCopy facts true) : copy.IsExpanded facts :=
  h.edges.imp fun _ _ hshows => hshows.unfolds

/-- A later copy is folded. -/
theorem isFolded (h : copy.IsCopy facts false) : copy.IsFolded facts := by
  have hsame := map_eq_of_forall₂ (k := id) (g := Fact.foldedEdge) h.edges fun fact edge hshows => by
    have hnested := hshows.2.isSome_nested?_eq
    rw [Bool.false_and, Option.isSome_eq_false_iff, Option.isNone_iff_eq_none] at hnested
    exact hshows.eq_foldedEdge hnested
  rwa [List.map_id] at hsame

/-- A copy expands an edge when it is a first copy and the edge leads to a typed subject. -/
theorem expands_iff (h : copy.IsCopy facts isFirst) (subject : Node) (path : String) :
    copy.expands subject path = true ↔ isFirst = true ∧ copy.node = subject ∧
      ∃ fact ∈ facts.toList, fact.subject = subject ∧ fact.predicate = path ∧
        facts.nests fact = true := by
  simp only [expands, Bool.and_eq_true, decide_eq_true_eq, List.any_eq_true]
  constructor
  · rintro ⟨rfl, edge, hedge, hpath, hnested⟩
    obtain ⟨fact, hfact, hshows⟩ := exists_of_forall₂ (List.Forall₂.flip h.edges) hedge
    obtain ⟨hmem, hsubject⟩ := FactSet.mem_of_mem_reportedFacts hfact
    rw [hshows.2.isSome_nested?_eq, Bool.and_eq_true] at hnested
    exact ⟨hnested.1, rfl, fact, hmem, hsubject, hshows.1 ▸ hpath, hnested.2⟩
  · rintro ⟨hfirst, rfl, fact, hmem, hsubject, hpath, hnests⟩
    have hreported : fact ∈ facts.reportedFacts copy.node := by
      rw [FactSet.reportedFacts_eq_renderedFacts, FactSet.renderedFacts, List.mem_filter,
        decide_eq_true_eq]
      exact ⟨hmem, hsubject, fun htype => absurd htype (FactSet.nests_iff.1 hnests).1⟩
    obtain ⟨edge, hedge, hshows⟩ := exists_of_forall₂ h.edges hreported
    exact ⟨rfl, edge, hedge, hshows.1.trans hpath, by
      rw [hshows.2.isSome_nested?_eq, hfirst, hnests, Bool.and_self]⟩

end SubjectTree.IsCopy

/-! ## Copies one after the other -/

/-- In a row of copies, one is a first copy when its node was not met before it. -/
theorem CopiesAfter.isCopy_at {met : List Node} {before after : List SubjectTree}
    (h : CopiesAfter facts met (before ++ copy :: after)) :
    copy.IsCopy facts (decide (copy.node ∉ met ∧ copy.node ∉ before.map (·.node))) := by
  induction before generalizing met with
  | nil =>
      have hcopy := h.1
      rw [List.contains_eq_mem, ← decide_not] at hcopy
      simpa using hcopy
  | cons head before ih =>
      have hrest := ih h.2
      have hsame : copy.node ∉ head.node :: met ∧ copy.node ∉ before.map (·.node) ↔
          copy.node ∉ met ∧ copy.node ∉ (head :: before).map (·.node) := by
        rw [List.map_cons, List.mem_cons, List.mem_cons]
        tauto
      rwa [decide_eq_decide.2 hsame] at hrest

/-- In a row of copies, an edge to a typed subject is expanded once, if its subject is met and was
not met before. -/
theorem CopiesAfter.countP_expands {met : List Node} {copies : List SubjectTree}
    (h : CopiesAfter facts met copies) (subject : Node) (path : String) :
    copies.countP (·.expands subject path) =
      if subject ∉ met ∧ subject ∈ copies.map (·.node) ∧ ∃ fact ∈ facts.toList,
        fact.subject = subject ∧ fact.predicate = path ∧ facts.nests fact = true
      then 1 else 0 := by
  induction copies generalizing met with
  | nil => simp
  | cons copy copies ih =>
      have hcopy := h.1.expands_iff subject path
      rw [Bool.not_eq_true', List.contains_eq_mem, decide_eq_false_iff_not] at hcopy
      rw [List.countP_cons, ih h.2, List.map_cons]
      by_cases hnode : copy.node = subject
      · -- The copy is one of the subject: it expands the edge if it can, and no later one does.
        subst hnode
        simp only [hcopy, List.mem_cons, true_or, not_true, false_and, if_false,
          Nat.zero_add, true_and]
      · have hother : subject ≠ copy.node := fun he => hnode he.symm
        simp only [hcopy, List.mem_cons, hnode, hother, false_or, false_and, and_false, if_false,
          Nat.add_zero]

/-- Whatever one reader is asked for, it answers with a tree for each subject asked for that has a
class, and in these trees, call after call and in pre-order, the first copy of a subject is expanded
and every later copy is folded. So every edge to a typed subject is expanded in exactly one copy, if
its subject has any. A reader that claims its edges one by one gives the same trees. -/
theorem readCalls_expand_once (facts : FactSet) (calls : List ReadCall) :
    (facts.readCalls calls).map (·.node) =
        (calls.flatMap (ReadCall.subjects facts)).filter facts.isTyped ∧
      (∀ before copy after,
        (facts.readCalls calls).flatMap SubjectTree.copies = before ++ copy :: after →
          (copy.node ∉ before.map (·.node) → copy.IsExpanded facts) ∧
          (copy.node ∈ before.map (·.node) → copy.IsFolded facts)) ∧
      (∀ subject path, ((facts.readCalls calls).flatMap SubjectTree.copies).countP
          (·.expands subject path) =
        if subject ∈ ((facts.readCalls calls).flatMap SubjectTree.copies).map (·.node) ∧
          ∃ fact ∈ facts.toList, fact.subject = subject ∧ fact.predicate = path ∧
            facts.nests fact = true
        then 1 else 0) ∧
      ReadCall.answers facts (claimSubject facts facts.depthBound) .empty calls =
        facts.readCalls calls := by
  obtain ⟨hroots, hcopies⟩ := facts.readCalls_spec calls
  refine ⟨hroots, fun before copy after hsplit => ?_, fun subject path => ?_,
    answers_claimSubject facts calls⟩
  · rw [hsplit] at hcopies
    have hcopy := hcopies.isCopy_at
    refine ⟨fun hfirst => ?_, fun hlater => ?_⟩
    · rw [decide_eq_true (show copy.node ∉ [] ∧ _ from ⟨List.not_mem_nil, hfirst⟩)] at hcopy
      exact hcopy.isExpanded
    · rw [decide_eq_false (fun hnew => hnew.2 hlater)] at hcopy
      exact hcopy.isFolded
  · exact (hcopies.countP_expands subject path).trans
      (if_congr (and_iff_right List.not_mem_nil) rfl rfl)

/-- The author of the minutes is asked for first, and then all subjects. The copy met first nests
the document, the one below the document does not, and what the author wrote is expanded once. -/
theorem readCalls_expand_once_minutes :
    ∃ first document later others,
      (minutes.readCalls [.one (.blank "a"), .all]).flatMap SubjectTree.copies =
          [first, document] ++ later :: others ∧
        first.node = .blank "a" ∧ later.node = .blank "a" ∧ others.length = 2 ∧
        first.IsExpanded minutes ∧ later.IsFolded minutes ∧
        ((minutes.readCalls [.one (.blank "a"), .all]).flatMap SubjectTree.copies).countP
          (·.expands (.blank "a") "urn:wrote") = 1 := by
  obtain ⟨-, hcopies, hcount, -⟩ := readCalls_expand_once minutes [.one (.blank "a"), .all]
  refine ⟨_, _, _, _, rfl, rfl, rfl, rfl, ?_, ?_, ?_⟩
  · exact (hcopies [] _ _ rfl).1 List.not_mem_nil
  · exact (hcopies [_, _] _ _ rfl).2 (by decide)
  · rw [hcount]
    exact if_pos (by decide)

end PublicationAudit
