import PublicationAudit.Proofs.Forest.FirstCopies
import PublicationAudit.Proofs.Grouping

/-!
# First copies as a walk

The map of first copies is built by recursion over trees. The same copies are met on a walk with a
list of the trees that are still to come: a tree whose identifier was met is skipped with all below
it, any other is noted and its children come next. `entries_ofForest` says that the map holds what
the walk notes, in that order, for hand-made forests as well as for those read from facts.
-/

namespace PublicationAudit

/-- The copies below edges are those in the subjects that the edges nest. -/
theorem SubjectTree.copiesAlong_eq_flatMap (edges : List Edge) :
    copiesAlong edges = (edges.filterMap (·.target.nested?)).flatMap copies := by
  induction edges with
  | nil => rfl
  | cons edge edges ih =>
      obtain ⟨path, target⟩ := edge
      rw [copiesAlong, ih]
      cases target <;> rfl

/-- The trees to come become smaller when a tree is replaced by its children. -/
theorem length_copies_children_lt (tree : SubjectTree) (rest : List SubjectTree) :
    ((tree.children ++ rest).flatMap SubjectTree.copies).length <
      ((tree :: rest).flatMap SubjectTree.copies).length := by
  have htree : tree.copies.length = (tree.children.flatMap SubjectTree.copies).length + 1 := by
    rw [tree.copies_eq, List.length_cons, SubjectTree.copiesAlong_eq_flatMap]
    rfl
  rw [List.flatMap_append, List.flatMap_cons, List.length_append, List.length_append, htree]
  omega

namespace FirstCopies

/-- The copies that a walk in pre-order notes, when it has met the listed identifiers and the listed
trees are still to come. The subtrees of a repeated identifier are skipped. -/
def skippingWalk (known : List String) : List SubjectTree → List SubjectTree
  | [] => []
  | tree :: rest =>
    if tree.uri ∈ known then skippingWalk known rest
    else tree :: skippingWalk (tree.uri :: known) (tree.children ++ rest)
termination_by trees => (trees.flatMap SubjectTree.copies).length
decreasing_by
  · have hne := List.length_pos_of_mem (l := tree.copies) (a := tree) (by
      rw [tree.copies_eq]
      exact List.mem_cons_self)
    rw [List.flatMap_cons, List.length_append]
    omega
  · exact length_copies_children_lt tree rest

variable {copies : FirstCopies} {tree : SubjectTree}

/-- Adding what edges nest is adding the nested trees in order. -/
theorem addEdges_eq_foldl (copies : FirstCopies) (edges : List Edge) :
    addEdges copies edges = (edges.filterMap (·.target.nested?)).foldl addTree copies := by
  induction edges generalizing copies with
  | nil => rfl
  | cons edge edges ih =>
      obtain ⟨path, target⟩ := edge
      rw [addEdges, ih]
      cases target <;> rfl

/-- A tree whose identifier is known is skipped. -/
theorem addTree_of_contains (h : copies.contains tree.uri = true) :
    addTree copies tree = copies := by
  obtain ⟨node, cls, edges⟩ := tree
  rw [addTree]
  exact if_pos h

/-- A tree whose identifier is new is stored before its children are added. -/
theorem addTree_of_new (h : copies.contains tree.uri = false) :
    addTree copies tree = tree.children.foldl addTree (copies.insert tree.uri tree) := by
  obtain ⟨node, cls, edges⟩ := tree
  rw [addTree]
  exact (if_neg (by simpa [SubjectTree.uri] using h)).trans (addEdges_eq_foldl _ edges)

/-- Adding trees to a map appends what a walk over them notes that has met the identifiers of the
map. -/
theorem entries_foldl_addTree (copies : FirstCopies) (known : List String)
    (hknown : ∀ uri, uri ∈ known ↔ copies.contains uri = true) (trees : List SubjectTree) :
    (trees.foldl addTree copies).entries =
      copies.entries ++ (skippingWalk known trees).map fun tree => (tree.uri, tree) := by
  induction known, trees using skippingWalk.induct generalizing copies with
  | case1 known => simp [skippingWalk]
  | case2 known tree rest hmet ih =>
      rw [skippingWalk, if_pos hmet, List.foldl_cons, addTree_of_contains ((hknown _).1 hmet)]
      exact ih copies hknown
  | case3 known tree rest hnew ih =>
      have hfresh : copies.contains tree.uri = false := by
        rwa [hknown, Bool.not_eq_true] at hnew
      have hnone : copies.find? tree.uri = none := by
        rwa [OrderedMap.contains, Option.isSome_eq_false_iff, Option.isNone_iff_eq_none] at hfresh
      have hstored : ∀ uri, uri ∈ tree.uri :: known ↔
          (copies.insert tree.uri tree).contains uri = true := fun uri => by
        rw [List.mem_cons, hknown, OrderedMap.contains, OrderedMap.contains, find?_insert]
        by_cases huri : uri = tree.uri <;> simp [huri]
      -- The children of the tree come next, and then what was to come after it.
      rw [skippingWalk, if_neg hnew, List.foldl_cons, addTree_of_new hfresh, ← List.foldl_append,
        ih _ hstored, OrderedMap.entries_insert_of_new hnone, List.append_assoc]
      rfl

/-- The first copies of a forest are those that a walk over its roots notes. -/
theorem entries_ofForest (roots : List SubjectTree) :
    (ofForest roots).entries = (skippingWalk [] roots).map fun tree => (tree.uri, tree) := by
  rw [ofForest, entries_foldl_addTree .empty [] (fun uri => by simp [OrderedMap.contains])]
  rfl

/-- What the map finds under an identifier is the first copy that the walk notes of it. -/
theorem find?_ofForest (roots : List SubjectTree) (uri : String) :
    (ofForest roots).find? uri = (skippingWalk [] roots).find? (·.uri = uri) := by
  rw [OrderedMap.find?, entries_ofForest]
  induction skippingWalk [] roots with
  | nil => rfl
  | cons tree trees ih =>
      rw [List.map_cons, List.lookup_cons, List.find?_cons, ih]
      by_cases huri : tree.uri = uri
      · simp [huri]
      · have hne : (uri == tree.uri) = false := by
          simpa using fun he : uri = tree.uri => huri he.symm
        rw [hne, decide_eq_false huri]

end FirstCopies

end PublicationAudit
