import PublicationAudit.Proofs.Forest.Copies
import PublicationAudit.Validation.Walk

/-!
# First copies

The map of first copies of any forest is closed: it knows every subject that is nested in a copy it
holds (`ofForest_complete`), so that a walk never leaves it. For a forest read from facts whose
identifiers are distinct it holds exactly the first copies, those with expanded edges: this is
`firstCopy_of_typed` and `isCopy_of_firstCopy`.
-/

namespace PublicationAudit

namespace FirstCopies

/-! ## Closed maps -/

/-- Every copy stands under its identifier, and what it nests is known. -/
def Complete (copies : FirstCopies) : Prop :=
  ∀ uri copy, copies.find? uri = some copy →
    copy.uri = uri ∧ ∀ child ∈ copy.children, copies.contains child.uri = true

/-- The copy of a subject that the map knows. -/
theorem copyOf_eq (copies : FirstCopies) {subject copy : SubjectTree}
    (h : copies.find? subject.uri = some copy) : copies.copyOf subject = copy := by
  rw [copyOf, h, Option.getD_some]

/-- A subject that a closed map knows has a copy there, with what it nests. -/
theorem Complete.exists_copy {copies : FirstCopies} (h : copies.Complete) {uri : String}
    (hknown : copies.contains uri = true) :
    ∃ copy, copies.find? uri = some copy ∧ copy.uri = uri ∧
      ∀ child ∈ copy.children, copies.contains child.uri = true := by
  obtain ⟨copy, hcopy⟩ := Option.isSome_iff_exists.1 hknown
  exact ⟨copy, hcopy, h uri copy hcopy⟩

/-- Entering a known subject leaves fewer that are not in progress. -/
theorem unmet_enter_lt {copies : FirstCopies} {uri : String} {inProgress : List String}
    (hknown : copies.contains uri = true) (hout : uri ∉ inProgress) :
    unmet copies.keys (uri :: inProgress) < unmet copies.keys inProgress :=
  unmet_cons_lt ((OrderedMap.mem_keys_iff copies uri).2 hknown) hout

/-- What adding trees does to a map: known copies stay, the trees become known, and new copies stand
under their identifiers with all they nest. -/
structure Adds (before : FirstCopies) (trees : List SubjectTree) (after : FirstCopies) : Prop where
  keeps : ∀ uri copy, before.find? uri = some copy → after.find? uri = some copy
  covers : ∀ tree ∈ trees, after.contains tree.uri = true
  closed : ∀ uri copy, after.find? uri = some copy → before.find? uri = some copy ∨
    (copy.uri = uri ∧ ∀ child ∈ copy.children, after.contains child.uri = true)

namespace Adds

variable {before mid after : FirstCopies} {trees more : List SubjectTree}

/-- A known subject stays known. -/
theorem contains (h : Adds before trees after) {uri : String}
    (hknown : before.contains uri = true) : after.contains uri = true := by
  obtain ⟨copy, hcopy⟩ := Option.isSome_iff_exists.1 hknown
  exact Option.isSome_iff_exists.2 ⟨copy, h.keeps uri copy hcopy⟩

/-- Adding nothing. -/
theorem nil (copies : FirstCopies) : Adds copies [] copies :=
  ⟨fun _ _ h => h, fun _ h => by simp at h, fun _ _ h => .inl h⟩

/-- Adding some trees and then others. -/
theorem append (h : Adds before trees mid) (hmore : Adds mid more after) :
    Adds before (trees ++ more) after where
  keeps uri copy hcopy := hmore.keeps uri copy (h.keeps uri copy hcopy)
  covers tree htree := by
    rcases List.mem_append.1 htree with ht | ht
    · exact hmore.contains (h.covers tree ht)
    · exact hmore.covers tree ht
  closed uri copy hcopy := by
    rcases hmore.closed uri copy hcopy with hmid | hnew
    · rcases h.closed uri copy hmid with hold | ⟨huri, hchildren⟩
      · exact .inl hold
      · exact .inr ⟨huri, fun child hchild => hmore.contains (hchildren child hchild)⟩
    · exact .inr hnew

end Adds

/-- A lookup after a tree's own copy was stored. -/
theorem find?_insert (copies : FirstCopies) (key uri : String) (tree : SubjectTree) :
    (copies.insert key tree).find? uri = if uri = key then some tree else copies.find? uri :=
  OrderedMap.find?_upsert copies key uri _

mutual

/-- Adding a tree makes it known together with all it nests. -/
theorem adds_addTree (copies : FirstCopies) (tree : SubjectTree) :
    Adds copies [tree] (addTree copies tree) := by
  obtain ⟨node, cls, edges⟩ := tree
  rw [addTree]
  split
  · rename_i hknown
    exact ⟨fun _ _ h => h, fun tree htree => by
      rw [List.mem_singleton.1 htree]
      exact hknown, fun _ _ h => .inl h⟩
  · rename_i hnew
    have hbelow := adds_addEdges (copies.insert node.key ⟨node, cls, edges⟩) edges
    have hself : (copies.insert node.key ⟨node, cls, edges⟩).find? node.key =
        some ⟨node, cls, edges⟩ := by
      rw [find?_insert, if_pos rfl]
    refine ⟨fun uri copy hcopy => hbelow.keeps uri copy ?_, fun tree htree => ?_,
      fun uri copy hcopy => ?_⟩
    · have hne : uri ≠ node.key := fun h => hnew (by
        rw [OrderedMap.contains, ← h, hcopy]
        rfl)
      rw [find?_insert, if_neg hne, hcopy]
    · rw [List.mem_singleton.1 htree]
      exact Option.isSome_iff_exists.2 ⟨_, hbelow.keeps _ _ hself⟩
    · rcases hbelow.closed uri copy hcopy with hold | hclosed
      · rw [find?_insert] at hold
        split at hold
        · rename_i huri
          cases hold
          exact .inr ⟨huri.symm, hbelow.covers⟩
        · exact .inl hold
      · exact .inr hclosed

/-- Adding the trees below edges makes them known together with all they nest. -/
theorem adds_addEdges (copies : FirstCopies) (edges : List Edge) :
    Adds copies (edges.filterMap (·.target.nested?)) (addEdges copies edges) := by
  cases edges with
  | nil => exact .nil copies
  | cons edge edges =>
      obtain ⟨path, target⟩ := edge
      have htarget := adds_addTarget copies target
      have hedges := adds_addEdges (addTarget copies target) edges
      have hboth := htarget.append hedges
      cases target <;> exact hboth

/-- Adding the tree at a target makes it known together with all it nests. -/
theorem adds_addTarget (copies : FirstCopies) (target : EdgeTarget) :
    Adds copies target.nested?.toList (addTarget copies target) := by
  cases target with
  | literal text => exact .nil copies
  | reference key => exact .nil copies
  | nested tree => exact adds_addTree copies tree

end

/-- The trees of a forest become known together with all they nest. -/
theorem adds_foldl (roots : List SubjectTree) (copies : FirstCopies) :
    Adds copies roots (roots.foldl addTree copies) := by
  induction roots generalizing copies with
  | nil => exact .nil copies
  | cons root roots ih => exact (adds_addTree copies root).append (ih (addTree copies root))

/-- The first copies of a forest are closed under nesting. -/
theorem ofForest_complete (roots : List SubjectTree) : (ofForest roots).Complete := by
  intro uri copy hcopy
  rcases (adds_foldl roots .empty).closed uri copy hcopy with hnone | hclosed
  · simp at hnone
  · exact hclosed

/-- Every root of a forest has a first copy. -/
theorem contains_root {roots : List SubjectTree} {root : SubjectTree} (h : root ∈ roots) :
    (ofForest roots).contains root.uri = true :=
  (adds_foldl roots .empty).covers root h

/-! ## Where copies come from -/

section Origin

variable {uri : String} {copy : SubjectTree}

mutual

/-- A copy that is held after a tree was added was held before or is in the tree. -/
theorem held_of_addTree {copies : FirstCopies} {tree : SubjectTree}
    (h : (addTree copies tree).find? uri = some copy) :
    copies.find? uri = some copy ∨ copy ∈ tree.copies := by
  obtain ⟨node, cls, edges⟩ := tree
  rw [addTree] at h
  rw [SubjectTree.copies]
  split at h
  · exact .inl h
  · rcases held_of_addEdges h with hself | hbelow
    · rw [find?_insert] at hself
      split at hself
      · cases hself
        exact .inr List.mem_cons_self
      · exact .inl hself
    · exact .inr (List.mem_cons_of_mem _ hbelow)

/-- A copy that is held after the trees below edges were added was held before or is in one of
them. -/
theorem held_of_addEdges {copies : FirstCopies} {edges : List Edge}
    (h : (addEdges copies edges).find? uri = some copy) :
    copies.find? uri = some copy ∨ copy ∈ SubjectTree.copiesAlong edges := by
  cases edges with
  | nil => exact .inl h
  | cons edge edges =>
      obtain ⟨path, target⟩ := edge
      rw [addEdges] at h
      rw [SubjectTree.copiesAlong, List.mem_append]
      rcases held_of_addEdges h with htarget | hrest
      · exact (held_of_addTarget htarget).imp_right .inl
      · exact .inr (.inr hrest)

/-- A copy that is held after the tree at a target was added was held before or is in it. -/
theorem held_of_addTarget {copies : FirstCopies} {target : EdgeTarget}
    (h : (addTarget copies target).find? uri = some copy) :
    copies.find? uri = some copy ∨ copy ∈ target.copies := by
  cases target with
  | literal text => exact .inl h
  | reference key => exact .inl h
  | nested tree => exact held_of_addTree h

end

/-- A copy that is held after the trees of a forest were added was held before or is in one of
them. -/
theorem held_of_foldl {copies : FirstCopies} {roots : List SubjectTree}
    (h : (roots.foldl addTree copies).find? uri = some copy) :
    copies.find? uri = some copy ∨ copy ∈ roots.flatMap SubjectTree.copies := by
  induction roots generalizing copies with
  | nil => exact .inl h
  | cons root roots ih =>
      rw [List.flatMap_cons, List.mem_append]
      rcases ih h with hroot | hrest
      · exact (held_of_addTree hroot).imp_right .inl
      · exact .inr (.inr hrest)

/-- The first copies of a forest are copies in it. -/
theorem mem_copies_of_find? {roots : List SubjectTree}
    (h : (ofForest roots).find? uri = some copy) : copy ∈ roots.flatMap SubjectTree.copies := by
  rcases held_of_foldl h with hnone | hcopy
  · simp at hnone
  · exact hcopy

end Origin

/-! ## Maps of a forest in which repeated copies nest nothing -/

/-- Copies met one after the other, after the listed identifiers: one whose identifier was met
before nests nothing. -/
def RepeatsNestNothing : List String → List SubjectTree → Prop
  | _, [] => True
  | known, copy :: copies =>
    (copy.uri ∈ known → SubjectTree.copiesAlong copy.edges = []) ∧
      RepeatsNestNothing (copy.uri :: known) copies

/-- Which identifiers were met matters, not in which order. -/
theorem repeatsNestNothing_congr {known other : List String} (h : ∀ uri, uri ∈ known ↔ uri ∈ other)
    (trees : List SubjectTree) :
    RepeatsNestNothing known trees ↔ RepeatsNestNothing other trees := by
  induction trees generalizing known other with
  | nil => exact Iff.rfl
  | cons copy trees ih =>
      have hrest : ∀ uri, uri ∈ copy.uri :: known ↔ uri ∈ copy.uri :: other := fun uri => by
        rw [List.mem_cons, List.mem_cons, h]
      simp only [RepeatsNestNothing, h, ih hrest]

/-- Copies in two parts. -/
theorem repeatsNestNothing_append {known : List String} {trees more : List SubjectTree}
    (h : RepeatsNestNothing known (trees ++ more)) :
    RepeatsNestNothing known trees ∧
      RepeatsNestNothing (trees.map (·.uri) ++ known) more := by
  induction trees generalizing known with
  | nil => exact ⟨trivial, h⟩
  | cons copy trees ih =>
      obtain ⟨hleft, hright⟩ := ih h.2
      refine ⟨⟨h.1, hleft⟩, (repeatsNestNothing_congr (fun uri => ?_) more).1 hright⟩
      simp only [List.map_cons, List.mem_append, List.mem_cons]
      tauto

/-- What a map holds after copies were added to it: the copy it held, or else the first one
added. -/
def Extends (before : FirstCopies) (trees : List SubjectTree) (after : FirstCopies) : Prop :=
  ∀ uri, after.find? uri = (before.find? uri).or (trees.find? (·.uri = uri))

namespace Extends

variable {before mid after : FirstCopies} {trees more : List SubjectTree}

/-- The identifiers that are known afterwards. -/
theorem mem_keys (h : Extends before trees after) (uri : String) :
    uri ∈ after.keys ↔ uri ∈ trees.map (·.uri) ++ before.keys := by
  rw [OrderedMap.mem_keys_iff, h uri, List.mem_append, OrderedMap.mem_keys_iff, Option.isSome_or,
    Bool.or_eq_true, List.find?_isSome, List.mem_map, or_comm]
  simp

/-- Adding some copies and then others. -/
theorem append (h : Extends before trees mid) (hmore : Extends mid more after) :
    Extends before (trees ++ more) after := by
  intro uri
  rw [hmore uri, h uri, List.find?_append, Option.or_assoc]

end Extends

mutual

/-- Where repeated copies nest nothing, skipping them loses nothing. -/
theorem extends_addTree (copies : FirstCopies) (tree : SubjectTree)
    (h : RepeatsNestNothing copies.keys tree.copies) :
    Extends copies tree.copies (addTree copies tree) := by
  obtain ⟨node, cls, edges⟩ := tree
  rw [SubjectTree.copies] at h ⊢
  rw [addTree]
  split
  · rename_i hknown
    -- The tree is skipped, and there is nothing below it to lose.
    have hnothing := h.1 ((OrderedMap.mem_keys_iff copies node.key).2 hknown)
    intro uri
    rw [show SubjectTree.copiesAlong edges = [] from hnothing]
    by_cases huri : node.key = uri
    · obtain ⟨copy, hcopy⟩ := Option.isSome_iff_exists.1 hknown
      rw [← huri, hcopy]
      rfl
    · have hother : List.find? (fun copy => decide (copy.uri = uri))
          [(⟨node, cls, edges⟩ : SubjectTree)] = none :=
        List.find?_eq_none.2 fun copy hcopy => by
          rw [List.mem_singleton.1 hcopy]
          simp [SubjectTree.uri, huri]
      rw [hother, Option.or_none]
  · rename_i hnew
    have hkeys : ∀ uri, uri ∈ (copies.insert node.key ⟨node, cls, edges⟩).keys ↔
        uri ∈ node.key :: copies.keys := fun uri => by
      rw [OrderedMap.mem_keys_iff, find?_insert, List.mem_cons, OrderedMap.mem_keys_iff]
      by_cases huri : uri = node.key <;> simp [huri]
    -- The tree itself is known before its edges are added, so a copy below it comes too late.
    have hbelow := extends_addEdges (copies.insert node.key ⟨node, cls, edges⟩) edges
      ((repeatsNestNothing_congr hkeys _).2 h.2)
    intro uri
    rw [hbelow uri, find?_insert]
    by_cases huri : uri = node.key
    · have hnone : copies.find? uri = none := by
        rw [huri]
        simpa [OrderedMap.contains] using hnew
      rw [if_pos huri, hnone, List.find?_cons_of_pos (by simp [SubjectTree.uri, huri])]
      rfl
    · have hne : ¬ node.key = uri := fun he => huri he.symm
      rw [if_neg huri, List.find?_cons_of_neg (by simp [SubjectTree.uri, hne])]

/-- Where repeated copies nest nothing, skipping them below edges loses nothing. -/
theorem extends_addEdges (copies : FirstCopies) (edges : List Edge)
    (h : RepeatsNestNothing copies.keys (SubjectTree.copiesAlong edges)) :
    Extends copies (SubjectTree.copiesAlong edges) (addEdges copies edges) := by
  cases edges with
  | nil =>
      intro uri
      simp [addEdges, SubjectTree.copiesAlong]
  | cons edge edges =>
      obtain ⟨path, target⟩ := edge
      rw [SubjectTree.copiesAlong] at h ⊢
      obtain ⟨hleft, hright⟩ := repeatsNestNothing_append h
      have htarget := extends_addTarget copies target hleft
      exact htarget.append (extends_addEdges (addTarget copies target) edges
        ((repeatsNestNothing_congr htarget.mem_keys _).2 hright))

/-- Where repeated copies nest nothing, skipping them below a target loses nothing. -/
theorem extends_addTarget (copies : FirstCopies) (target : EdgeTarget)
    (h : RepeatsNestNothing copies.keys target.copies) :
    Extends copies target.copies (addTarget copies target) := by
  cases target with
  | literal text => intro uri; simp [addTarget, EdgeTarget.copies]
  | reference key => intro uri; simp [addTarget, EdgeTarget.copies]
  | nested tree => exact extends_addTree copies tree h

end

/-- The trees of a forest, added one after the other. -/
theorem extends_foldl (roots : List SubjectTree) (copies : FirstCopies)
    (h : RepeatsNestNothing copies.keys (roots.flatMap SubjectTree.copies)) :
    Extends copies (roots.flatMap SubjectTree.copies) (roots.foldl addTree copies) := by
  induction roots generalizing copies with
  | nil => intro uri; simp
  | cons root roots ih =>
      rw [List.flatMap_cons] at h ⊢
      obtain ⟨hleft, hright⟩ := repeatsNestNothing_append h
      have hroot := extends_addTree copies root hleft
      exact hroot.append (ih (addTree copies root)
        ((repeatsNestNothing_congr hroot.mem_keys _).2 hright))

/-! ## The map of a forest that was read from facts -/

variable {facts : FactSet}

/-- Copies of typed subjects with distinct identifiers: a repeated identifier is a repeated
subject. -/
theorem repeatsNestNothing_of_copiesAfter (hkeys : facts.KeysDistinct) {met : List Node}
    {trees : List SubjectTree} (hmet : ∀ n ∈ met, facts.isTyped n = true)
    (h : CopiesAfter facts met trees) : RepeatsNestNothing (met.map Node.key) trees := by
  induction trees generalizing met with
  | nil => trivial
  | cons copy trees ih =>
      have htyped := FactSet.isTyped_of_class h.1.cls
      -- A known identifier is that of a subject met before, and a later copy nests nothing.
      refine ⟨fun hknown => ?_, @ih (copy.node :: met) ?_ h.2⟩
      · obtain ⟨node, hnode, hkey⟩ := List.mem_map.1 hknown
        obtain rfl := hkeys.eq_of_key_eq (hmet node hnode) htyped hkey
        have hrepeat := h.1
        rw [List.contains_iff_mem.2 hnode] at hrepeat
        exact copiesAlong_eq_nil hrepeat.edges
      · intro node hnode
        rcases List.mem_cons.1 hnode with rfl | hold
        · exact htyped
        · exact hmet node hold

/-- The copy that is met first under an identifier is a first copy. -/
theorem isCopy_of_find? {met : List Node} {trees : List SubjectTree} {uri : String}
    {copy : SubjectTree} (h : CopiesAfter facts met trees) (hnew : uri ∉ met.map Node.key)
    (hfind : trees.find? (·.uri = uri) = some copy) :
    copy.uri = uri ∧ copy.IsCopy facts true := by
  induction trees generalizing met with
  | nil => simp at hfind
  | cons head trees ih =>
      by_cases huri : head.uri = uri
      · rw [List.find?_cons_of_pos (by simpa using huri)] at hfind
        obtain rfl := Option.some.inj hfind
        have hnode : head.node ∉ met := fun hmem =>
          hnew (huri ▸ List.mem_map_of_mem hmem)
        have hfirst := h.1
        rw [show met.contains head.node = false by simpa using hnode] at hfirst
        exact ⟨huri, hfirst⟩
      · rw [List.find?_cons_of_neg (by simpa using huri)] at hfind
        refine ih h.2 ?_ hfind
        rw [List.map_cons, List.mem_cons]
        exact fun hmem => hmem.elim (fun he => huri he.symm) hnew

/-- Every copy in the map of a forest read from facts is a first copy. -/
theorem isCopy_of_firstCopy (hkeys : facts.KeysDistinct) {uri : String} {copy : SubjectTree}
    (h : (ofForest facts.readForest).find? uri = some copy) :
    copy.uri = uri ∧ copy.IsCopy facts true := by
  have hcopies := readForest_copies facts
  have hextends := extends_foldl facts.readForest .empty
    (repeatsNestNothing_of_copiesAfter hkeys (by simp) hcopies)
  have hfind := hextends uri
  rw [OrderedMap.find?_empty, Option.none_or] at hfind
  exact isCopy_of_find? hcopies (by simp) (hfind.symm.trans h)

/-- Every typed subject has a first copy. -/
theorem firstCopy_of_typed (hkeys : facts.KeysDistinct) {subject : Node}
    (h : facts.isTyped subject = true) :
    ∃ copy, (ofForest facts.readForest).find? subject.key = some copy ∧ copy.node = subject ∧
      copy.IsCopy facts true := by
  have hnode : subject ∈ facts.readForest.map (·.node) := by
    rw [readForest_roots]
    exact FactSet.mem_typedSubjects.2 h
  obtain ⟨root, hroot, rfl⟩ := List.mem_map.1 hnode
  obtain ⟨copy, hcopy⟩ := Option.isSome_iff_exists.1 (contains_root hroot)
  obtain ⟨huri, hfirst⟩ := isCopy_of_firstCopy hkeys hcopy
  have htyped := FactSet.isTyped_of_class hfirst.cls
  exact ⟨copy, hcopy, hkeys.eq_of_key_eq htyped h huri, hfirst⟩

end FirstCopies

end PublicationAudit
