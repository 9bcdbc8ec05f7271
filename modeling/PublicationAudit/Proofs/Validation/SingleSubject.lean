import PublicationAudit.Proofs.Forest.Faithfulness
import PublicationAudit.Proofs.Validation.Reordering

/-!
# Validating one root of a forest

A root of a forest can be validated on its own. All that is known then is the tree of the root, and
a root that was met before, nested in an earlier tree, is there a copy without nested subjects. Such
a copy shows the same facts, so the entries and the counts are those of a run over the whole forest;
but the class of its values is judged by their identifiers alone. The main statement is
`validateOne_agrees_iff`, which says when the judgement is the same all the same;
`validateOne_disagrees` is a root for which it is not.
-/

namespace PublicationAudit

/-- The paths of the properties of an entry, each with its number of values. -/
def Entry.counts (entry : Entry) : List (String × Nat) :=
  match entry.properties with
  | .judged verdicts => verdicts.map fun verdict => (verdict.path, verdict.actualCount)
  | .plain readings => readings.map fun reading => (reading.path, reading.actualCount)

/-- Which of the judged properties of an entry are valid. -/
def Entry.flags (entry : Entry) : List Bool := entry.verdicts.map (·.valid)

namespace FactSet

/-- When a property is valid on a copy that nests nothing: values whose identifiers have a scheme
are trusted to have the required class, and no other values are. -/
def ConformsFolded (facts : FactSet) (engine : QueryEngine) (subject : Node)
    (shape : PropertyShape) : Prop :=
  facts.Conforms engine subject { shape with requiredClass := none } ∧
    ∀ required ∈ shape.requiredClass, required = Vocabulary.location ∨
      ∀ fact ∈ facts.valueFacts subject shape.path, isBareIdentifier fact.object.key

/-- Whether a property is valid without nested subjects is decided part by part. -/
instance (facts : FactSet) (engine : QueryEngine) (subject : Node) (shape : PropertyShape) :
    Decidable (facts.ConformsFolded engine subject shape) := inferInstanceAs (Decidable (_ ∧ _))

/-- The counts that an entry for a slot shows. -/
def slotCounts (facts : FactSet) (slot : Slot) : List (String × Nat) :=
  match slot.shape with
  | some shape => shape.properties.map fun property =>
      (property.path, facts.valueCount slot.subject property.path)
  | none => (facts.shownPaths slot.subject).map fun path =>
      (path, (facts.valueFacts slot.subject path).length)

/-- The flags that an entry for a slot shows when this is how properties are judged. -/
def slotFlags (judge : Node → PropertyShape → Bool) (slot : Slot) : List Bool :=
  (slot.shape.elim [] (·.properties)).map (judge slot.subject)

variable {facts : FactSet} {engine : QueryEngine} {slot : Slot} {entry : Entry}

/-- The counts of a reported entry. -/
theorem Reports.counts_eq (h : facts.Reports engine slot entry) :
    entry.counts = facts.slotCounts slot := by
  unfold slotCounts Entry.counts
  cases hshape : slot.shape with
  | some shape =>
      obtain ⟨verdicts, hjudged, hverdicts⟩ := (h.shaped shape hshape).judged
      rw [hjudged]
      exact map_eq_of_forall₂ hverdicts fun property verdict hverdict => by
        rw [hverdict.path, hverdict.actualCount]
  | none =>
      obtain ⟨readings, hplain, hreadings⟩ := (h.plain hshape).plain
      rw [hplain]
      exact map_eq_of_forall₂ hreadings fun path reading hreading => by
        rw [hreading.1, hreading.2.2]

/-- The flags of a reported entry. -/
theorem Reports.flags_eq (h : facts.Reports engine slot entry) :
    entry.flags = slotFlags (fun subject shape => facts.Conforms engine subject shape) slot := by
  unfold slotFlags Entry.flags Entry.verdicts
  cases hshape : slot.shape with
  | some shape =>
      obtain ⟨verdicts, hjudged, hverdicts⟩ := (h.shaped shape hshape).judged
      rw [hjudged]
      exact map_eq_of_forall₂ hverdicts fun property verdict hverdict => by
        rw [Bool.eq_iff_iff, hverdict.valid, decide_eq_true_iff]
  | none =>
      obtain ⟨readings, hplain, -⟩ := (h.plain hshape).plain
      rw [hplain]
      rfl

/-- The entries for the slots of a subject show the same flags under two judgements exactly when
these judge every property of every shape for its class alike. -/
theorem map_slotFlags_eq_iff {subject : Node} {cls : String}
    (hcls : facts.classOf? subject = some cls) (shapes : ShapeSet)
    (judge other : Node → PropertyShape → Bool) :
    (facts.slotsOf shapes subject).map (slotFlags judge) =
        (facts.slotsOf shapes subject).map (slotFlags other) ↔
      ∀ shape ∈ shapes.shapesFor cls, ∀ property ∈ shape.properties,
        judge subject property = other subject property := by
  unfold slotsOf
  rw [hcls, Option.elim_some]
  cases shapes.shapesFor cls with
  | nil => simp [slotFlags]
  | cons shape shapes =>
      show ((shape :: shapes).map _).map _ = ((shape :: shapes).map _).map _ ↔ _
      rw [List.map_map, List.map_map, List.map_inj_left]
      exact forall₂_congr fun shape _ => List.map_inj_left

end FactSet

/-! ## What a copy shows, whether it is expanded or not -/

namespace SubjectTree.IsCopy

variable {facts : FactSet} {copy : SubjectTree} {isFirst : Bool}

/-- On a copy that nests nothing the values of a property have a class when their identifiers have a
scheme. -/
theorem valuesMeetClass_folded_iff (h : copy.IsCopy facts false) (path required : String) :
    valuesMeetClass required (copy.valuesFor path) = true ↔ required = Vocabulary.location ∨
      ∀ fact ∈ facts.valueFacts copy.node path, isBareIdentifier fact.object.key := by
  have hvalues := h.valuesFor path
  have hbare : (∀ value ∈ copy.valuesFor path, value.isExternal = true) ↔
      ∀ fact ∈ facts.valueFacts copy.node path, isBareIdentifier fact.object.key :=
    forall_iff_of_forall₂ hvalues fun fact value hshows => by
      have hnested := hshows.isSome_nested?_eq
      rw [← hshows.identity]
      cases value with
      | literal text => rfl
      | reference key => rfl
      | nested tree => simp [EdgeTarget.nested?] at hnested
  have hnone : ∀ value ∈ copy.valuesFor path, value.nested? = none :=
    (forall_iff_of_forall₂ (p := fun _ => True) hvalues fun fact value hshows => by
      simpa using hshows.isSome_nested?_eq).2 fun _ _ => trivial
  rw [← hbare]
  cases hcopy : copy.valuesFor path with
  | nil => simp [valuesMeetClass]
  | cons value values =>
      have hfirst := hnone value (hcopy ▸ List.mem_cons_self)
      simp [valuesMeetClass, hfirst]

/-- The entries of a copy are those for the slots of its subject, with their counts. -/
theorem counts_eq (h : copy.IsCopy facts isFirst) (validator : Validator) (answers : Answers) :
    (validator.verdictFrom answers copy).entries.map Entry.counts =
      (facts.slotsOf validator.shapes copy.node).map facts.slotCounts := by
  have hplain : (Validator.plainEntry copy answers).counts =
      facts.slotCounts ⟨copy.node, none⟩ := by
    show ((Validator.groupEdges copy.edges).entries.map _).map _ = List.map _ _
    rw [h.groupEdges_entries, List.map_map, List.map_map]
    refine List.map_congr_left fun path _ => ?_
    simp [Validator.propertyReading, (h.valuesFor path).length_eq]
  have hshaped : ∀ shape, (validator.shapedEntry copy answers shape).counts =
      facts.slotCounts ⟨copy.node, some shape⟩ := fun shape => by
    show (shape.properties.map _).map _ = shape.properties.map _
    rw [List.map_map]
    exact List.map_congr_left fun property _ =>
      congrArg (Prod.mk property.path) (h.countValues_eq property.path)
  exact map_eq_of_forall₂ (h.forall₂_entries validator answers hplain hshaped) fun _ _ heq => heq

/-- The entries of a copy show the flags of its subject, however the copy judges a property. -/
theorem flags_eq (h : copy.IsCopy facts isFirst) (validator : Validator) (answers : Answers)
    {judge : Node → PropertyShape → Bool}
    (hjudge : ∀ shape : PropertyShape,
      (validator.verdictOnProperty copy answers shape).valid = judge copy.node shape) :
    (validator.verdictFrom answers copy).entries.map Entry.flags =
      (facts.slotsOf validator.shapes copy.node).map (FactSet.slotFlags judge) := by
  have hshaped : ∀ shape, (validator.shapedEntry copy answers shape).flags =
      FactSet.slotFlags judge ⟨copy.node, some shape⟩ := fun shape => by
    show (shape.properties.map _).map _ = shape.properties.map _
    rw [List.map_map]
    exact List.map_congr_left fun property _ => hjudge property
  exact map_eq_of_forall₂ (h.forall₂_entries validator answers rfl hshaped) fun _ _ heq => heq

/-- An expanded copy judges a property as the facts do. -/
theorem flags_expanded (h : copy.IsCopy facts true) (validator : Validator) (answers : Answers) :
    (validator.verdictFrom answers copy).entries.map Entry.flags =
      (facts.slotsOf validator.shapes copy.node).map
        (FactSet.slotFlags fun subject shape => facts.Conforms validator.engine subject shape) :=
  h.flags_eq validator answers fun shape => by
    rw [Bool.eq_iff_iff, (h.judgedFlat validator answers shape).valid, decide_eq_true_iff]

/-- A copy that nests nothing judges the class of values by their identifiers. -/
theorem flags_folded (h : copy.IsCopy facts false) (validator : Validator) (answers : Answers) :
    (validator.verdictFrom answers copy).entries.map Entry.flags =
      (facts.slotsOf validator.shapes copy.node).map
        (FactSet.slotFlags fun subject shape =>
          facts.ConformsFolded validator.engine subject shape) :=
  h.flags_eq validator answers fun shape => by
    rw [Bool.eq_iff_iff, h.valid_iff, decide_eq_true_iff]
    simp only [h.valuesMeetClass_folded_iff]
    rfl

end SubjectTree.IsCopy

/-! ## One root -/

namespace FirstCopies

/-- A tree is its own first copy. -/
theorem find?_ofForest_singleton (tree : SubjectTree) :
    (ofForest [tree]).find? tree.uri = some tree := by
  obtain ⟨node, cls, edges⟩ := tree
  have hbelow := adds_addEdges
    ((OrderedMap.empty : FirstCopies).insert node.key ⟨node, cls, edges⟩) edges
  exact hbelow.keeps _ _ (by rw [find?_insert, SubjectTree.uri, if_pos rfl])

end FirstCopies

namespace Validator

variable {facts : FactSet} {validator : Validator} {root : SubjectTree} {entries : List Entry}

/-- Validated on its own, a tree is judged from its own edges. -/
theorem validateOne_entries (validator : Validator) (tree : SubjectTree) :
    ∃ answers, (validator.validateOne tree .fresh).1 =
      (validator.verdictFrom answers tree).entries := by
  have hroot : (FirstCopies.ofForest [tree]).contains tree.uri = true :=
    FirstCopies.contains_root List.mem_cons_self
  obtain ⟨hgrows, verdict, hverdict, hanswer⟩ := resolveRoot_settles
    (FirstCopies.ofForest_complete [tree]) hroot (RunState.sound_fresh validator _) rfl
  obtain ⟨copy, stack, hexplains⟩ :=
    (hgrows.sound (RunState.sound_fresh validator _)).explained _ _ hverdict
  obtain rfl : tree = copy := Option.some.inj
    ((FirstCopies.find?_ofForest_singleton tree).symm.trans hexplains.found)
  have hgiven := hexplains.given _ (RunState.allows_answersUnder _ stack)
  exact ⟨_, by rw [validateOne, hanswer, Option.getD_some, hgiven]⟩

/-- Validated on its own, a root of a forest has as many entries with the same counts as in a run
over the whole forest. Its flags are the same exactly when its edges are expanded in its own tree,
or no property is judged otherwise on a copy that nests nothing. -/
theorem validateOne_agrees_iff (facts : FactSet) (hkeys : facts.KeysDistinct)
    (validator : Validator) (root : SubjectTree) (hroot : root ∈ facts.readForest) :
    ∃ entries, (validator.validateAll .silent facts.readForest .fresh).1 = .ok entries ∧
      let single := (validator.validateOne root .fresh).1
      let whole := entriesOf entries root.node
      single.length = whole.length ∧ single.map Entry.counts = whole.map Entry.counts ∧
      (single.map Entry.flags = whole.map Entry.flags ↔ root.IsCopy facts true ∨
        ∀ shape ∈ validator.shapes.shapesFor root.cls, ∀ property ∈ shape.properties,
          (facts.ConformsFolded validator.engine root.node property ↔
            facts.Conforms validator.engine root.node property)) := by
  obtain ⟨entries, hentries⟩ : ∃ entries, (validator.validateAll Observer.silent
      facts.readForest .fresh).1 = .ok entries :=
    validateAll_accepted (fun _ => rfl) facts.readForest .fresh
  refine ⟨entries, hentries, ?_⟩
  intro single whole
  obtain ⟨answers, hsingle⟩ := validateOne_entries validator root
  obtain ⟨isFirst, hcopy⟩ := (readForest_copies facts).isCopy root
    (List.mem_flatMap.2 ⟨root, hroot, by rw [SubjectTree.copies_eq]; exact List.mem_cons_self⟩)
  have hwhole := FactSet.reports_entriesOf hkeys (FactSet.isTyped_of_class hcopy.cls)
    (reports_of_validateAll hkeys hentries)
  have hcounts : single.map Entry.counts = whole.map Entry.counts := by
    rw [show single = _ from hsingle, hcopy.counts_eq validator answers]
    exact (map_eq_of_forall₂ hwhole fun _ _ hreports => hreports.counts_eq).symm
  have hflags : whole.map Entry.flags = (facts.slotsOf validator.shapes root.node).map
      (FactSet.slotFlags fun subject shape => facts.Conforms validator.engine subject shape) :=
    map_eq_of_forall₂ hwhole fun _ _ hreports => hreports.flags_eq
  have hlength := congrArg List.length hcounts
  rw [List.length_map, List.length_map] at hlength
  refine ⟨hlength, hcounts, ?_⟩
  rw [hflags, show single = _ from hsingle]
  cases isFirst with
  | true => exact iff_of_true (hcopy.flags_expanded validator answers) (.inl hcopy)
  | false =>
      have hfolded := hcopy.flags_folded validator answers
      rw [hfolded, FactSet.map_slotFlags_eq_iff hcopy.cls]
      simp only [decide_eq_decide]
      refine ⟨.inr, fun h => h.elim (fun hexpanded => ?_) id⟩
      -- A copy with nothing to nest is expanded and folded at once.
      have hboth := hfolded.symm.trans (hexpanded.flags_expanded validator answers)
      rw [FactSet.map_slotFlags_eq_iff hcopy.cls] at hboth
      simpa only [decide_eq_decide] using hboth

/-- A person who knows a clerk, and the clerk works for a person. -/
def employment : FactSet := .ofList
  [⟨.iri "urn:a", Vocabulary.rdfType, .iri "urn:Person"⟩,
    ⟨.iri "urn:a", "urn:knows", .iri "urn:b"⟩,
    ⟨.iri "urn:b", Vocabulary.rdfType, .iri "urn:Clerk"⟩,
    ⟨.iri "urn:b", "urn:worksFor", .iri "urn:c"⟩,
    ⟨.iri "urn:c", Vocabulary.rdfType, .iri "urn:Person"⟩]

/-- A clerk works for one office. -/
def clerkShape : NodeShape where
  id := "urn:ClerkShape"
  targetClass := "urn:Clerk"
  name := "Clerk"
  tier := none
  properties := [⟨"employer", none, "urn:worksFor", some "urn:Office", 1, some 1, none, []⟩]
  constraints := []

/-- The clerk is first met below the person. As a root it nests nothing, and validated on its own it
is trusted to work for an office; in the whole run the employer is seen to be a person. -/
theorem validateOne_disagrees :
    employment.KeysDistinct ∧ ∃ root ∈ employment.readForest, root.node = .iri "urn:b" ∧
      ∃ entries, ((⟨⟨[clerkShape]⟩, fun _ => .ok []⟩ : Validator).validateAll .silent
          employment.readForest .fresh).1 = .ok entries ∧
        (entriesOf entries root.node).map Entry.flags = [[false]] ∧
        ((⟨⟨[clerkShape]⟩, fun _ => .ok []⟩ : Validator).validateOne root .fresh).1.map
          Entry.flags = [[true]] :=
  ⟨by decide, _, List.mem_of_getElem? (i := 1) rfl, rfl, _, rfl, by decide, by decide⟩

/-- Of two persons who know each other the second is a root that nests nothing as well, and it is
judged alike on its own, since it knows a person. -/
theorem validateOne_agrees_iff_acquaintances :
    acquaintances.KeysDistinct ∧ ∃ root ∈ acquaintances.readForest, root.node = .iri "urn:b" ∧
      (∀ shape ∈ (⟨[personShape]⟩ : ShapeSet).shapesFor root.cls, ∀ property ∈ shape.properties,
        (acquaintances.ConformsFolded (fun _ => .ok []) root.node property ↔
          acquaintances.Conforms (fun _ => .ok []) root.node property)) ∧
      ∃ entries, ((⟨⟨[personShape]⟩, fun _ => .ok []⟩ : Validator).validateAll .silent
          acquaintances.readForest .fresh).1 = .ok entries ∧
        ((⟨⟨[personShape]⟩, fun _ => .ok []⟩ : Validator).validateOne root .fresh).1.map
          Entry.flags = (entriesOf entries root.node).map Entry.flags := by
  have hkeys : acquaintances.KeysDistinct := by decide
  have hroot : _ ∈ acquaintances.readForest := List.mem_of_getElem? (i := 1) rfl
  have hsame : ∀ shape ∈ (⟨[personShape]⟩ : ShapeSet).shapesFor "urn:Person",
      ∀ property ∈ shape.properties,
        (acquaintances.ConformsFolded (fun _ => .ok []) (.iri "urn:b") property ↔
          acquaintances.Conforms (fun _ => .ok []) (.iri "urn:b") property) := by decide
  obtain ⟨entries, hentries, -, -, hflags⟩ := validateOne_agrees_iff acquaintances hkeys
    ⟨⟨[personShape]⟩, fun _ => .ok []⟩ _ hroot
  exact ⟨hkeys, _, hroot, rfl, hsame, entries, hentries, hflags.2 (.inr hsame)⟩

end Validator

end PublicationAudit
