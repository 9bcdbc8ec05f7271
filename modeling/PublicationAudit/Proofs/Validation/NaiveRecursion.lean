import Mathlib.Order.WellFoundedSet
import PublicationAudit.Proofs.Validation.FlatReading

/-!
# Naive recursion on acyclic facts

Where no typed subject is nested in itself, a report can be written down by plain recursion on the
facts: `Validator.naiveEntries` validates a nested subject again wherever it is referenced and keeps
no verdicts, no subjects in progress and no copies. The main statement is `validateAll_eq_naive`: a
run returns the same entries, at every depth.
-/

namespace PublicationAudit

namespace FactSet

variable {facts : FactSet} {subject object : Node}

/-- A typed subject nests the object of one of its facts. -/
def Nests (facts : FactSet) (subject object : Node) : Prop :=
  ∃ fact ∈ facts.toList, fact.subject = subject ∧ fact.object = object ∧
    facts.isTyped subject ∧ facts.nests fact

/-- Nesting is decided by going through the facts. -/
instance (facts : FactSet) (subject object : Node) : Decidable (facts.Nests subject object) :=
  inferInstanceAs (Decidable (∃ fact ∈ facts.toList, _))

/-- No subject is nested in itself, directly or through others. -/
def Acyclic (facts : FactSet) : Prop := ∀ subject, ¬ Relation.TransGen facts.Nests subject subject

/-- A subject that nests is typed, and so is the object that it nests. -/
theorem Nests.typed (h : facts.Nests subject object) :
    facts.isTyped subject = true ∧ facts.isTyped object = true := by
  obtain ⟨fact, -, -, rfl, hsubject, hnests⟩ := h
  exact ⟨hsubject, (nests_iff.1 hnests).2.2⟩

/-- Facts are acyclic when nesting leads down a ranking of the nodes. -/
theorem acyclic_of_rank (rank : Node → Nat)
    (h : ∀ fact ∈ facts.toList, facts.nests fact → rank fact.object < rank fact.subject) :
    facts.Acyclic := by
  have hdown : ∀ subject object, Relation.TransGen facts.Nests subject object →
      rank object < rank subject := fun subject object hchain => by
    induction hchain with
    | single hstep =>
        obtain ⟨fact, hfact, rfl, rfl, -, hnests⟩ := hstep
        exact h fact hfact hnests
    | tail _ hstep ih =>
        obtain ⟨fact, hfact, rfl, rfl, -, hnests⟩ := hstep
        exact (h fact hfact hnests).trans ih
  exact fun subject hcycle => lt_irrefl _ (hdown subject subject hcycle)

/-- On acyclic facts, recursion on nested objects ends: the typed subjects are finitely many. -/
theorem Acyclic.wellFounded (h : facts.Acyclic) :
    WellFounded fun object subject => facts.Nests subject object := by
  -- Chains of nesting are a strict order, which is well-founded on a finite set.
  have horder : IsStrictOrder Node fun object subject =>
      Relation.TransGen facts.Nests subject object :=
    { irrefl := h, trans := fun _ _ _ hfirst hsecond => hsecond.trans hfirst }
  have hfinite : {node | node ∈ facts.typedSubjects}.Finite := List.finite_toSet _
  have hchains : {node | node ∈ facts.typedSubjects}.WellFoundedOn fun object subject =>
      Relation.TransGen facts.Nests subject object := hfinite.wellFoundedOn
  refine Subrelation.wf (fun {object subject} hnests => ?_) (Set.wellFoundedOn_iff.1 hchains)
  exact ⟨.single hnests, mem_typedSubjects.2 hnests.typed.2, mem_typedSubjects.2 hnests.typed.1⟩

/-- A value as it is reported when the entries of nested subjects are given. -/
def naiveValue (facts : FactSet) (entriesOf : Node → List Entry) (fact : Fact) :
    List ReportedValue :=
  if facts.nests fact then (entriesOf fact.object).map .entry else [.text fact.object.key]

/-- The values of a property as they are reported. -/
def naiveValues (facts : FactSet) (entriesOf : Node → List Entry) (subject : Node) (path : String) :
    List ReportedValue :=
  (facts.valueFacts subject path).flatMap (facts.naiveValue entriesOf)

end FactSet

namespace Validator

/-- The verdict on a property of a subject. -/
def naiveVerdict (validator : Validator) (facts : FactSet) (entriesOf : Node → List Entry)
    (subject : Node) (shape : PropertyShape) : PropertyVerdict where
  name := shape.name
  description := shape.description
  path := shape.path
  requiredClass := shape.requiredClass
  minCount := shape.minCount
  maxCount := shape.maxCount
  actualCount := facts.valueCount subject shape.path
  values := facts.naiveValues entriesOf subject shape.path
  valid := decide (facts.Conforms validator.engine subject shape)
  tier := shape.tier
  violations := validator.violations shape.constraints subject (some shape.path)

/-- The entry of a subject for a shape. -/
def naiveShaped (validator : Validator) (facts : FactSet) (entriesOf : Node → List Entry)
    (subject : Node) (cls : String) (shape : NodeShape) : Entry :=
  let verdicts := shape.properties.map (validator.naiveVerdict facts entriesOf subject)
  { uri := subject.key
    cls := cls
    className := shortName cls
    shapeId := some shape.id
    shapeName := some shape.name
    totalCount := verdicts.length
    validCount := some (verdicts.filter (·.valid)).length
    properties := .judged verdicts
    violations := validator.violations shape.constraints subject none }

/-- The entry of a subject that no shape targets. -/
def naivePlain (facts : FactSet) (entriesOf : Node → List Entry) (subject : Node) (cls : String) :
    Entry :=
  let readings := (facts.shownPaths subject).map fun path =>
    PropertyReading.mk (shortName path) path (facts.naiveValues entriesOf subject path)
      (facts.valueFacts subject path).length
  { uri := subject.key
    cls := cls
    className := shortName cls
    shapeId := none
    shapeName := none
    totalCount := readings.length
    validCount := none
    properties := .plain readings
    violations := [] }

/-- The entries of a subject when those of nested subjects are given. -/
def naiveStep (validator : Validator) (facts : FactSet) (entriesOf : Node → List Entry)
    (subject : Node) : List Entry :=
  match facts.classOf? subject with
  | none => []
  | some cls =>
    match validator.shapes.shapesFor cls with
    | [] => [naivePlain facts entriesOf subject cls]
    | shapes => shapes.map (validator.naiveShaped facts entriesOf subject cls)

/-- The entries of a subject by recursion on what it nests. -/
def naiveEntries (validator : Validator) (facts : FactSet) (hacyclic : facts.Acyclic)
    (subject : Node) : List Entry :=
  -- The guard only shows that the recursion ends: a step asks for nested objects alone.
  validator.naiveStep facts (fun object =>
    if _h : facts.Nests subject object then validator.naiveEntries facts hacyclic object else [])
    subject
termination_by hacyclic.wellFounded.wrap subject
decreasing_by exact _h

end Validator

/-! ## One step of the recursion -/

section Step

variable {facts : FactSet} {subject : Node} {entriesOf other : Node → List Entry}

/-- The values of a property depend on the entries of nested subjects alone. -/
theorem FactSet.naiveValues_congr {path : String} (htyped : facts.isTyped subject = true)
    (h : ∀ object, facts.Nests subject object → entriesOf object = other object) :
    facts.naiveValues entriesOf subject path = facts.naiveValues other subject path := by
  rw [naiveValues, naiveValues, List.flatMap_def, List.flatMap_def]
  congr 1
  refine List.map_congr_left fun fact hfact => ?_
  rw [valueFacts, List.mem_filter, decide_eq_true_eq] at hfact
  rw [naiveValue, naiveValue]
  split
  · rename_i hnests
    rw [h fact.object ⟨fact, hfact.1, hfact.2.1, rfl, htyped, hnests⟩]
  · rfl

/-- A step depends on the entries of nested subjects alone. -/
theorem Validator.naiveStep_congr (validator : Validator)
    (h : ∀ object, facts.Nests subject object → entriesOf object = other object) :
    validator.naiveStep facts entriesOf subject = validator.naiveStep facts other subject := by
  unfold naiveStep
  cases hcls : facts.classOf? subject with
  | none => rfl
  | some cls =>
      have hvalues : facts.naiveValues entriesOf subject = facts.naiveValues other subject :=
        funext fun path => FactSet.naiveValues_congr (FactSet.isTyped_of_class hcls) h
      have hverdict : validator.naiveVerdict facts entriesOf subject =
          validator.naiveVerdict facts other subject := by
        funext shape
        rw [naiveVerdict, naiveVerdict, hvalues]
      have hshaped : validator.naiveShaped facts entriesOf subject cls =
          validator.naiveShaped facts other subject cls := by
        funext shape
        rw [naiveShaped, naiveShaped, hverdict]
      have hplain : naivePlain facts entriesOf subject cls =
          naivePlain facts other subject cls := by
        rw [naivePlain, naivePlain, hvalues]
      simp only [hshaped, hplain]

/-- The recursion: each subject is validated again wherever it is nested. -/
theorem Validator.naiveEntries_eq (validator : Validator) (hacyclic : facts.Acyclic)
    (subject : Node) :
    validator.naiveEntries facts hacyclic subject =
      validator.naiveStep facts (validator.naiveEntries facts hacyclic) subject := by
  rw [naiveEntries]
  exact validator.naiveStep_congr fun object hnests => by rw [dif_pos hnests]

end Step

/-! ## First copies take the same step -/

section Copies

variable {facts : FactSet} {copy child : SubjectTree} {fact : Fact} {target : EdgeTarget}
  {entriesOf : Node → List Entry}

/-- A target is reported as its fact when nested subjects are answered for by their entries. -/
theorem EdgeTarget.Shows.reported_eq (h : target.Shows facts true fact) :
    target.reported (fun child => some (entriesOf child.node)) =
      facts.naiveValue entriesOf fact := by
  have hnested := h.isSome_nested?
  have hidentity := h.identity
  rw [FactSet.naiveValue, ← hnested, ← hidentity]
  cases target with
  | literal text => rfl
  | reference key => rfl
  | nested tree =>
      obtain ⟨-, -, hnode, -⟩ := h
      simp [EdgeTarget.reported, EdgeTarget.nested?, hnode]

namespace SubjectTree.IsCopy

/-- The values of a property on a first copy are reported as its facts. -/
theorem reported_eq (h : copy.IsCopy facts true) (entriesOf : Node → List Entry) (path : String) :
    (copy.valuesFor path).flatMap
        (EdgeTarget.reported fun child => some (entriesOf child.node)) =
      facts.naiveValues entriesOf copy.node path := by
  rw [List.flatMap_def, FactSet.naiveValues, List.flatMap_def]
  congr 1
  exact map_eq_of_forall₂ (h.valuesFor path) fun _ _ hshows => hshows.reported_eq

/-- The verdict on a property of a first copy, whose nested subjects are answered for by their
entries, is the one of the recursion. -/
theorem verdictOnProperty_eq (h : copy.IsCopy facts true) (validator : Validator)
    (entriesOf : Node → List Entry) (shape : PropertyShape) :
    validator.verdictOnProperty copy (fun child => some (entriesOf child.node)) shape =
      validator.naiveVerdict facts entriesOf copy.node shape := by
  have hflat := h.judgedFlat validator (fun child => some (entriesOf child.node)) shape
  have hvalid := Bool.eq_iff_iff.2 (hflat.valid.trans decide_eq_true_iff.symm)
  have hcount := h.countValues_eq shape.path
  have hvalues := h.reported_eq entriesOf shape.path
  rw [Validator.naiveVerdict, ← hvalid, ← hcount, ← hvalues]
  rfl

/-- The verdict on such a copy is one step of the recursion. -/
theorem verdictFrom_entries (h : copy.IsCopy facts true) (validator : Validator)
    (entriesOf : Node → List Entry) :
    (validator.verdictFrom (fun child => some (entriesOf child.node)) copy).entries =
      validator.naiveStep facts entriesOf copy.node := by
  have hverdict : validator.verdictOnProperty copy (fun child => some (entriesOf child.node)) =
      validator.naiveVerdict facts entriesOf copy.node :=
    funext fun shape => h.verdictOnProperty_eq validator entriesOf shape
  have hshaped : validator.shapedEntry copy (fun child => some (entriesOf child.node)) =
      validator.naiveShaped facts entriesOf copy.node copy.cls := by
    funext shape
    rw [Validator.shapedEntry, hverdict]
    rfl
  have hreadings : (Validator.groupEdges copy.edges).entries.map
        (Validator.propertyReading fun child => some (entriesOf child.node)) =
      (facts.shownPaths copy.node).map fun path =>
        PropertyReading.mk (shortName path) path (facts.naiveValues entriesOf copy.node path)
          (facts.valueFacts copy.node path).length := by
    rw [h.groupEdges_entries, List.map_map]
    refine List.map_congr_left fun path _ => ?_
    rw [← h.reported_eq entriesOf path, (h.valuesFor path).length_eq]
    rfl
  have hplain : Validator.plainEntry copy (fun child => some (entriesOf child.node)) =
      Validator.naivePlain facts entriesOf copy.node copy.cls := by
    rw [Validator.plainEntry, hreadings]
    rfl
  unfold Validator.verdictFrom Validator.naiveStep
  simp only [h.cls, hshaped, hplain]
  cases validator.shapes.shapesFor copy.cls <;> rfl

/-- What a first copy nests, its subject nests. -/
theorem nests_of_child (h : copy.IsCopy facts true) (hchild : child ∈ copy.children) :
    facts.Nests copy.node child.node := by
  obtain ⟨edge, hedge, hnested⟩ := List.mem_filterMap.1 hchild
  obtain ⟨fact, hfact, hshows⟩ := exists_of_forall₂ h.edges.flip hedge
  obtain ⟨path, target⟩ := edge
  cases target with
  | literal text => cases hnested
  | reference key => cases hnested
  | nested tree =>
      cases hnested
      obtain ⟨hmem, hsubject⟩ := FactSet.mem_of_mem_reportedFacts hfact
      exact ⟨fact, hmem, hsubject, hshows.2.2.2.1.symm, FactSet.isTyped_of_class h.cls,
        hshows.2.2.1⟩

end SubjectTree.IsCopy

end Copies

/-! ## The walk agrees with the recursion -/

namespace FactSet

variable {facts : FactSet} {subject : Node} {uri nested : String}

/-- First copies nest as the facts do. -/
theorem exists_nests_of_copies (hkeys : facts.KeysDistinct)
    (h : (FirstCopies.ofForest facts.readForest).Nests uri nested)
    (htyped : facts.isTyped subject = true) (huri : subject.key = uri) :
    ∃ object, object.key = nested ∧ facts.Nests subject object := by
  obtain ⟨copy, hfind, child, hchild, rfl⟩ := h
  obtain ⟨hcopyUri, hcopy⟩ := FirstCopies.isCopy_of_firstCopy hkeys hfind
  have hsame : copy.node = subject :=
    hkeys.eq_of_key_eq (isTyped_of_class hcopy.cls) htyped (hcopyUri.trans huri.symm)
  exact ⟨child.node, rfl, hsame ▸ hcopy.nests_of_child hchild⟩

/-- A chain of first copies is a chain of typed subjects. -/
theorem exists_chain_of_copies (hkeys : facts.KeysDistinct)
    (h : Relation.ReflTransGen (FirstCopies.ofForest facts.readForest).Nests uri nested)
    (htyped : facts.isTyped subject = true) (huri : subject.key = uri) :
    ∃ object, object.key = nested ∧ facts.isTyped object = true ∧
      Relation.ReflTransGen facts.Nests subject object := by
  induction h with
  | refl => exact ⟨subject, huri, htyped, .refl⟩
  | tail _ hstep ih =>
      obtain ⟨mid, hmid, hmidTyped, hchain⟩ := ih
      obtain ⟨object, hobject, hnests⟩ := exists_nests_of_copies hkeys hstep hmidTyped hmid
      exact ⟨object, hobject, hnests.typed.2, hchain.tail hnests⟩

end FactSet

namespace Validator

variable {facts : FactSet} {validator : Validator} {observer : Observer} {entries : List Entry}

/-- On acyclic facts, the verdict that a run gives on a typed subject is that of the recursion. -/
theorem verdict_entries_eq_naive (hkeys : facts.KeysDistinct) (hacyclic : facts.Acyclic)
    (h : (validator.validateAll observer facts.readForest .fresh).1 = .ok entries)
    (subject : Node) {verdict : Verdict}
    (hverdict : (validator.validateAll observer facts.readForest .fresh).2.verdict?
      subject.key = some verdict) (htyped : facts.isTyped subject = true) :
    verdict.entries = validator.naiveEntries facts hacyclic subject := by
  induction subject using hacyclic.wellFounded.induction generalizing verdict with
  | _ subject ih =>
  obtain ⟨-, -, verdicts, -, hverdicts⟩ := validateAll_explained hkeys h
  have hknown : ∀ node, facts.isTyped node = true → ∃ known,
      (validator.validateAll observer facts.readForest .fresh).2.verdict? node.key = some known ∧
        ∃ copy stack, copy.node = node ∧ copy.IsCopy facts true ∧
          (validator.validateAll observer facts.readForest .fresh).2.Explains validator
            (.ofForest facts.readForest) node.key known copy stack := fun node hnode => by
    obtain ⟨known, -, hboth⟩ :=
      exists_of_forall₂ hverdicts (FactSet.mem_typedSubjects.2 hnode)
    exact ⟨known, hboth⟩
  obtain ⟨known, hfound, copy, stack, rfl, hcopy, hexplains⟩ := hknown subject htyped
  obtain rfl : known = verdict := Option.some.inj (hfound.symm.trans hverdict)
  rw [hexplains.given _ (RunState.allows_answersUnder _ stack), naiveEntries_eq,
    ← hcopy.verdictFrom_entries validator]
  refine congrArg Verdict.entries (validator.verdictFrom_congr fun child hchild => ?_)
  have hnests := hcopy.nests_of_child hchild
  -- A child on the stack would lead back to the copy that nests it.
  have hfolded : child.uri ∉ stack := fun hstack => by
    obtain ⟨object, hobject, hobjectTyped, hchain⟩ :=
      FactSet.exists_chain_of_copies hkeys (hexplains.leads _ hstack) hnests.typed.2 rfl
    have hsame := hkeys.eq_of_key_eq hobjectTyped htyped hobject
    exact hacyclic copy.node (.head' hnests (hsame ▸ hchain))
  obtain ⟨below, hbelow, -⟩ := hknown child.node hnests.typed.2
  have hentries := ih child.node hnests hbelow hnests.typed.2
  rw [RunState.answersUnder, if_neg hfolded, SubjectTree.uri, hbelow, Option.map_some, hentries]

/-- On acyclic facts with distinct identifiers, a run that its observer does not stop returns what
the recursion gives for the typed subjects in their order. -/
theorem validateAll_eq_naive (facts : FactSet) (hkeys : facts.KeysDistinct)
    (hacyclic : facts.Acyclic) (validator : Validator) (observer : Observer)
    (haccepts : ∀ progress, observer progress = .ok ()) :
    (validator.validateAll observer facts.readForest .fresh).1 =
      .ok (facts.typedSubjects.flatMap (validator.naiveEntries facts hacyclic)) := by
  obtain ⟨entries, hentries⟩ := validateAll_accepted haccepts facts.readForest .fresh
  obtain ⟨-, -, verdicts, rfl, hverdicts⟩ := validateAll_explained hkeys hentries
  have htyped : ∀ subject ∈ facts.typedSubjects, facts.isTyped subject = true :=
    fun subject hsubject => FactSet.mem_typedSubjects.1 hsubject
  have hsame : verdicts.map Verdict.entries =
      facts.typedSubjects.map (validator.naiveEntries facts hacyclic) :=
    map_eq_of_forall₂ ((List.forall₂_and_left _ _).2 ⟨htyped, hverdicts⟩)
      fun subject verdict hboth =>
        verdict_entries_eq_naive hkeys hacyclic hentries subject hboth.2.1 hboth.1
  rw [hentries, List.flatMap_def, List.flatMap_def, hsame]

/-- A couple with a child. -/
def family : FactSet := .ofList
  [⟨.iri "urn:a", Vocabulary.rdfType, .iri "urn:Person"⟩,
    ⟨.iri "urn:a", "urn:knows", .iri "urn:b"⟩,
    ⟨.iri "urn:a", "urn:child", .iri "urn:c"⟩,
    ⟨.iri "urn:b", Vocabulary.rdfType, .iri "urn:Person"⟩,
    ⟨.iri "urn:b", "urn:child", .iri "urn:c"⟩,
    ⟨.iri "urn:c", Vocabulary.rdfType, .iri "urn:Child"⟩]

/-- Parents come before their children, and who knows comes before who is known. -/
theorem family_acyclic : family.Acyclic :=
  FactSet.acyclic_of_rank
    (fun node => if node = .iri "urn:a" then 2 else if node = .iri "urn:b" then 1 else 0)
    (by decide)

/-- The child is reported below both its parents, once below the one that is nested in the other. -/
theorem validateAll_eq_naive_family :
    family.KeysDistinct ∧ family.Acyclic ∧ (∀ progress, Observer.silent progress = .ok ()) ∧
      family.typedSubjects = [.iri "urn:a", .iri "urn:b", .iri "urn:c"] ∧
      ((⟨⟨[personShape]⟩, fun _ => .ok []⟩ : Validator).validateAll Observer.silent
          family.readForest .fresh).1 =
        .ok (family.typedSubjects.flatMap
          ((⟨⟨[personShape]⟩, fun _ => .ok []⟩ : Validator).naiveEntries family family_acyclic)) :=
  ⟨by decide, family_acyclic, fun _ => rfl, by decide,
    validateAll_eq_naive family (by decide) family_acyclic ⟨⟨[personShape]⟩, fun _ => .ok []⟩
      Observer.silent fun _ => rfl⟩

end Validator

end PublicationAudit
