import PublicationAudit.Proofs.FactHistory
import PublicationAudit.Shape.Compile

/-!
# Noise in a shape file

A fact that makes a malformed or an unrecognized statement, and does not mark its subject as a
shape, is noise. Every walk over statements passes over such statements (`foldl_eq_filter`), so two
sets of facts that differ in noise alone describe the same shapes or fail alike (`ofFacts_congr`).
The main statement is `ofFacts_without_noise`: noise can be removed.
-/

namespace PublicationAudit

/-- A statement of no use: a known predicate with an object of the wrong form, or an unknown
predicate. -/
def ShapeStatement.isIdle : ShapeStatement → Bool
  | malformed .. => true
  | unrecognized _ => true
  | _ => false

/-- A fact that makes a statement of no use and does not mark its subject as a shape. -/
def Fact.isNoise (fact : Fact) : Bool :=
  (ShapeStatement.ofFact fact).isIdle && !fact.marksShape

/-- A set without some of its facts; the others stay in their order. -/
def FactSet.without (facts : FactSet) (removed : List Fact) : FactSet :=
  .ofList (facts.toList.filter fun fact => fact ∉ removed)

/-- What is left of a set. -/
theorem FactSet.toList_without (facts : FactSet) (removed : List Fact) :
    (facts.without removed).toList = facts.toList.filter fun fact => fact ∉ removed := by
  have hnodup : facts.toList.Nodup := facts.nodup
  rw [without, toList_ofList, eraseDups_of_nodup (hnodup.filter _)]

/-! ## Walks over statements -/

section Walks

variable {σ : Type} {note : σ → ShapeStatement → σ}

/-- A walk that no idle statement changes comes to the same without them. -/
theorem foldl_eq_filter
    (hidle : ∀ draft statement, statement.isIdle = true → note draft statement = draft)
    (statements : List ShapeStatement) (draft : σ) :
    statements.foldl note draft = (statements.filter (!·.isIdle)).foldl note draft := by
  induction statements generalizing draft with
  | nil => rfl
  | cons statement statements ih =>
      rw [List.foldl_cons, List.filter_cons, ih]
      cases hstatement : statement.isIdle with
      | true => simp [hidle draft statement hstatement]
      | false => simp

/-- Idle statements change no constraint. -/
theorem Constraint.note_of_isIdle (constraint : Constraint) (statement : ShapeStatement)
    (h : statement.isIdle = true) : constraint.note statement = constraint := by
  cases statement <;> first | rfl | cases h

/-- They change no property shape. -/
theorem PropertyDraft.note_of_isIdle (facts : FactSet) (draft : PropertyDraft)
    (statement : ShapeStatement) (h : statement.isIdle = true) :
    draft.note facts statement = draft := by
  cases statement <;> first | rfl | cases h

/-- They change no node shape. -/
theorem NodeDraft.note_of_isIdle (facts : FactSet) (draft : NodeDraft)
    (statement : ShapeStatement) (h : statement.isIdle = true) :
    draft.note facts statement = draft := by
  cases statement <;> first | rfl | cases h

end Walks

/-! ## Sets that differ in noise -/

/-- Two sets of facts that differ in noise alone: leaving it out, they hold the same facts in the
same order. -/
def FactSet.TellsAlike (facts other : FactSet) : Prop :=
  facts.toList.filter (!·.isNoise) = other.toList.filter (!·.isNoise)

namespace FactSet.TellsAlike

variable {facts other : FactSet} (h : facts.TellsAlike other)

include h

/-- Facts of a kind that noise is not of are the same. -/
theorem filter_eq {p : Fact → Bool} (hp : ∀ fact, p fact = true → fact.isNoise = false) :
    facts.toList.filter p = other.toList.filter p := by
  have hkept : ∀ l : List Fact, l.filter p = (l.filter (!·.isNoise)).filter p := fun l => by
    rw [List.filter_filter]
    refine List.filter_congr fun fact _ => ?_
    cases hfact : p fact with
    | false => rfl
    | true => simp [hp fact hfact]
  rw [hkept facts.toList, hkept other.toList, h]

/-- The same nodes are shapes, in the same order. -/
theorem shapeNodes_eq : facts.shapeNodes = other.shapeNodes := by
  rw [shapeNodes, shapeNodes, h.filter_eq fun fact hmarks => by simp [Fact.isNoise, hmarks]]

/-- The same is said about a node, apart from idle statements. -/
theorem statementsFor_eq (node : Node) :
    (facts.statementsFor node).filter (!·.isIdle) =
      (other.statementsFor node).filter (!·.isIdle) := by
  have hsaid : ∀ set : FactSet, (set.statementsFor node).filter (!·.isIdle) =
      (set.toList.filter fun fact => !(ShapeStatement.ofFact fact).isIdle &&
        decide (fact.subject = node)).map ShapeStatement.ofFact := fun set => by
    rw [statementsFor, factsFor_eq_filter, List.filter_map, List.filter_filter]
    rfl
  rw [hsaid, hsaid, h.filter_eq fun fact hfact => ?_]
  rw [Bool.and_eq_true, Bool.not_eq_true'] at hfact
  rw [Fact.isNoise, hfact.1, Bool.false_and]

/-- A walk over the statements about a node comes to the same. -/
theorem foldl_statementsFor {σ : Type} {note : σ → ShapeStatement → σ}
    (hidle : ∀ draft statement, statement.isIdle = true → note draft statement = draft)
    (node : Node) (draft : σ) :
    (facts.statementsFor node).foldl note draft = (other.statementsFor node).foldl note draft := by
  rw [foldl_eq_filter hidle, h.statementsFor_eq, ← foldl_eq_filter hidle]

/-- The same constraints are described. -/
theorem constraint_eq : Constraint.ofNode facts = Constraint.ofNode other :=
  funext fun node => h.foldl_statementsFor Constraint.note_of_isIdle node _

/-- The same property shapes are described. -/
theorem property_eq : PropertyShape.ofNode? facts = PropertyShape.ofNode? other := by
  have hnote : PropertyDraft.note facts = PropertyDraft.note other := by
    funext draft statement
    cases statement <;> first | rfl | simp only [PropertyDraft.note, h.constraint_eq]
  funext node
  rw [PropertyShape.ofNode?, PropertyShape.ofNode?, hnote,
    h.foldl_statementsFor (PropertyDraft.note_of_isIdle other)]

/-- A node describes the same shapes, or fails alike. -/
theorem node_eq : NodeShape.ofNode facts = NodeShape.ofNode other := by
  have hnote : NodeDraft.note facts = NodeDraft.note other := by
    funext draft statement
    cases statement <;>
      first | rfl | simp only [NodeDraft.note, h.constraint_eq, h.property_eq]
  funext node
  rw [NodeShape.ofNode, NodeShape.ofNode, hnote,
    h.foldl_statementsFor (NodeDraft.note_of_isIdle other)]

/-- So do several nodes. -/
theorem nodes_eq (nodes : List Node) :
    NodeShape.ofNodes facts nodes = NodeShape.ofNodes other nodes := by
  induction nodes with
  | nil => rfl
  | cons node nodes ih => rw [NodeShape.ofNodes, NodeShape.ofNodes, h.node_eq, ih]

end FactSet.TellsAlike

namespace ShapeSet

/-- Sets of facts that differ in noise alone describe the same shapes, or fail alike. -/
theorem ofFacts_congr {facts other : FactSet} (h : facts.TellsAlike other) :
    ofFacts facts = ofFacts other := by
  rw [ofFacts, ofFacts, h.shapeNodes_eq, h.nodes_eq]

/-- Noise has no influence: however many facts are removed that make malformed or unrecognized
statements and mark no shape, the others, in their order, describe the same shapes or fail alike. -/
theorem ofFacts_without_noise (facts : FactSet) (removed : List Fact)
    (hnoise : ∀ fact ∈ removed, fact.isNoise = true) :
    (facts.without removed).toList = facts.toList.filter (fun fact => fact ∉ removed) ∧
      ofFacts (facts.without removed) = ofFacts facts := by
  have hleft := facts.toList_without removed
  refine ⟨hleft, ofFacts_congr ?_⟩
  rw [FactSet.TellsAlike, hleft, List.filter_filter]
  refine List.filter_congr fun fact _ => ?_
  by_cases hremoved : fact ∈ removed
  · simp [hremoved, hnoise fact hremoved]
  · simp [hremoved]

/-- A tier that is none, a lower bound that is no number, a class and a remark. -/
def remarks : List Fact :=
  [⟨.iri "urn:PersonShape", Vocabulary.maturityLevel, .plain "Niveau 7"⟩,
    ⟨.iri "urn:NameShape", Vocabulary.minCount, .plain "many"⟩,
    ⟨.iri "urn:NameShape", Vocabulary.rdfType, .iri "urn:Draft"⟩,
    ⟨.iri "urn:PersonShape", "urn:remark", .plain "unfinished"⟩]

/-- A person has a name, said with remarks after it. -/
def remarkedShape : FactSet :=
  .ofList ([⟨.iri "urn:PersonShape", Vocabulary.targetClass, .iri "urn:Person"⟩,
    ⟨.iri "urn:PersonShape", Vocabulary.maturityLevel, .plain "Niveau 2"⟩,
    ⟨.iri "urn:PersonShape", Vocabulary.property, .iri "urn:NameShape"⟩,
    ⟨.iri "urn:NameShape", Vocabulary.path, .iri "urn:name"⟩,
    ⟨.iri "urn:NameShape", Vocabulary.minCount, .plain "1"⟩] ++ remarks)

/-- Remarks about the shape of persons change nothing in it. -/
theorem ofFacts_without_noise_remarks :
    (∀ fact ∈ remarks, fact.isNoise = true) ∧
      ofFacts (remarkedShape.without remarks) = ofFacts remarkedShape ∧
      ofFacts remarkedShape = .ok ⟨[⟨"urn:PersonShape", "urn:Person", "urn:PersonShape",
        some .niveau2, [⟨"urn:name", none, "urn:name", none, 1, none, none, []⟩], []⟩]⟩ := by
  have hnoise : ∀ fact ∈ remarks, fact.isNoise = true := by decide
  exact ⟨hnoise, (ofFacts_without_noise remarkedShape remarks hnoise).2, by decide⟩

end ShapeSet

end PublicationAudit
