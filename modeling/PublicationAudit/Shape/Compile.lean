import PublicationAudit.Failure
import PublicationAudit.Shape.Basic
import PublicationAudit.Shape.Statement

/-!
# Reading shapes from facts

A node is a shape when it declares a target class or calls itself a node shape. Its statements are
taken in one after the other: of competing statements the last one counts, properties and
constraints are collected in the order of their statements, and all other statements are passed
over. What was collected becomes a shape for each of the target classes. A shape without a target
class makes the whole set unusable.
-/

namespace PublicationAudit

/-- Whether the fact marks its subject as a shape. -/
def Fact.marksShape (fact : Fact) : Bool :=
  fact.predicate = Vocabulary.targetClass ||
    (fact.predicate = Vocabulary.rdfType && fact.object = .iri Vocabulary.nodeShape)

namespace FactSet

/-- What the facts say about a node as a shape, in order. -/
def statementsFor (facts : FactSet) (node : Node) : List ShapeStatement :=
  (facts.factsFor node).map ShapeStatement.ofFact

/-- The nodes that are marked as shapes, in the order of their first mark. -/
def shapeNodes (facts : FactSet) : List Node :=
  ((facts.toList.filter Fact.marksShape).map (·.subject)).eraseDups

end FactSet

/-! ## Constraints -/

/-- A constraint after one more statement about it. -/
def Constraint.note (constraint : Constraint) : ShapeStatement → Constraint
  | .select query => { constraint with select := some query }
  | .message template => { constraint with message := some template }
  | _ => constraint

/-- The constraint that a node describes. -/
def Constraint.ofNode (facts : FactSet) (node : Node) : Constraint :=
  (facts.statementsFor node).foldl Constraint.note {}

/-! ## Property shapes -/

/-- What the statements about a property shape have said so far. -/
structure PropertyDraft where
  name : Option String := none
  description : Option String := none
  path : Option String := none
  requiredClass : Option String := none
  minCount : Nat := 0
  maxCount : Option Nat := none
  tier : Option Tier := none
  constraints : List Constraint := []

namespace PropertyDraft

/-- A draft after one more statement. -/
def note (facts : FactSet) (draft : PropertyDraft) : ShapeStatement → PropertyDraft
  | .name text => { draft with name := some text }
  | .description text => { draft with description := some text }
  | .path iri => { draft with path := some iri }
  | .requiredClass cls => { draft with requiredClass := some cls }
  | .minCount count => { draft with minCount := count }
  | .maxCount count => { draft with maxCount := some count }
  | .maturityLevel tier => { draft with tier := some tier }
  | .constraint query => { draft with constraints := draft.constraints ++ [.ofNode facts query] }
  | _ => draft

/-- The property shape of a draft; none without a path. -/
def finish? (draft : PropertyDraft) : Option PropertyShape :=
  draft.path.map fun path =>
    { name := draft.name.getD (shortName path)
      description := draft.description
      path := path
      requiredClass := draft.requiredClass
      minCount := draft.minCount
      maxCount := draft.maxCount
      tier := draft.tier
      constraints := draft.constraints }

end PropertyDraft

/-- The property shape that a node describes; none without a path. -/
def PropertyShape.ofNode? (facts : FactSet) (node : Node) : Option PropertyShape :=
  ((facts.statementsFor node).foldl (PropertyDraft.note facts) {}).finish?

/-! ## Node shapes -/

/-- What the statements about a node shape have said so far. -/
structure NodeDraft where
  targetClasses : List String := []
  name : Option String := none
  tier : Option Tier := none
  properties : List PropertyShape := []
  constraints : List Constraint := []

namespace NodeDraft

/-- A draft after one more statement. A property without a path is passed over. -/
def note (facts : FactSet) (draft : NodeDraft) : ShapeStatement → NodeDraft
  | .targetClass cls => { draft with targetClasses := draft.targetClasses ++ [cls] }
  | .name text => { draft with name := some text }
  | .maturityLevel tier => { draft with tier := some tier }
  | .property shape =>
    { draft with properties := draft.properties ++ (PropertyShape.ofNode? facts shape).toList }
  | .constraint query => { draft with constraints := draft.constraints ++ [.ofNode facts query] }
  | _ => draft

/-- The shapes of a draft, one for each target class. -/
def finish (draft : NodeDraft) (id : String) : Except Failure (List NodeShape) :=
  if draft.targetClasses.isEmpty then .error (.missingTargetClass id)
  else .ok <| draft.targetClasses.map fun cls =>
    { id := id
      targetClass := cls
      name := draft.name.getD (shortName id)
      tier := draft.tier
      properties := draft.properties
      constraints := draft.constraints }

end NodeDraft

/-- The shapes that a node describes, one for each target class. -/
def NodeShape.ofNode (facts : FactSet) (node : Node) : Except Failure (List NodeShape) :=
  ((facts.statementsFor node).foldl (NodeDraft.note facts) {}).finish node.key

/-- The shapes of a list of nodes, in order; the first node that fails fails the whole. -/
def NodeShape.ofNodes (facts : FactSet) : List Node → Except Failure (List NodeShape)
  | [] => .ok []
  | node :: nodes =>
    match NodeShape.ofNode facts node with
    | .error failure => .error failure
    | .ok shapes =>
      match NodeShape.ofNodes facts nodes with
      | .error failure => .error failure
      | .ok others => .ok (shapes ++ others)

/-- The shape set that the facts describe. -/
def ShapeSet.ofFacts (facts : FactSet) : Except Failure ShapeSet :=
  (NodeShape.ofNodes facts facts.shapeNodes).map ShapeSet.mk

end PublicationAudit
