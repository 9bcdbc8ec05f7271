import PublicationAudit.FactSet
import PublicationAudit.Threaded

/-!
# The forest of typed subjects

A fact set is read as one tree for each subject that declares a class. Objects that declare a class
themselves are nested, but a subject's edges are expanded only the first time it is met: every later
copy of it keeps plain references. That is what bounds the reading on cyclic facts.

`readSubject` is the reading of one subject under a bound on the depth of nesting, `readForest` that
of all subjects from a fresh start. Every first copy lies on a path of distinct subjects, so a bound
of one more than the number of subjects is never reached.
-/

namespace PublicationAudit

mutual

/-- What an edge of a subject leads to. -/
inductive EdgeTarget where
  /-- A literal. -/
  | literal (text : String)
  /-- A node that declares no class, or an edge that was expanded before. -/
  | reference (key : String)
  /-- A subject that declares a class. -/
  | nested (subject : SubjectTree)

/-- One property of a subject. -/
structure Edge where
  path : String
  target : EdgeTarget

/-- One copy of a typed subject. -/
structure SubjectTree where
  node : Node
  cls : String
  edges : List Edge

end

instance : Inhabited SubjectTree := ⟨⟨default, "", []⟩⟩

/-- The identifier under which the subject is reported. -/
def SubjectTree.uri (tree : SubjectTree) : String := tree.node.key

/-- The values of a property, in order. -/
def SubjectTree.valuesFor (tree : SubjectTree) (path : String) : List EdgeTarget :=
  (tree.edges.filter fun edge => edge.path = path).map (·.target)

namespace EdgeTarget

/-- What distinct targets are told apart by. -/
def identity : EdgeTarget → String
  | literal text => text
  | reference key => key
  | nested subject => subject.uri

/-- The text of a target that is not nested. -/
def text? : EdgeTarget → Option String
  | literal text => some text
  | reference key => some key
  | nested _ => none

/-- The subject nested at the target. -/
def nested? : EdgeTarget → Option SubjectTree
  | nested subject => some subject
  | _ => none

end EdgeTarget

namespace FactSet

/-- Whether a subject declares itself a publication document. -/
def isDocument (facts : FactSet) (subject : Node) : Bool :=
  (facts.typesOf subject).contains Vocabulary.document

/-- The class under which a subject is read: the document class if it declares it, or else the first
class that it declares. -/
def classOf? (facts : FactSet) (subject : Node) : Option String :=
  if facts.isDocument subject then some Vocabulary.document else (facts.typesOf subject).head?

/-- The facts that a subject shows as properties. Only a document shows its classes. -/
def reportedFacts (facts : FactSet) (subject : Node) : List Fact :=
  (facts.factsFor subject).filter fun f =>
    f.predicate ≠ Vocabulary.rdfType || facts.isDocument subject

end FactSet

/-- The subjects whose edges have been expanded, the latest first. -/
abbrev Expanded := List Node

/-- How a reader treats a nested subject. -/
abbrev SubjectReader := Expanded → Node → Option SubjectTree × Expanded

/-- The target of one fact. On a first copy the object is read as a subject where it is one. -/
def readTarget (nested : SubjectReader) (isFirst : Bool) (expanded : Expanded) (fact : Fact) :
    EdgeTarget × Expanded :=
  match fact.object with
  | .literal text datatype language =>
    if fact.predicate = Vocabulary.rdfType then
      (.reference (Node.literal text datatype language).key, expanded)
    else
      (.literal text, expanded)
  | object =>
    if isFirst && fact.predicate ≠ Vocabulary.rdfType then
      let read := nested expanded object
      match read.1 with
      | some subject => (.nested subject, read.2)
      | none => (.reference object.key, read.2)
    else
      (.reference object.key, expanded)

/-- One property. -/
def readEdge (nested : SubjectReader) (isFirst : Bool) (expanded : Expanded) (fact : Fact) :
    Edge × Expanded :=
  let target := readTarget nested isFirst expanded fact
  (⟨fact.predicate, target.1⟩, target.2)

/-- Reads a subject; `depth` bounds how many subjects may be nested in one another. Before its edges
are read the subject counts as expanded, so that a cycle back into it finds it so. -/
def readSubject (facts : FactSet) : Nat → SubjectReader
  | 0, expanded, _ => (none, expanded)
  | depth + 1, expanded, subject =>
    match facts.classOf? subject with
    | none => (none, expanded)
    | some cls =>
      let isFirst := !expanded.contains subject
      let claimed := if isFirst then subject :: expanded else expanded
      let edges := threadMap (readEdge (readSubject facts depth) isFirst) claimed
        (facts.reportedFacts subject)
      (some ⟨subject, cls, edges.1⟩, edges.2)

/-- A depth that no reading of these facts exceeds. -/
def FactSet.depthBound (facts : FactSet) : Nat := facts.subjects.length + 1

/-- Reads a subject of the facts. -/
def FactSet.readOne (facts : FactSet) : SubjectReader := readSubject facts facts.depthBound

/-- Reads every subject in the order of its first fact; those without a class are left out. -/
def FactSet.readAll (facts : FactSet) (expanded : Expanded) : List SubjectTree × Expanded :=
  let read := threadMap facts.readOne expanded facts.subjects
  (read.1.filterMap id, read.2)

/-- The forest of a fact set: one tree for each typed subject. -/
def FactSet.readForest (facts : FactSet) : List SubjectTree := (facts.readAll []).1

end PublicationAudit
