import PublicationAudit.Text.Quoted

/-!
# Nodes and facts

A fact says that a subject has an object for a predicate. Subjects and objects are nodes: IRIs,
blank nodes and literals. Nothing is checked or normalised here: a literal may be a subject, and an
IRI is any text.
-/

namespace PublicationAudit

/-- A term in subject or object position. -/
inductive Node where
  | iri (text : String)
  | blank (label : String)
  | literal (text : String) (datatype language : Option String)
  deriving DecidableEq, Repr, Inhabited

namespace Node

/-- A literal without datatype and language. -/
def plain (text : String) : Node := .literal text none none

/-- The IRI's text, the blank node's label or the literal's text. -/
def lexical : Node → String
  | iri text => text
  | blank label => label
  | literal text _ _ => text

/-- The text of an IRI. -/
def iri? : Node → Option String
  | iri text => some text
  | _ => none

/-- Whether the node is a literal. -/
def isLiteral : Node → Bool
  | literal .. => true
  | _ => false

/-- Whether the node is a blank node. -/
def isBlank : Node → Bool
  | blank _ => true
  | _ => false

/-- The identifier under which the node is reported. Different nodes can share one: the literal
`_:a` and the blank node with label `a` do. -/
def key : Node → String
  | iri text => text
  | blank label => "_:" ++ label
  | literal text _ _ => text

/-- The written form: an IRI in angle brackets, a literal in quotes with its language or else its
datatype. -/
def display : Node → String
  | iri text => "<" ++ text ++ ">"
  | blank label => "_:" ++ label
  | literal text _ (some language) => Text.quote .literal text ++ "@" ++ language
  | literal text (some datatype) none => Text.quote .literal text ++ "^^<" ++ datatype ++ ">"
  | literal text none none => Text.quote .literal text

/-- Order of texts by their code points. -/
def compareText (a b : String) : Ordering := compareOfLessAndEq a b

/-- Order of optional texts; an absent one comes first. -/
def compareOption : Option String → Option String → Ordering
  | none, none => .eq
  | none, some _ => .lt
  | some _, none => .gt
  | some a, some b => compareText a b

/-- IRIs come before blank nodes and blank nodes before literals; literals are ordered by text,
then datatype, then language. -/
def compare : Node → Node → Ordering
  | iri a, iri b => compareText a b
  | iri _, _ => .lt
  | blank _, iri _ => .gt
  | blank a, blank b => compareText a b
  | blank _, literal .. => .lt
  | literal a d l, literal b e m =>
    (compareText a b).then ((compareOption d e).then (compareOption l m))
  | literal .., _ => .gt

end Node

/-- One statement: a subject has an object for a predicate. -/
structure Fact where
  subject : Node
  predicate : String
  object : Node
  deriving DecidableEq, Repr, Inhabited

/-- The IRIs that a fact mentions as subject and object, in this order. -/
def Fact.iris (fact : Fact) : List String :=
  fact.subject.iri?.toList ++ fact.object.iri?.toList

end PublicationAudit
