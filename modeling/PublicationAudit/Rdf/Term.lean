import PublicationAudit.Fact
import PublicationAudit.Rdf.Iri
import PublicationAudit.Rdf.LanguageTag
import PublicationAudit.Rdf.Name
import PublicationAudit.Vocabulary

/-!
# Valid terms

Nodes are any text; terms are what RDF allows: absolute IRIs, proper labels, and literals that have
a language, in lower case, or a datatype, or neither. A node whose text is valid becomes a term, and
a term is always a node in normal form. Which text is valid is said by rules, and those of RDF are
the ones in use.
-/

namespace PublicationAudit.Rdf

/-- A valid term. -/
inductive Term where
  | iri (text : String)
  | blank (label : String)
  | simple (text : String)
  | tagged (text language : String)
  | typed (text datatype : String)
  deriving DecidableEq, Repr, Inhabited

/-- Which texts can be the parts of a term. Language tags come in lower case. -/
structure TermRules where
  takesIri : String → Bool
  takesLabel : String → Bool
  takesTag : String → Bool

/-- The rules of RDF. -/
def TermRules.rdf : TermRules where
  takesIri := isAbsoluteIri
  takesLabel := isBlankLabel
  takesTag := LanguageTag.isWellFormed

namespace Term

/-- A literal with a datatype. Text of type string is a literal without one. -/
def ofTyped (text datatype : String) : Term :=
  if datatype = Vocabulary.xsd "string" then simple text else typed text datatype

/-- A literal with a language, where the rules take the tag in lower case. -/
def ofTaggedUnder? (rules : TermRules) (text language : String) : Option Term :=
  let tag := Text.lowerAscii language
  if rules.takesTag tag then some (tagged text tag) else none

/-- A literal with a language, where the tag is well-formed. -/
def ofTagged? (text language : String) : Option Term := ofTaggedUnder? .rdf text language

/-- The term that a node stands for under rules. A language wins over a datatype. -/
def ofNodeUnder? (rules : TermRules) : Node → Option Term
  | .iri text => if rules.takesIri text then some (iri text) else none
  | .blank label => if rules.takesLabel label then some (blank label) else none
  | .literal text _ (some language) => ofTaggedUnder? rules text language
  | .literal text (some datatype) none =>
    if rules.takesIri datatype then some (ofTyped text datatype) else none
  | .literal text none none => some (simple text)

/-- The term that a node stands for. -/
def ofNode? (node : Node) : Option Term := ofNodeUnder? .rdf node

/-- The term as a node. The datatypes that every text and every tagged text have are left out. -/
def toNode : Term → Node
  | iri text => .iri text
  | blank label => .blank label
  | simple text => .plain text
  | tagged text language => .literal text none (some language)
  | typed text datatype =>
    if datatype = Vocabulary.xsd "string" ∨ datatype = Vocabulary.rdfLangString then .plain text
    else .literal text (some datatype) none

/-- Whether the term is a literal. -/
def isLiteral : Term → Bool
  | iri _ => false
  | blank _ => false
  | _ => true

/-- Truth values as literals. -/
def ofBool (b : Bool) : Term := typed (if b then "true" else "false") (Vocabulary.xsd "boolean")

/-- Integers as literals. -/
def ofInt (n : Int) : Term := typed (toString n) (Vocabulary.xsd "integer")

end Term

/-- A statement of valid terms. -/
structure Statement where
  subject : Term
  predicate : String
  object : Term
  deriving DecidableEq, Repr, Inhabited

/-- The statement of a fact, unless one of its parts is not valid under the rules. Literals are no
subjects. -/
def Statement.ofFactUnder? (rules : TermRules) (fact : Fact) : Option Statement := do
  let subject ← Term.ofNodeUnder? rules fact.subject
  let object ← Term.ofNodeUnder? rules fact.object
  if subject.isLiteral || !rules.takesIri fact.predicate then none
  else some ⟨subject, fact.predicate, object⟩

/-- The statement of a fact, unless one of its parts is not valid. -/
def Statement.ofFact? (fact : Fact) : Option Statement := ofFactUnder? .rdf fact

/-- The statement as a fact. -/
def Statement.toFact (statement : Statement) : Fact :=
  ⟨statement.subject.toNode, statement.predicate, statement.object.toNode⟩

end PublicationAudit.Rdf
