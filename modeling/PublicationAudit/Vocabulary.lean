import PublicationAudit.Text.Search

/-!
# Identifiers with a meaning of their own

The few IRIs that the audit treats specially, the relations that are counted by distinct target, and
the short name under which an IRI is shown.
-/

namespace PublicationAudit

namespace Vocabulary

/-- Says which class a subject belongs to. -/
def rdfType : String := "http://www.w3.org/1999/02/22-rdf-syntax-ns#type"

/-- First element of an RDF list. -/
def rdfFirst : String := "http://www.w3.org/1999/02/22-rdf-syntax-ns#first"

/-- Remainder of an RDF list. -/
def rdfRest : String := "http://www.w3.org/1999/02/22-rdf-syntax-ns#rest"

/-- The empty RDF list. -/
def rdfNil : String := "http://www.w3.org/1999/02/22-rdf-syntax-ns#nil"

/-- Datatype of text with a language. -/
def rdfLangString : String := "http://www.w3.org/1999/02/22-rdf-syntax-ns#langString"

/-- Namespace of the XML Schema datatypes. -/
def xsd (name : String) : String := "http://www.w3.org/2001/XMLSchema#" ++ name

/-- Namespace of the shape vocabulary. -/
def shacl (name : String) : String := "http://www.w3.org/ns/shacl#" ++ name

def nodeShape : String := shacl "NodeShape"
def targetClass : String := shacl "targetClass"
def property : String := shacl "property"
def path : String := shacl "path"
def name : String := shacl "name"
def description : String := shacl "description"
def requiredClass : String := shacl "class"
def minCount : String := shacl "minCount"
def maxCount : String := shacl "maxCount"
def sparql : String := shacl "sparql"
def select : String := shacl "select"
def message : String := shacl "message"

/-- Says which maturity tier a shape belongs to. -/
def maturityLevel : String := "http://lblod.data.gift/vocabularies/besluit/maturiteitsniveau"

/-- Class of the publication document itself. -/
def document : String := "http://xmlns.com/foaf/0.1/Document"

/-- Namespace of the kinds of decision document. -/
def documentTypes : String := "https://data.vlaanderen.be/id/concept/BesluitDocumentType/"

/-- A class that is judged by cardinality alone. -/
def location : String := "http://www.w3.org/ns/prov#Location"

def functionaris : String := "http://data.lblod.info/vocabularies/leidinggevenden/Functionaris"
def mandataris : String := "http://data.vlaanderen.be/ns/mandaat#Mandataris"
def bestuurseenheid : String := "http://data.vlaanderen.be/ns/besluit#Bestuurseenheid"
def isGehoudenDoor : String := "http://data.vlaanderen.be/ns/besluit#isGehoudenDoor"
def isTijdspecialisatieVan : String :=
  "http://data.vlaanderen.be/ns/mandaat#isTijdspecialisatieVan"
def aantalTegenstanders : String := "http://data.vlaanderen.be/ns/besluit#aantalTegenstanders"
def aantalOnthouders : String := "http://data.vlaanderen.be/ns/besluit#aantalOnthouders"

end Vocabulary

/-- Relations that restate the same body, so that their targets are counted once each. -/
def isDistinctTargetRelation (path : String) : Bool :=
  path == Vocabulary.isGehoudenDoor || path == Vocabulary.isTijdspecialisatieVan

/-- The shorter of the text after the last hash and the text after the last slash; on equal lengths
the two are the same. -/
def shortSuffix (s : List Char) : List Char :=
  let afterHash := Text.afterLast '#' s
  let afterSlash := Text.afterLast '/' s
  if afterHash.length < afterSlash.length then afterHash else afterSlash

/-- Readable name of an IRI: what follows its last separator, or all of it when nothing follows. -/
def shortName (iri : String) : String :=
  let suffix := shortSuffix iri.toList
  if suffix.isEmpty then iri else String.ofList suffix

end PublicationAudit
