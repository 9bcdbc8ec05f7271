import PublicationAudit.FactSet

/-!
# Kinds of decision document

A publication tags its document with the IRI of its kind; the first recognised tag decides.
-/

namespace PublicationAudit

/-- A kind of decision document. -/
inductive DocumentType where
  | notulen
  | besluitenlijst
  | agenda
  | unknown
  deriving DecidableEq, Repr, Inhabited

namespace DocumentType

/-- All kinds. -/
def all : List DocumentType := [notulen, besluitenlijst, agenda, unknown]

/-- The name of a kind. -/
def name : DocumentType → String
  | notulen => "Notulen"
  | besluitenlijst => "Besluitenlijst"
  | agenda => "Agenda"
  | unknown => "unknown document type"

/-- The kind with the given name, which has to match exactly. -/
def ofName? (text : String) : Option DocumentType := all.find? fun t => t.name = text

/-- The kind that an IRI tags. -/
def ofIri? (iri : String) : Option DocumentType :=
  if iri = Vocabulary.documentTypes ++ "8e791b27-7600-4577-b24e-c7c29e0eb773" then
    some notulen
  else if iri = Vocabulary.documentTypes ++ "3fa67785-ffdc-4b30-8880-2b99d97b4dee" then
    some besluitenlijst
  else if iri = Vocabulary.documentTypes ++ "13fefad6-a9d6-4025-83b5-e4cbee3a8965" then
    some agenda
  else
    none

/-- The kind tagged by the first fact that tags one. -/
def ofFacts (facts : FactSet) : DocumentType :=
  (facts.toList.findSome? fun f =>
    if f.predicate = Vocabulary.rdfType then f.object.iri?.bind ofIri? else none).getD unknown

/-- A kind is read back from its name. -/
theorem ofName?_name (t : DocumentType) : ofName? t.name = some t := by cases t <;> decide

end DocumentType

end PublicationAudit
