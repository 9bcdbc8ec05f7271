import PublicationAudit.Crawl.Basic

/-!
# Offline copies

A library of documents by IRI. It is given document by document, or made from files: then every IRI
that a file describes as a subject stands for all files that describe it, whole and in order.
-/

namespace PublicationAudit

/-- Documents by IRI. -/
abbrev OfflineLibrary := OrderedMap String (List Fact)

namespace OfflineLibrary

/-- The library of the listed documents; a later document of an IRI replaces an earlier one. -/
def ofDocuments (documents : List FetchedDocument) : OfflineLibrary :=
  documents.foldl (fun library document => library.insert document.1 document.2) .empty

/-- The distinct IRIs that facts describe as subjects, in order. -/
def describedIris (facts : List Fact) : List String :=
  (facts.filterMap fun f => f.subject.iri?).eraseDups

/-- Adds a file under every IRI that it describes. -/
def addFile (library : OfflineLibrary) (facts : List Fact) : OfflineLibrary :=
  (describedIris facts).foldl
    (fun library iri => library.upsert iri fun old => old.getD [] ++ facts) library

/-- The library of the files whose facts are listed. -/
def ofFiles (files : List (List Fact)) : OfflineLibrary := files.foldl addFile .empty

/-- Answers with the document of an IRI. -/
def dereference (library : OfflineLibrary) : Dereferencer := fun iri =>
  match library.find? iri with
  | some document => .ok document
  | none => .error (.fetch iri "no offline copy available")

end OfflineLibrary

end PublicationAudit
