/-!
# Entities worth fetching

The kinds of entity that a publication refers to by IRI. The kind is recognised by a segment of the
path that stands between two slashes, and the leftmost such segment decides.
-/

namespace PublicationAudit

/-- A kind of entity. -/
inductive EntityKind where
  | mandataris
  | persoon
  | functionaris
  | bestuursorgaan
  | bestuurseenheid
  | werkingsgebied
  deriving DecidableEq, Repr, Inhabited

namespace EntityKind

/-- All kinds. -/
def all : List EntityKind :=
  [mandataris, persoon, functionaris, bestuursorgaan, bestuurseenheid, werkingsgebied]

/-- The name of a kind. -/
def name : EntityKind → String
  | mandataris => "Mandataris"
  | persoon => "Persoon"
  | functionaris => "Functionaris"
  | bestuursorgaan => "Bestuursorgaan"
  | bestuurseenheid => "Bestuurseenheid"
  | werkingsgebied => "Werkingsgebied"

/-- The path segment by which a kind is recognised. -/
def segment : EntityKind → String
  | mandataris => "mandatarissen"
  | persoon => "personen"
  | functionaris => "functionarissen"
  | bestuursorgaan => "bestuursorganen"
  | bestuurseenheid => "bestuurseenheden"
  | werkingsgebied => "werkingsgebieden"

/-- The kind whose segment, between slashes, starts the text. -/
def atStart? (s : List Char) : Option EntityKind :=
  all.find? fun kind => ('/' :: kind.segment.toList ++ ['/']).isPrefixOf s

/-- The kind whose segment occurs first. -/
def firstIn? : List Char → Option EntityKind
  | [] => none
  | c :: cs => (atStart? (c :: cs)).or (firstIn? cs)

/-- The kind of entity that an IRI stands for. -/
def ofIri? (iri : String) : Option EntityKind := firstIn? iri.toList

end EntityKind

end PublicationAudit
