import PublicationAudit.Rdf.Term
import PublicationAudit.Rdf.Token

/-!
# Reading N-Triples and N-Quads

One statement a line, every IRI absolute. N-Quads adds the name of a graph, which is checked and
forgotten.
-/

namespace PublicationAudit.Rdf.Lines

/-- The lines of a text. -/
def split : List Char → List (List Char)
  | [] => [[]]
  | c :: rest =>
    if Text.isLineEnd c then [] :: split rest
    else
      match split rest with
      | [] => [[c]]
      | line :: lines => (c :: line) :: lines

/-- An IRI or a labelled node. -/
def resource? : Token → Option Term
  | .reference text => if isAbsoluteIri text then some (.iri text) else none
  | .label text => some (.blank text)
  | _ => none

/-- An object, with the tokens after it. -/
def object? : List Token → Option (Term × List Token)
  | .text .double value :: .tag language :: rest =>
    (Term.ofTagged? value language).map fun term => (term, rest)
  | .text .double value :: .typeMark :: .reference datatype :: rest =>
    if isAbsoluteIri datatype then some (Term.ofTyped value datatype, rest) else none
  | .text .double value :: rest => some (.simple value, rest)
  | token :: rest => (resource? token).map fun term => (term, rest)
  | [] => none

/-- Whether the tokens are the end of a statement: a period, before which a graph may be named. -/
def isEnd (hasGraphs : Bool) : List Token → Bool
  | [.mark '.'] => true
  | [graph, .mark '.'] => hasGraphs && (resource? graph).isSome
  | _ => false

/-- The statement that the tokens of a line make. -/
def statement? (hasGraphs : Bool) : List Token → Option Statement
  | subject :: .reference predicate :: rest => do
    let subject ← resource? subject
    let (object, rest) ← object? rest
    if isAbsoluteIri predicate && isEnd hasGraphs rest then some ⟨subject, predicate, object⟩
    else none
  | _ => none

/-- Reads a line, which may be blank. -/
def readLine? (hasGraphs : Bool) (line : List Char) : Option (List Statement) := do
  match ← tokens? line with
  | [] => some []
  | tokens => (statement? hasGraphs tokens).map ([·])

/-- Reads a text. -/
def read (hasGraphs : Bool) (text : String) : Except String (List Statement) :=
  match (split text.toList).mapM (readLine? hasGraphs) with
  | some statements => .ok statements.flatten
  | none => .error "a line is malformed"

end PublicationAudit.Rdf.Lines
