import PublicationAudit.Rdf.Format
import PublicationAudit.Rdf.Lines
import PublicationAudit.Rdf.Turtle

/-!
# Reading RDF text

The facts of a text in any of the formats that can be read, in the order in which the text completes
them. Facts of all graphs are taken together. RDF/XML and JSON-LD are known as formats, but no text
in them is read.
-/

namespace PublicationAudit.Rdf

/-- Reads statements in a format. -/
def readStatements (format : Format) (base : Option Reference) (scope text : String) :
    Except String (List Statement) :=
  match format with
  | .turtle => Turtle.read false base scope text
  | .n3 => Turtle.read false base scope text
  | .triG => Turtle.read true base scope text
  | .nTriples => Lines.read false text
  | .nQuads => Lines.read true text
  | .rdfXml => .error "this format is not read"
  | .jsonLd => .error "this format is not read"

/-- The base that relative references are resolved against, where one is given. -/
def checkBase : Option String → Except Failure (Option Reference)
  | none => .ok none
  | some base =>
    match absoluteIri? base with
    | some reference => .ok (some reference)
    | none => .error (.invalidIri base "no absolute IRI")

/-- Reads the facts of a text. The scope starts the labels of anonymous nodes, so that texts read
under different scopes share none. -/
def readText (format : Format) (base : Option String) (scope text : String) :
    Except Failure (List Fact) := do
  let base ← checkBase base
  match readStatements format base scope text with
  | .ok statements => return statements.map Statement.toFact
  | .error reason => throw (.unreadable format.name reason)

/-- Reads the facts of the bytes of a text. -/
def readBytes (format : Format) (base : Option String) (scope : String) (bytes : ByteArray) :
    Except Failure (List Fact) :=
  match String.fromUTF8? bytes with
  | some text => readText format base scope text
  | none => do
    let _ ← checkBase base
    throw (.unreadable format.name "invalid UTF-8")

end PublicationAudit.Rdf
