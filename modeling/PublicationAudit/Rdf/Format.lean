import PublicationAudit.Failure
import PublicationAudit.Text.Blank
import PublicationAudit.Text.Search

/-!
# Formats of RDF text

The formats that are known by a media type or by the extension of a file name.
-/

namespace PublicationAudit.Rdf

/-- A format of RDF text. -/
inductive Format where
  | turtle
  | nTriples
  | nQuads
  | triG
  | n3
  | rdfXml
  | jsonLd
  deriving DecidableEq, Repr, Inhabited

namespace Format

/-- The name of a format. -/
def name : Format → String
  | turtle => "Turtle"
  | nTriples => "N-Triples"
  | nQuads => "N-Quads"
  | triG => "TriG"
  | n3 => "N3"
  | rdfXml => "RDF/XML"
  | jsonLd => "JSON-LD"

/-- The format with a file name extension, in either case. -/
def ofExtension? (extension : String) : Option Format :=
  match Text.lowerAscii extension with
  | "ttl" => some turtle
  | "nt" => some nTriples
  | "txt" => some nTriples
  | "nq" => some nQuads
  | "trig" => some triG
  | "n3" => some n3
  | "rdf" => some rdfXml
  | "xml" => some rdfXml
  | "json" => some jsonLd
  | "jsonld" => some jsonLd
  | _ => none

/-- The format with a subtype of a media type, in lower case. -/
def ofSubtype? : String → Option Format
  | "turtle" => some turtle
  | "n-triples" => some nTriples
  | "ntriples" => some nTriples
  | "plain" => some nTriples
  | "n-quads" => some nQuads
  | "nquads" => some nQuads
  | "trig" => some triG
  | "n3" => some n3
  | "rdf+xml" => some rdfXml
  | "xml" => some rdfXml
  | "json" => some jsonLd
  | "ld+json" => some jsonLd
  | "jsonld" => some jsonLd
  | "activity+json" => some jsonLd
  | _ => none

/-- The subtype without the mark of an unregistered one, which is in lower case. -/
def dropUnregisteredMark (subtype : List Char) : List Char :=
  match subtype with
  | 'x' :: '-' :: rest => rest
  | other => other

/-- The format with a media type, in either case and whatever its parameters. -/
def ofMediaType? (mediaType : String) : Option Format :=
  let essence := mediaType.toList.takeWhile (· != ';')
  let kind := Text.trimChars (essence.takeWhile (· != '/'))
  match essence.dropWhile (· != '/') with
  | [] => none
  | _ :: rest =>
    let kind := Text.lowerAscii (String.ofList kind)
    if kind == "application" || kind == "text" then
      ofSubtype? <| Text.lowerAscii <| String.ofList <| dropUnregisteredMark <| Text.trimChars rest
    else none

end Format

/-! ## File names -/

/-- The pieces of a path that name something: neither empty nor a lone period. A lone period in
first place counts. -/
def pathPieces (path : List Char) : List (List Char) :=
  match Text.splitAt '/' path with
  | [] => []
  | first :: rest =>
    (if first.isEmpty then [] else [first]) ++ rest.filter fun p => p ≠ [] ∧ p ≠ ['.']

/-- What follows the last period of a file name, unless the name starts there or is two periods. -/
def nameExtension? (name : List Char) : Option (List Char) :=
  if name = ['.', '.'] then none
  else
    match name.reverse.span (· != '.') with
    | (_, []) => none
    | (_, [_]) => none
    | (after, _) => some after.reverse

/-- The extension of the file that a path names. -/
def pathExtension? (path : String) : Option String :=
  ((pathPieces path.toList).getLast?.bind nameExtension?).map String.ofList

/-- The format of the file that a path names. -/
def Format.ofPath (path : String) : Except Failure Format :=
  match pathExtension? path with
  | none => .error (.unsupportedFormat path)
  | some extension =>
    match ofExtension? extension with
    | some format => .ok format
    | none => .error (.unsupportedFormat extension)

end PublicationAudit.Rdf
