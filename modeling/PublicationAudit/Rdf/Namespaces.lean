import PublicationAudit.Rdf.Term
import PublicationAudit.Rdf.Token

/-!
# Declared names

The prefixes and the base that a text has declared so far, and the terms that single tokens stand
for under them.
-/

namespace PublicationAudit.Rdf

/-- Declared prefixes, the latest first, and the base of relative references. -/
structure Namespaces where
  prefixes : List (String × String) := []
  base : Option Reference := none

namespace Namespaces

/-- Declares a prefix; an earlier declaration is hidden. -/
def declare (names : Namespaces) (pre iri : String) : Namespaces :=
  { names with prefixes := (pre, iri) :: names.prefixes }

/-- Sets the base. -/
def rebase (names : Namespaces) (iri : String) : Namespaces :=
  { names with base := absoluteIri? iri }

/-- The IRI of a prefixed name. -/
def expand (names : Namespaces) (pre tail : String) : Except String String :=
  match names.prefixes.lookup pre with
  | none => .error ("the prefix " ++ pre ++ ": has not been declared")
  | some start =>
    if isAbsoluteIri (start ++ tail) then .ok (start ++ tail)
    else .error (start ++ tail ++ " is not an IRI")

/-- The IRI of a reference. -/
def resolve (names : Namespaces) (reference : String) : Except String String :=
  match resolveIri? names.base reference with
  | some iri => .ok iri
  | none => .error (reference ++ " is not an IRI")

/-- The IRI that a token stands for; none where it is of another kind. -/
def iri? (names : Namespaces) : Token → Except String (Option String)
  | .reference text => some <$> names.resolve text
  | .name pre tail => some <$> names.expand pre tail
  | _ => .ok none

/-- The IRI that has to come. -/
def iri (names : Namespaces) (token : Token) (expected : String) : Except String String := do
  match ← names.iri? token with
  | some iri => return iri
  | none => throw (expected ++ " is expected")

/-- A token that is a whole term by itself: an IRI or a labelled node. -/
def resource? (names : Namespaces) : Token → Except String (Option Term)
  | .label text => .ok (some (.blank text))
  | token => Option.map Term.iri <$> names.iri? token

/-- What a declaration of a prefix or a base declares as IRI. -/
def declaredIri (names : Namespaces) : Token → Except String String
  | .reference text => names.resolve text
  | _ => throw "an IRI is expected"

end Namespaces

/-- A token that is a whole literal by itself. -/
def Token.literal? : Token → Option Term
  | .integer written => some (.typed written (Vocabulary.xsd "integer"))
  | .decimal written => some (.typed written (Vocabulary.xsd "decimal"))
  | .double written => some (.typed written (Vocabulary.xsd "double"))
  | .word "true" => some (.ofBool true)
  | .word "false" => some (.ofBool false)
  | _ => none

end PublicationAudit.Rdf
