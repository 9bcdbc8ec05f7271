import PublicationAudit.Forest
import PublicationAudit.Text.Blank
import PublicationAudit.Validation.Entry

/-!
# Judging the values of a property

When a property of a subject is valid, apart from its constraints: its count is within the bounds,
its values have the required class, and none of its texts is blank.
-/

namespace PublicationAudit

/-- The number of values: occurrences, or distinct targets for a relation that restates the same
body. -/
def countValues (path : String) (values : List EdgeTarget) : Nat :=
  if isDistinctTargetRelation path then (values.map EdgeTarget.identity).eraseDups.length
  else values.length

/-- Characters of a URI scheme after its first letter. -/
def isSchemePart (c : Char) : Bool := c.isAlphanum || c == '+' || c == '.' || c == '-'

/-- A bare identifier: a scheme, a colon, and at least one character after it, none of them
blank. -/
def isBareIdentifier (text : String) : Bool :=
  match text.toList with
  | [] => false
  | first :: rest =>
    first.isAlpha &&
      match rest.dropWhile isSchemePart with
      | ':' :: tail => !tail.isEmpty && tail.all fun c => !Text.isBlank c
      | _ => false

/-- A value that points outside the publication: an identifier that is not nested here. -/
def EdgeTarget.isExternal (value : EdgeTarget) : Bool := value.text?.any isBareIdentifier

/-- Whether a class meets a required one. An office holder may hold a mandate. -/
def classMeets (required actual : String) : Bool :=
  actual == required || (required == Vocabulary.functionaris && actual == Vocabulary.mandataris)

/-- Whether values have the required class: a location is judged by its count alone, values that all
point outside are taken on trust, and otherwise every value is a nested subject of the class. -/
def valuesMeetClass (required : String) (values : List EdgeTarget) : Bool :=
  required == Vocabulary.location ||
    (!values.isEmpty && values.all EdgeTarget.isExternal) ||
    values.all fun value => value.nested?.any fun subject => classMeets required subject.cls

/-- Whether a literal holds blank characters only. -/
def EdgeTarget.isBlankText : EdgeTarget → Bool
  | .literal text => Text.allBlank text
  | _ => false

end PublicationAudit
