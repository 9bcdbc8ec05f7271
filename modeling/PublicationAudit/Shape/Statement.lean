import PublicationAudit.FactSet
import PublicationAudit.Maturity.Tier
import PublicationAudit.Text.Blank
import PublicationAudit.Text.Numeral

/-!
# Statements about shapes

The facts of a shape file classified by what they say about a shape. A known predicate whose object
has the wrong form makes a malformed statement; an unknown predicate says nothing.
-/

namespace PublicationAudit

/-- What one fact says about its subject as a shape. -/
inductive ShapeStatement where
  | targetClass (cls : String)
  | property (shape : Node)
  | name (text : String)
  | description (text : String)
  | path (iri : String)
  | requiredClass (cls : String)
  | minCount (count : Nat)
  | maxCount (count : Nat)
  | maturityLevel (tier : Tier)
  | constraint (query : Node)
  | select (query : String)
  | message (template : String)
  /-- A known predicate whose object has the wrong form. -/
  | malformed (predicate value : String)
  | unrecognized (predicate : String)
  deriving DecidableEq, Repr, Inhabited

namespace ShapeStatement

/-- The count that a literal writes, blanks around it set aside. -/
def countOf? : Node → Option Nat
  | .literal text _ _ => Text.readUnsigned? Text.maxCount32 (Text.trim text)
  | _ => none

/-- A node that can be a shape or a constraint. -/
def resourceOf? (node : Node) : Option Node := if node.isLiteral then none else some node

/-- The tier that a node names, blanks around the name set aside. -/
def tierOf? (node : Node) : Option Tier := Tier.ofName? (Text.trim node.lexical)

/-- Classifies a fact. -/
def ofFact (fact : Fact) : ShapeStatement :=
  let object := fact.object
  let orMalformed (statement? : Option ShapeStatement) : ShapeStatement :=
    statement?.getD (malformed fact.predicate object.key)
  if fact.predicate = Vocabulary.targetClass then orMalformed (object.iri?.map targetClass)
  else if fact.predicate = Vocabulary.property then orMalformed ((resourceOf? object).map property)
  else if fact.predicate = Vocabulary.name then name object.lexical
  else if fact.predicate = Vocabulary.description then description object.lexical
  else if fact.predicate = Vocabulary.path then orMalformed (object.iri?.map path)
  else if fact.predicate = Vocabulary.requiredClass then
    orMalformed (object.iri?.map requiredClass)
  else if fact.predicate = Vocabulary.minCount then orMalformed ((countOf? object).map minCount)
  else if fact.predicate = Vocabulary.maxCount then orMalformed ((countOf? object).map maxCount)
  else if fact.predicate = Vocabulary.maturityLevel then
    orMalformed ((tierOf? object).map maturityLevel)
  else if fact.predicate = Vocabulary.sparql then
    orMalformed ((resourceOf? object).map constraint)
  else if fact.predicate = Vocabulary.select then select object.lexical
  else if fact.predicate = Vocabulary.message then message object.lexical
  else unrecognized fact.predicate

end ShapeStatement

end PublicationAudit
