import PublicationAudit.Fact

/-!
# Queries

A query engine answers a query text with rows, or refuses it. It is a function: what it answers
depends on the text alone.
-/

namespace PublicationAudit

/-- One row of an answer: the bound variables with their values. -/
abbrev Row := List (String × Node)

/-- The value of a bound variable. -/
def Row.value? (row : Row) (name : String) : Option Node := row.lookup name

/-- Answers a query text with rows, or says why it cannot. -/
abbrev QueryEngine := String → Except String (List Row)

end PublicationAudit
