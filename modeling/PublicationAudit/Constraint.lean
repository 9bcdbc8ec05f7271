import PublicationAudit.Query
import PublicationAudit.Shape.Basic
import PublicationAudit.Text.Search

/-!
# Embedded constraints

A constraint query lists violations: every row that it returns is one. Before the query is asked,
the focus node and, for a constraint of a property, the path are written into it; the message
template is filled from the row in one pass, so that text from a row is never read as a template.
-/

namespace PublicationAudit

/-- One violation of a constraint. -/
structure Violation where
  focusNode : String
  resultPath : Option String
  value : Option String
  message : String
  deriving DecidableEq, Repr, Inhabited

/-- Message of the violation reported for a focus that is no IRI. -/
def blankFocusMessage : String := "blank nodes are not supported here"

/-- Writes the focus and then the path into a query. -/
def instantiateQuery (select focus : String) (path : Option String) : String :=
  let focused := Text.replaceAll "$this" ("<" ++ focus ++ ">") select
  match path with
  | some path => Text.replaceAll "$PATH" ("<" ++ path ++ ">") focused
  | none => focused

/-- Characters that can start a variable of a message template. -/
def isVariableStart (c : Char) : Bool := c.isAlpha || c == '_'

/-- Characters of a variable of a message template. -/
def isVariablePart (c : Char) : Bool := c.isAlphanum || c == '_'

/-- The variable of a placeholder that starts the text: a brace, a question mark or dollar sign, the
variable, and the closing brace. -/
def placeholder? : List Char → Option (List Char)
  | '\x7b' :: sign :: first :: rest =>
    if (sign == '?' || sign == '$') && isVariableStart first &&
        (rest.dropWhile isVariablePart).head? == some '\x7d' then
      some (first :: rest.takeWhile isVariablePart)
    else none
  | _ => none

/-- The text that a placeholder of a bound variable gives way to, and the length of the
placeholder. -/
def filledPlaceholder? (row : Row) (s : List Char) : Option (List Char × Nat) :=
  (placeholder? s).bind fun name =>
    (row.value? (String.ofList name)).map fun node => (node.lexical.toList, name.length + 3)

/-- Fills a template from left to right: a placeholder of a bound variable gives way to the value's
text, everything else stays. `skip` characters still belong to the placeholder filled last. -/
def fillFrom (row : Row) : Nat → List Char → List Char
  | _, [] => []
  | skip + 1, _ :: cs => fillFrom row skip cs
  | 0, c :: cs =>
    match filledPlaceholder? row (c :: cs) with
    | some (text, length) => text ++ fillFrom row (length - 1) cs
    | none => c :: fillFrom row 0 cs

/-- The message of a row. -/
def renderMessage (template : String) (row : Row) : String :=
  String.ofList (fillFrom row 0 template.toList)

/-- The violation that a row shows. -/
def violationOfRow (template focus : String) (path : Option String) (row : Row) : Violation where
  focusNode := ((row.value? "this").map Node.key).getD focus
  resultPath := ((row.value? "path").map Node.key).or path
  value := (row.value? "value").map Node.key
  message := renderMessage template row

namespace Constraint

/-- The query that a constraint asks about a focus: none when it is inert or the focus is no IRI. -/
def query? (constraint : Constraint) (focus : Node) (path : Option String) : Option String :=
  constraint.parts?.bind fun parts =>
    focus.iri?.map fun iri => instantiateQuery parts.1 iri path

/-- The violations of a constraint at a focus. A query that the engine refuses shows none. -/
def violations (constraint : Constraint) (engine : QueryEngine) (focus : Node)
    (path : Option String) : List Violation :=
  match constraint.parts? with
  | none => []
  | some (select, template) =>
    match focus.iri? with
    | none => [⟨focus.key, path, none, blankFocusMessage⟩]
    | some iri =>
      match engine (instantiateQuery select iri path) with
      | .error _ => []
      | .ok rows => rows.map (violationOfRow template iri path)

end Constraint

end PublicationAudit
