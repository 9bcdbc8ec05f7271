import PublicationAudit.Rdf.Term

/-!
# Queries as trees

A query selects bindings of its variables. Its pattern is a group of elements: statements with
variables in them, optional groups, unions of groups, and conditions on the bindings of the group.
-/

namespace PublicationAudit.Sparql

open Rdf (Term)

/-- A position of a statement pattern. Blank nodes of a query are variables that cannot be
selected; their names start with an underscore and a colon. -/
inductive Slot where
  | var (name : String)
  | term (term : Term)
  deriving DecidableEq, Repr, Inhabited

/-- A statement with variables. -/
structure StatementPattern where
  subject : Slot
  predicate : Slot
  object : Slot
  deriving DecidableEq, Repr, Inhabited

/-- A comparison of two values. -/
inductive Comparison where
  | equal
  | unequal
  | less
  | lessOrEqual
  | greater
  | greaterOrEqual
  deriving DecidableEq, Repr

/-- A kind of term that a condition can test for. -/
inductive TermKind where
  | iri
  | blank
  | literal
  deriving DecidableEq, Repr

mutual

/-- A condition, or a value that a condition is made of. -/
inductive Expression where
  | var (name : String)
  | term (term : Term)
  | not (condition : Expression)
  | and (left right : Expression)
  | or (left right : Expression)
  | compare (comparison : Comparison) (left right : Expression)
  | isBound (name : String)
  | length (text : Expression)
  | textOf (value : Expression)
  | languageOf (literal : Expression)
  | contains (text part : Expression)
  | isKind (kind : TermKind) (value : Expression)
  /-- Whether the group has a match that agrees with the bindings. -/
  | hasMatch (group : List Element)

/-- An element of a group. -/
inductive Element where
  | statement (pattern : StatementPattern)
  | optional (group : List Element)
  /-- One group or several alternatives. -/
  | union (alternatives : List (List Element))
  | filter (condition : Expression)

end

instance : Inhabited Expression := ⟨.var ""⟩
instance : Inhabited Element := ⟨.union []⟩

/-- A pattern: the conditions apply to all other elements wherever they stand. -/
abbrev Group := List Element

/-- What a query selects. -/
inductive Selection where
  /-- Every variable of the pattern. -/
  | everything
  | named (names : List String)
  /-- The number of bindings, or of the bindings in which a variable is bound, under a new name. -/
  | count (distinct : Bool) (counted : Option String) (name : String)
  deriving DecidableEq, Repr

/-- A value by which bindings are ordered. -/
structure OrderKey where
  descends : Bool
  value : Expression

/-- A query that selects rows. -/
structure SelectQuery where
  selection : Selection
  distinct : Bool
  pattern : Group
  order : List OrderKey
  offset : Nat
  limit : Option Nat

/-- A query. Only a selection has rows for an answer. -/
inductive Query where
  | select (query : SelectQuery)
  | other (pattern : Group)

end PublicationAudit.Sparql
