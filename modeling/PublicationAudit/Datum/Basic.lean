/-!
# Data of settings and reports

The values that settings files hold and reports are made of. A record keeps its fields in order and
may repeat a name; what repetition means is for its reader to say.
-/

namespace PublicationAudit

/-- A value of a settings file or a report. -/
inductive Datum where
  | null
  | boolean (value : Bool)
  | integer (value : Int)
  /-- A number with a fraction or an exponent, or a date: no setting takes one. -/
  | other (written : String)
  | text (value : String)
  /-- A scalar without quotes in a format that leaves its type to the reader. -/
  | plain (written : String)
  | list (items : List Datum)
  | record (fields : List (String × Datum))
  deriving Repr, Inhabited

namespace Datum

/-- A count. -/
def count (n : Nat) : Datum := .integer n

/-- A field that is left out when there is no value. -/
def optional {α : Type} (name : String) (encode : α → Datum) : Option α → List (String × Datum)
  | none => []
  | some value => [(name, encode value)]

/-- A list of texts. -/
def texts (items : List String) : Datum := .list (items.map .text)

/-- A list field that is left out when it is empty. -/
def unlessEmpty {α : Type} (name : String) (encode : α → Datum) (items : List α) :
    List (String × Datum) :=
  if items.isEmpty then [] else [(name, .list (items.map encode))]

end Datum

end PublicationAudit
