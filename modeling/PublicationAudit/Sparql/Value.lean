import PublicationAudit.Rdf.Term
import PublicationAudit.Text.Numeral

/-!
# Values of terms

What a term is worth in comparisons. Numbers compare by value whatever their datatypes, text by its
characters, dates in their plain form by the characters too. Literals of an unknown datatype are
worth nothing that could be compared.
-/

namespace PublicationAudit.Sparql

open Rdf (Term)

/-- A number: an integer divided by a power of ten. -/
structure Decimal where
  digits : Int
  places : Nat
  deriving DecidableEq, Repr

namespace Decimal

/-- A power of ten. -/
def powerOfTen (n : Nat) : Int := Int.ofNat (Nat.pow 10 n)

/-- Order by value. -/
def compare (a b : Decimal) : Ordering :=
  Ord.compare (a.digits * powerOfTen b.places) (b.digits * powerOfTen a.places)

/-- Whether the number is zero. -/
def isZero (a : Decimal) : Bool := a.digits == 0

/-- The number in the fewest digits; a fraction ends in a digit other than zero. -/
def write (a : Decimal) : String :=
  let size := Nat.toDigits 10 a.digits.natAbs
  let padded := List.replicate (a.places + 1 - size.length) '0' ++ size
  let whole := padded.take (padded.length - a.places)
  let fraction := ((padded.drop (padded.length - a.places)).reverse.dropWhile (· == '0')).reverse
  let unsigned := whole ++ (if fraction.isEmpty then [] else '.' :: fraction)
  String.ofList ((if a.digits < 0 then ['-'] else []) ++ unsigned)

end Decimal

/-- Cuts a sign off; the flag says whether it is a minus. -/
def cutMinus : List Char → Bool × List Char
  | '+' :: rest => (false, rest)
  | '-' :: rest => (true, rest)
  | s => (false, s)

/-- Reads digits around an optional period, at least one of them. -/
def readUnsignedDecimal? (s : List Char) : Option Decimal :=
  let whole := s.takeWhile Char.isDigit
  let fraction? := match s.dropWhile Char.isDigit with
    | [] => some []
    | '.' :: rest => if rest.all Char.isDigit then some rest else none
    | _ => none
  fraction?.bind fun fraction =>
    if whole.isEmpty && fraction.isEmpty then none
    else some ⟨Text.digitsValue (whole ++ fraction), fraction.length⟩

/-- Reads a decimal with an optional sign. -/
def readDecimal? (s : List Char) : Option Decimal :=
  let (isNegative, rest) := cutMinus s
  (readUnsignedDecimal? rest).map fun d => if isNegative then ⟨-d.digits, d.places⟩ else d

/-- Reads an integer with an optional sign that fits into 64 bits. -/
def readInteger? (s : List Char) : Option Int :=
  let (isNegative, rest) := cutMinus s
  if rest.isEmpty || rest.any (fun c => !c.isDigit) then none
  else
    let n : Int := if isNegative then -(Text.digitsValue rest) else Text.digitsValue rest
    if Text.fitsSigned64 n then some n else none

/-- Moves the point of a number: to the right by a positive amount. -/
def Decimal.scale (d : Decimal) (exponent : Int) : Decimal :=
  if 0 ≤ exponent then ⟨d.digits * powerOfTen exponent.toNat, d.places⟩
  else ⟨d.digits, d.places + exponent.natAbs⟩

/-- The largest exponent that is worked with. -/
def maxExponent : Nat := 400

/-- Reads a number with an optional exponent. -/
def readDouble? (s : List Char) : Option Decimal :=
  let isMark := fun c => c == 'e' || c == 'E'
  match s.dropWhile fun c => !isMark c with
  | [] => readDecimal? s
  | _ :: exponent =>
    match readDecimal? (s.takeWhile fun c => !isMark c), readInteger? exponent with
    | some d, some e => if e.natAbs ≤ maxExponent then some (d.scale e) else none
    | _, _ => none

/-- The integer datatypes: the general one, which all are stored as, and those with a range. -/
def integerDatatypes : List String :=
  ["integer", "byte", "short", "int", "long", "unsignedByte", "unsignedShort", "unsignedInt",
   "unsignedLong", "positiveInteger", "negativeInteger", "nonPositiveInteger",
   "nonNegativeInteger"].map Vocabulary.xsd

/-- Whether text has the form in which a zero stands for a digit and other characters for
themselves. -/
def hasForm : List Char → List Char → Bool
  | [], [] => true
  | '0' :: form, c :: s => c.isDigit && hasForm form s
  | f :: form, c :: s => f == c && hasForm form s
  | _, _ => false

/-- What a term is worth. -/
inductive Value where
  /-- An IRI or a blank node: itself. -/
  | resource
  | text (text : String)
  | tagged (text language : String)
  | number (value : Decimal)
  | truth (value : Bool)
  | date (datatype text : String)
  /-- A literal with a datatype that has no known values. -/
  | unknown

/-- The value of a literal with a datatype. -/
def typedValue (text datatype : String) : Value :=
  let orUnknown {α : Type} (worth : α → Value) (value : Option α) : Value :=
    match value with
    | some value => worth value
    | none => .unknown
  if integerDatatypes.contains datatype then
    orUnknown (fun n => .number ⟨n, 0⟩) (readInteger? text.toList)
  else if datatype == Vocabulary.xsd "decimal" then orUnknown .number (readDecimal? text.toList)
  else if datatype == Vocabulary.xsd "double" || datatype == Vocabulary.xsd "float" then
    orUnknown .number (readDouble? text.toList)
  else if datatype == Vocabulary.xsd "boolean" then
    if text == "true" || text == "1" then .truth true
    else if text == "false" || text == "0" then .truth false
    else .unknown
  else if (datatype == Vocabulary.xsd "date" && hasForm "0000-00-00".toList text.toList) ||
      (datatype == Vocabulary.xsd "dateTime" &&
        hasForm "0000-00-00T00:00:00".toList text.toList) then
    .date datatype text
  else .unknown

/-- What a term is worth. -/
def Value.ofTerm : Term → Value
  | .iri _ => resource
  | .blank _ => resource
  | .simple t => text t
  | .tagged t language => tagged t language
  | .typed t datatype => typedValue t datatype

/-- The form in which a term is kept: integers, decimals and truth values are written anew. -/
def canonical (term : Term) : Term :=
  match term with
  | .typed text datatype =>
    if integerDatatypes.contains datatype then
      match readInteger? text.toList with
      | some n => Term.ofInt n
      | none => term
    else
      match typedValue text datatype with
      | .truth b => Term.ofBool b
      | .number d => if datatype == Vocabulary.xsd "decimal" then .typed d.write datatype else term
      | _ => term
  | term => term

/-- Whether two terms are equal in value; none where that cannot be said. -/
def equal? (a b : Term) : Option Bool :=
  if a = b then some true
  else
    match Value.ofTerm a, Value.ofTerm b with
    | .number x, .number y => some (x.compare y == .eq)
    | .unknown, .resource => some false
    | .resource, .unknown => some false
    | .unknown, .tagged .. => some false
    | .tagged .., .unknown => some false
    | .unknown, _ => none
    | _, .unknown => none
    | _, _ => some false

/-- The order of two literals by value; none where they have no common order. -/
def compareLiterals? (a b : Term) : Option Ordering :=
  match Value.ofTerm a, Value.ofTerm b with
  | .number x, .number y => some (x.compare y)
  | .text x, .text y => some (Node.compareText x y)
  | .tagged x l, .tagged y m => if l = m then some (Node.compareText x y) else none
  | .truth x, .truth y => some (compare x.toNat y.toNat)
  | .date d x, .date e y => if d = e then some (Node.compareText x y) else none
  | _, _ => none

/-- The order of two terms that a condition compares. -/
def compare? (a b : Term) : Option Ordering := if a = b then some .eq else compareLiterals? a b

/-- The text, datatype and language by which literals without a common order are ordered. -/
def literalParts : Term → String × String × Option String
  | .simple text => (text, Vocabulary.xsd "string", none)
  | .tagged text language => (text, Vocabulary.rdfLangString, some language)
  | .typed text datatype => (text, datatype, none)
  | .iri text => (text, "", none)
  | .blank label => (label, "", none)

/-- The order of rows: unbound before blank nodes before IRIs before literals. -/
def orderTerms : Option Term → Option Term → Ordering
  | none, none => .eq
  | none, some _ => .lt
  | some _, none => .gt
  | some (.blank _), some (.blank _) => .eq
  | some (.blank _), some _ => .lt
  | some _, some (.blank _) => .gt
  | some (.iri a), some (.iri b) => Node.compareText a b
  | some (.iri _), some _ => .lt
  | some _, some (.iri _) => .gt
  | some a, some b =>
    match compareLiterals? a b with
    | some order => order
    | none =>
      let (x, d, l) := literalParts a
      let (y, e, m) := literalParts b
      (Node.compareText x y).then ((Node.compareText d e).then (Node.compareOption l m))

end PublicationAudit.Sparql
