/-!
# Escapes and quotes

Quoted text is cut out of a text with its escapes unresolved, and the escapes are resolved
afterwards: a backslash stands before a short escape, or before `u` or `U` and the number of a
character in four or eight hexadecimal digits.
-/

namespace PublicationAudit.Text

/-- Whether a character is a hexadecimal digit. -/
def isHexDigit (c : Char) : Bool :=
  c.isDigit || ('a' ≤ c && c ≤ 'f') || ('A' ≤ c && c ≤ 'F')

/-- The value of a hexadecimal digit. -/
def hexDigitValue (d : Char) : Nat :=
  if d.isDigit then d.toNat - '0'.toNat else d.toLower.toNat - 'a'.toNat + 10

/-- The number that hexadecimal digits write. -/
def readHex? (digits : List Char) : Option Nat :=
  if !digits.isEmpty && digits.all isHexDigit then
    some (digits.foldl (fun n d => 16 * n + hexDigitValue d) 0)
  else none

/-- The character with the number that hexadecimal digits write. -/
def charOfHex? (digits : List Char) : Option Char :=
  (readHex? digits).bind fun n => if n.isValidChar then some (Char.ofNat n) else none

/-- Resolves escapes: characters by number, and the short escapes that `short` knows. -/
def unescape (short : Char → Option Char) : List Char → Option (List Char)
  | [] => some []
  | '\\' :: 'u' :: a :: b :: c :: d :: rest =>
    match charOfHex? [a, b, c, d], unescape short rest with
    | some x, some xs => some (x :: xs)
    | _, _ => none
  | '\\' :: 'U' :: a :: b :: c :: d :: e :: f :: g :: h :: rest =>
    match charOfHex? [a, b, c, d, e, f, g, h], unescape short rest with
    | some x, some xs => some (x :: xs)
    | _, _ => none
  | '\\' :: c :: rest =>
    match short c, unescape short rest with
    | some x, some xs => some (x :: xs)
    | _, _ => none
  | c :: rest => if c = '\\' then none else (unescape short rest).map (c :: ·)

/-- Whether a character ends a line. -/
def isLineEnd (c : Char) : Bool := c == '\n' || c == '\r'

/-- The characters up to the closing quote on the same line, escapes unresolved, and the text after
it. -/
def takeQuoted (quote : Char) : List Char → Option (List Char × List Char)
  | [] => none
  | '\\' :: c :: rest => (takeQuoted quote rest).map fun r => ('\\' :: c :: r.1, r.2)
  | c :: rest =>
    if c = quote then some ([], rest)
    else if isLineEnd c then none
    else (takeQuoted quote rest).map fun r => (c :: r.1, r.2)

/-- The characters up to three closing quotes, escapes unresolved, and the text after them. -/
def takeLongQuoted (quote : Char) : List Char → Option (List Char × List Char)
  | [] => none
  | '\\' :: c :: rest => (takeLongQuoted quote rest).map fun r => ('\\' :: c :: r.1, r.2)
  | c :: rest =>
    if c = quote ∧ rest.take 2 = [quote, quote] then some ([], rest.drop 2)
    else (takeLongQuoted quote rest).map fun r => (c :: r.1, r.2)

end PublicationAudit.Text
