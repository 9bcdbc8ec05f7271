import PublicationAudit.Text.Visible

/-!
# Quoted text

Text between double quotes in which every character can be read: backslash, quote, tab, line feed,
carriage return and the null character have short escapes, other characters without a visible form
are written by their number in braces.
-/

namespace PublicationAudit.Text

/-- Which quotes are escaped: a file path escapes the apostrophe too. -/
structure QuoteStyle where
  escapesApostrophe : Bool

/-- Literals escape the double quote only. -/
def QuoteStyle.literal : QuoteStyle := ⟨false⟩

/-- File paths escape both kinds of quote. -/
def QuoteStyle.path : QuoteStyle := ⟨true⟩

/-- A character as it is written between quotes. -/
def quoteChar (style : QuoteStyle) (c : Char) : List Char :=
  if c = '\x00' then ['\\', '0']
  else if c = '\t' then ['\\', 't']
  else if c = '\n' then ['\\', 'n']
  else if c = '\r' then ['\\', 'r']
  else if c = '"' then ['\\', '"']
  else if c = '\\' then ['\\', '\\']
  else if c = '\'' ∧ style.escapesApostrophe then ['\\', '\'']
  else if isVisible c then [c]
  else ['\\', 'u', '\x7b'] ++ Nat.toDigits 16 c.toNat ++ ['\x7d']

/-- The quoted form of a text. -/
def quote (style : QuoteStyle) (s : String) : String :=
  String.ofList ('"' :: s.toList.flatMap (quoteChar style) ++ ['"'])

end PublicationAudit.Text
