/-!
# Characters of names

The character classes of prefixed names, blank node labels and variables, over code points.
-/

namespace PublicationAudit.Rdf

/-- Whether the code point of a character lies in one of the ranges, ends included. -/
def inRanges (ranges : List (Nat × Nat)) (c : Char) : Bool :=
  ranges.any fun range => range.1 ≤ c.toNat && c.toNat ≤ range.2

/-- The letters that can start a name. -/
def isNameStart (c : Char) : Bool :=
  c.isAlpha || inRanges
    [(0xC0, 0xD6), (0xD8, 0xF6), (0xF8, 0x2FF), (0x370, 0x37D), (0x37F, 0x1FFF),
     (0x200C, 0x200D), (0x2070, 0x218F), (0x2C00, 0x2FEF), (0x3001, 0xD7FF), (0xF900, 0xFDCF),
     (0xFDF0, 0xFFFD), (0x10000, 0xEFFFF)] c

/-- The marks that can stand inside a name but not start it. -/
def isNameMark (c : Char) : Bool :=
  c.toNat == 0xB7 || inRanges [(0x300, 0x36F), (0x203F, 0x2040)] c

/-- Letters, digits and the underscore: what can start a label, a local name or a variable. -/
def isLabelStart (c : Char) : Bool := isNameStart c || c == '_' || c.isDigit

/-- Characters of a variable after the first. -/
def isVariableRest (c : Char) : Bool := isLabelStart c || isNameMark c

/-- Characters inside a name. -/
def isNamePart (c : Char) : Bool := isVariableRest c || c == '-'

/-- Whether text can label a blank node: like a name, with colons, and with periods except at its
ends. -/
def isBlankLabel (label : String) : Bool :=
  match label.toList with
  | [] => false
  | first :: rest =>
    (isLabelStart first || first == ':') &&
      rest.all (fun c => isNamePart c || c == ':' || c == '.') && rest.getLast? != some '.'

/-- A start for labels, made of a kind and a name: the letters and digits of the name stand for
themselves, and its other characters are written by number. -/
def scopeOf (kind name : String) : String :=
  kind ++ "-" ++ String.ofList (name.toList.flatMap fun c =>
    if c.isAlphanum then [c] else '_' :: Nat.toDigits 16 c.toNat ++ ['_']) ++ "-"

end PublicationAudit.Rdf
