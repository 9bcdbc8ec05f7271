/-!
# Blank text

A character is blank when it has the Unicode property `White_Space`. Text is trimmed of blank
characters at both ends, and a text value counts as empty when nothing is left.
-/

namespace PublicationAudit.Text

/-- The characters with the Unicode property `White_Space`. -/
def isBlank (c : Char) : Bool :=
  let n := c.toNat
  (9 ≤ n && n ≤ 13) || n == 0x20 || n == 0x85 || n == 0xA0 || n == 0x1680 ||
    (0x2000 ≤ n && n ≤ 0x200A) || n == 0x2028 || n == 0x2029 || n == 0x202F ||
    n == 0x205F || n == 0x3000

/-- The characters left after blanks are dropped at both ends. -/
def trimChars (s : List Char) : List Char :=
  ((s.dropWhile isBlank).reverse.dropWhile isBlank).reverse

/-- Text without the blanks at its ends. -/
def trim (s : String) : String :=
  String.ofList (trimChars s.toList)

/-- Text that holds blank characters only, the empty text included. -/
def allBlank (s : String) : Bool :=
  s.toList.all isBlank

end PublicationAudit.Text
