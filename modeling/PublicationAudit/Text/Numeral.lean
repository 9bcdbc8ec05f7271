/-!
# Unsigned numerals

Reading a decimal numeral of a bounded unsigned type: an optional plus sign and at least one digit,
whose value does not exceed the bound.
-/

namespace PublicationAudit.Text

/-- Largest value of a 32-bit count. -/
def maxCount32 : Nat := 4294967295

/-- Largest value of a 64-bit count. -/
def maxCount64 : Nat := 18446744073709551615

/-- Whether a number fits into 64 bits of which one is for the sign. -/
def fitsSigned64 (n : Int) : Bool := -9223372036854775808 ≤ n && n ≤ 9223372036854775807

/-- The value of a list of decimal digits read from the left. -/
def digitsValue (digits : List Char) : Nat :=
  digits.foldl (fun n d => 10 * n + (d.toNat - '0'.toNat)) 0

/-- Reads one or more decimal digits and nothing else. -/
def readDigits? (s : List Char) : Option Nat :=
  if s.isEmpty || s.any (fun c => !c.isDigit) then none else some (digitsValue s)

/-- Reads a numeral with an optional plus sign whose value is at most `bound`. -/
def readUnsigned? (bound : Nat) (s : String) : Option Nat :=
  let digits := match s.toList with
    | '+' :: rest => rest
    | other => other
  (readDigits? digits).filter (· ≤ bound)

end PublicationAudit.Text
