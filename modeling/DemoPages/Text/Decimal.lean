import DemoPages.Text.Category

/-!
# Decimal numerals

A numeral is a run of decimal digits of any script; a digit counts by its place in the run from
zero to nine of its script. Reading refuses a numeral of more than `maxDigits` digits, leading
zeros included.
-/

namespace DemoPages.Text

/-- The value of a decimal digit of any script. -/
def digit? (c : Char) : Option Nat :=
  (Category.decimals.find? fun r => r.1 ≤ c.toNat && c.toNat ≤ r.2).map fun r => (c.toNat - r.1) % 10

/-- Is `c` a decimal digit of some script? -/
def isDigit (c : Char) : Bool := (digit? c).isSome

/-- The number that a run of digits denotes; other characters count as zero. -/
def numeralValue (ds : List Char) : Nat :=
  ds.foldl (fun n c => 10 * n + (digit? c).getD 0) 0

/-- The longest numeral that is read. -/
def maxDigits : Nat := 4300

/-- The number of a numeral, or the count of its digits when there are too many. -/
def readNumeral (ds : List Char) : Except Nat Nat :=
  if maxDigits < ds.length then .error ds.length else .ok (numeralValue ds)

/-- An integer in decimal: a minus sign if it is negative, and digits without leading zeros. -/
def decimal (i : Int) : String := Int.repr i

example : numeralValue ['0', '4', '\u0662'] = 42 := by decide

end DemoPages.Text
