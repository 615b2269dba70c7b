/-!
# Percent encoding

The bytes of a text in UTF-8, where all but letters, digits and `_.-~!*'()` are written as `%`
and two upper-case hexadecimal digits.
-/

namespace DemoPages.Text.Percent

/-- A hexadecimal digit, in upper case. -/
def hexDigit (n : Nat) : Char :=
  if n < 10 then Char.ofNat (0x30 + n) else Char.ofNat (0x41 + (n - 10))

/-- A byte that stands for the character of its number. -/
def isKept (b : UInt8) : Bool :=
  (0x30 ≤ b && b ≤ 0x39) || (0x41 ≤ b && b ≤ 0x5A) || (0x61 ≤ b && b ≤ 0x7A) ||
    "_.-~!*'()".toList.any fun c => c.toNat == b.toNat

/-- One byte, encoded. -/
def encodeByte (b : UInt8) : List Char :=
  if isKept b then [Char.ofNat b.toNat]
  else ['%', hexDigit (b.toNat / 16), hexDigit (b.toNat % 16)]

/-- The bytes of a text in UTF-8. -/
def utf8 (s : List Char) : List UInt8 := s.flatMap String.utf8EncodeChar

/-- A text, encoded. -/
def encode (s : String) : String :=
  String.ofList ((utf8 s.toList).flatMap encodeByte)

example : encode "a b/é" = "a%20b%2F%C3%A9" := by decide

end DemoPages.Text.Percent
