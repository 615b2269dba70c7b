import DemoPages.Text.Category

/-!
# Word characters

What a word is made of depends on who reads it. In markup, letters, numbers of every kind and
the low line. In the extension of a file, letters, combining marks, decimal digits, numbers
written with letters, joining punctuation, the two joiners and the circled letters.
-/

namespace DemoPages.Text

open Category (mem letters marks decimals letterNumbers otherNumbers connectors)

/-- A character of a word in markup. -/
def isWord (c : Char) : Bool :=
  c == '_' || mem letters c || mem decimals c || mem letterNumbers c || mem otherNumbers c

/-- Letters in a circle or a box. -/
def enclosedLetters : Array (Nat × Nat) :=
  #[(0x24b6, 0x24e9), (0x1f130, 0x1f149), (0x1f150, 0x1f169), (0x1f170, 0x1f189)]

/-- A character of an extension. -/
def isExtensionChar (c : Char) : Bool :=
  mem letters c || mem marks c || mem decimals c || mem letterNumbers c || mem connectors c ||
    c == '\u200c' || c == '\u200d' || mem enclosedLetters c

end DemoPages.Text
