/-!
# White space

Two notions are in use: `isBlank` is every white space character, line ends and separators
included, and `isPad` is what may stand in front of a block of a page on its line.
-/

namespace DemoPages.Text

/-- White space of every kind: controls, separators and spaces of any width. -/
def isBlank (c : Char) : Bool :=
  let n := c.toNat
  (0x09 ≤ n && n ≤ 0x0D) || (0x1C ≤ n && n ≤ 0x20) || n == 0x85 || n == 0xA0 || n == 0x1680 ||
    (0x2000 ≤ n && n ≤ 0x200A) || n == 0x2028 || n == 0x2029 || n == 0x202F || n == 0x205F ||
    n == 0x3000

/-- A space or a tab. -/
def isPad (c : Char) : Bool := c == ' ' || c == '\t'

theorem isBlank_of_isPad {c : Char} (h : isPad c = true) : isBlank c = true := by
  simp only [isPad, Bool.or_eq_true, beq_iff_eq] at h
  rcases h with rfl | rfl <;> decide

/-- The text without the white space at its start. -/
def trimStart (s : List Char) : List Char := s.dropWhile isBlank

/-- The text without the white space at its end. -/
def trimEnd (s : List Char) : List Char := (s.reverse.dropWhile isBlank).reverse

/-- The text without the white space at both ends. -/
def trim (s : List Char) : List Char := trimEnd (trimStart s)

@[simp] theorem trimStart_nil : trimStart [] = [] := rfl

@[simp] theorem trimEnd_nil : trimEnd [] = [] := rfl

@[simp] theorem trim_nil : trim [] = [] := rfl

end DemoPages.Text
