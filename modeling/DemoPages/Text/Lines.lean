/-!
# Lines

`lines` cuts a text at every line boundary, and `unifyLineEnds` writes each of the three usual
line ends as a line feed.
-/

namespace DemoPages.Text

/-- A character after which a new line begins. -/
def isLineEnd (c : Char) : Bool :=
  let n := c.toNat
  (0x0A ≤ n && n ≤ 0x0D) || (0x1C ≤ n && n ≤ 0x1E) || n == 0x85 || n == 0x2028 || n == 0x2029

/-- Puts `c` at the start of the first line. -/
def consLine (c : Char) : List (List Char) → List (List Char)
  | [] => [[c]]
  | l :: ls => (c :: l) :: ls

/-- The lines of a text, each with its end. -/
def lines : List Char → List (List Char)
  | [] => []
  | '\r' :: '\n' :: s => ['\r', '\n'] :: lines s
  | c :: s => if isLineEnd c then [c] :: lines s else consLine c (lines s)

@[simp] theorem flatten_consLine (c : Char) (ls : List (List Char)) :
    (consLine c ls).flatten = c :: ls.flatten := by
  cases ls <;> simp [consLine]

/-- Nothing of the text is lost. -/
theorem flatten_lines (s : List Char) : (lines s).flatten = s := by
  fun_induction lines s with
  | case1 => rfl
  | case2 s ih => simp [ih]
  | case3 c s _ _ ih => simp [ih]
  | case4 c s _ _ ih => simp [ih]

/-- The text with a line feed for each `\r\n` and each other `\r`. -/
def unifyLineEnds : List Char → List Char
  | [] => []
  | '\r' :: '\n' :: s => '\n' :: unifyLineEnds s
  | c :: s => (if c = '\r' then '\n' else c) :: unifyLineEnds s

end DemoPages.Text
