import DemoPages.Text.Blank
import DemoPages.Text.Lines
import DemoPages.Text.Pieces

/-!
# Lines of a page

A line is taken apart into its indentation and its text. The indentation counts in columns, with a
tab stop at every fourth column; what a surrounding list item or quotation takes from a line
changes its text and its columns. A negative column marks a line that can only go on with a
paragraph.
-/

namespace DemoPages.Markdown

open Text (isPad)

/-- A line of a page. -/
structure Line where
  /-- The spaces and tabs at the start of the whole line. -/
  pad : List Char := []
  /-- The text, from the first character that is neither a space nor a tab. -/
  text : List Char
  /-- The column in which the text begins. -/
  column : Int := 0
  /-- The columns in front of what is left of the line; tab stops are counted with them. -/
  shift : Nat := 0
  deriving DecidableEq, Repr

namespace Line

/-- The column behind spaces and tabs that begin in `column`. -/
def advance (shift : Nat) : (column : Int) → List Char → Int
  | column, [] => column
  | column, c :: s =>
    advance shift (if c = '\t' then column + (4 - (column + shift) % 4) else column + 1) s

/-- Takes a line apart. -/
def ofChars (s : List Char) : Line :=
  let (pad, text) := s.span isPad
  { pad, text, column := advance 0 0 pad }

/-- Is there nothing on the line but spaces and tabs? -/
def isEmpty (l : Line) : Bool := l.text.isEmpty

/-- The rest of the line behind `indent` columns of spaces and tabs; of a tab that reaches further,
the columns beyond stay as spaces. -/
def dropColumns (indent : Nat) : (column : Nat) → List Char → List Char → List Char
  | column, [], text => List.replicate (column - indent) ' ' ++ text
  | column, c :: pad, text =>
    if indent ≤ column then List.replicate (column - indent) ' ' ++ c :: pad ++ text
    else dropColumns indent (if c = '\t' then column + (4 - column % 4) else column + 1) pad text

/-- The line without the first `indent` columns of its indentation. -/
def outdented (indent : Nat) (l : Line) : List Char := dropColumns indent 0 l.pad l.text

end Line

/-- A text with line feeds as line ends, and a sign in place of each character of number zero. -/
def normalize (s : List Char) : List Char :=
  (Text.unifyLineEnds s).map fun c => if c = '\x00' then '\ufffd' else c

/-- The lines of a text, without their ends. Spaces and tabs behind the last line feed make no
line. -/
def linesOf (s : List Char) : List Line :=
  let pieces := Text.split '\n' (normalize s)
  let kept := if (pieces.getLastD []).all isPad then pieces.dropLast else pieces
  kept.map Line.ofChars

end DemoPages.Markdown
