import DemoPages.Text.Pieces

/-!
# Shaded text

A text whose characters each have a shade is shown line by line: on a line, neighbours of one
shade stand in one span, plain text in none, and no span crosses the end of a line.
-/

namespace DemoPages.Highlight

/-- The shade of a character. -/
inductive Shade where
  | plain
  | error
  | entity
  | instruction
  | comment
  | punctuation
  | tagName
  | attributeName
  | operator
  | string
  deriving DecidableEq, Repr

/-- The class that a span of this shade has; plain text has none. -/
def Shade.class? : Shade → Option String
  | .plain => none
  | .error => some "err"
  | .entity => some "ni"
  | .instruction => some "cp"
  | .comment => some "cm"
  | .punctuation => some "p"
  | .tagName => some "nt"
  | .attributeName => some "na"
  | .operator => some "o"
  | .string => some "s"

/-- A run of text of one shade. -/
structure Run where
  shade : Shade
  text : List Char
  deriving DecidableEq, Repr

/-- A character as it is written in markup. -/
def escapeChar : Char → List Char
  | '&' => "&amp;".toList
  | '<' => "&lt;".toList
  | '>' => "&gt;".toList
  | c => [c]

/-- A text as it is written in markup. -/
def escape (s : List Char) : List Char := s.flatMap escapeChar

/-- A run as it is written in markup. -/
def Run.markup (r : Run) : List Char :=
  match r.shade.class? with
  | none => escape r.text
  | some name => "<span class=\"".toList ++ name.toList ++ "\">".toList ++ escape r.text ++
      "</span>".toList

/-- Puts a character of some shade in front of runs, inside the first one if that has its shade. -/
def consRun (shade : Shade) (c : Char) : List Run → List Run
  | [] => [⟨shade, [c]⟩]
  | r :: rs => if r.shade = shade then ⟨shade, c :: r.text⟩ :: rs else ⟨shade, [c]⟩ :: r :: rs

/-- The lines of a text that follow a character: it belongs to the first of them, or it ends a
line. -/
def consChar (shade : Shade) (c : Char) (lines : List (List Run)) : List (List Run) :=
  if c = '\n' then [] :: lines
  else
    match lines with
    | [] => [[⟨shade, [c]⟩]]
    | l :: ls => consRun shade c l :: ls

/-- The lines of some runs, cut at the line feeds; one more than there are line feeds. -/
def linesOf (runs : List Run) : List (List Run) :=
  runs.foldr (fun r ls => r.text.foldr (consChar r.shade) ls) [[]]

/-- Runs that end with a line feed, as lines of markup in a box. -/
def markup (runs : List Run) : String :=
  let lines := (linesOf runs).dropLast.map fun l => l.flatMap Run.markup ++ ['\n']
  "<div class=\"highlight\"><pre><span></span>" ++ String.ofList lines.flatten ++ "</pre></div>\n"

end DemoPages.Highlight
