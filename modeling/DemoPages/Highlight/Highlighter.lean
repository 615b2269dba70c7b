import DemoPages.Fault
import DemoPages.Highlight.Markup
import DemoPages.Text.Lines

/-!
# Highlighters

A highlighter turns the code of a demo into the markup that shows it. It may give up, and what it
does may depend on the codes it was shown before. `Highlighter.shading` shades markup, and shows
any other language as plain text.
-/

namespace DemoPages

/-- Shows a code, given the codes shown before, the oldest first. -/
abbrev Highlighter : Type := (shown : List String) → (code : String) → Except Fault String

namespace Highlight

/-- The languages that are told apart. -/
inductive Language where
  | markup
  | text
  deriving DecidableEq, Repr

/-- The language of a name, in capitals or small letters; an unknown name means plain text. -/
def Language.ofName (name : String) : Language :=
  if name.toList.map lowerChar = "html".toList then .markup else .text

/-- The styles that exist. -/
def styles : List String :=
  ["abap", "algol", "algol_nu", "arduino", "autumn", "borland", "bw", "coffee", "colorful",
    "default", "dracula", "emacs", "friendly", "friendly_grayscale", "fruity", "github-dark",
    "gruvbox-dark", "gruvbox-light", "igor", "inkpot", "lightbulb", "lilypond", "lovelace", "manni",
    "material", "monokai", "murphy", "native", "nord", "nord-darker", "one-dark", "paraiso-dark",
    "paraiso-light", "pastie", "perldoc", "rainbow_dash", "rrt", "sas", "solarized-dark",
    "solarized-light", "staroffice", "stata-dark", "stata-light", "tango", "trac", "vim", "vs",
    "xcode", "zenburn"]

/-- A code with line feeds as line ends, none at its start and one at its end. -/
def prepare (code : List Char) : List Char :=
  let body := match code with
    | '\ufeff' :: s => s
    | s => s
  let body := (Text.unifyLineEnds body).dropWhile (· = '\n')
  (body.reverse.dropWhile (· = '\n')).reverse ++ ['\n']

/-- The runs of a code. -/
def runs (language : Language) (code : String) : List Run :=
  let s := prepare code.toList
  match language with
  | .markup => shadeMarkup s
  | .text => [⟨.plain, s⟩]

end Highlight

/-- Shades a code in a language; the style has to exist, but the markup does not depend on it. -/
def Highlighter.shading (language style : String) : Highlighter := fun _ code =>
  if Highlight.styles.contains style then
    .ok (Highlight.markup (Highlight.runs (.ofName language) code))
  else .error (.unknownStyle style)

end DemoPages
