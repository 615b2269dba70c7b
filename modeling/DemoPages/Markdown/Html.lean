import DemoPages.Text.Blank
import DemoPages.Text.Pieces

/-!
# Blocks of markup

A line that begins with an angle bracket may begin a block of markup, in one of seven ways. The
way decides how the block ends: behind a line that holds a certain text, or in front of an empty
line. A line that holds nothing but one tag is the only way that cannot follow a line of prose.
-/

namespace DemoPages.Markdown.Html

open Text (isBlank)

/-- A small letter for a capital, and for the few other characters that count as the same
letter. -/
def fold (c : Char) : Char :=
  if 'A' ≤ c ∧ c ≤ 'Z' then Char.ofNat (c.toNat + 32)
  else if c = '\u017f' then 's'
  else if c = '\u212a' then 'k'
  else if c = '\u0130' ∨ c = '\u0131' then 'i'
  else c

/-- The text behind `word`, if it begins so. -/
def behind? : (word : List Char) → List Char → Option (List Char)
  | [], s => some s
  | w :: ws, c :: s => if w = c then behind? ws s else none
  | _ :: _, [] => none

/-- The text behind `word`, in capitals or small letters. -/
def behindFolded? : (word : List Char) → List Char → Option (List Char)
  | [], s => some s
  | w :: ws, c :: s => if w = fold c then behindFolded? ws s else none
  | _ :: _, [] => none

/-- Does a text hold a place from which `here` is true? -/
def anywhere (here : List Char → Bool) : List Char → Bool
  | [] => here []
  | c :: s => here (c :: s) || anywhere here s

/-- Does a text hold `word`? -/
def holds (word : String) (s : List Char) : Bool :=
  anywhere (fun r => (behind? word.toList r).isSome) s

/-- Elements whose content is not read as markup. -/
def verbatim : List String := ["script", "pre", "style", "textarea"]

/-- Elements that make a block. -/
def elements : List String :=
  ["address", "article", "aside", "base", "basefont", "blockquote", "body", "caption", "center",
    "col", "colgroup", "dd", "details", "dialog", "dir", "div", "dl", "dt", "fieldset",
    "figcaption", "figure", "footer", "form", "frame", "frameset", "h1", "h2", "h3", "h4", "h5",
    "h6", "head", "header", "hr", "html", "iframe", "legend", "li", "link", "main", "menu",
    "menuitem", "nav", "noframes", "ol", "optgroup", "option", "p", "param", "search", "section",
    "summary", "table", "tbody", "td", "tfoot", "th", "thead", "title", "tr", "track", "ul"]

/-! ## A line with one tag -/

/-- A letter of ASCII. -/
def isLetter (c : Char) : Bool := ('a' ≤ c && c ≤ 'z') || ('A' ≤ c && c ≤ 'Z')

/-- A character of the name of an element. -/
def isElementChar (c : Char) : Bool := isLetter c || ('0' ≤ c && c ≤ '9') || c == '-'

/-- A first character of the name of an attribute. -/
def isAttributeStart (c : Char) : Bool := isLetter c || c == '_' || c == ':'

/-- A character of the name of an attribute. -/
def isAttributeChar (c : Char) : Bool := isElementChar c || c == '_' || c == ':' || c == '.'

/-- A character of a value without quotes. -/
def isBareChar (c : Char) : Bool := 0x20 < c.toNat && !"\"'=<>`".toList.contains c

/-- The text behind the name of an element. -/
def element? : List Char → Option (List Char)
  | c :: s => if isLetter c then some (s.dropWhile isElementChar) else none
  | [] => none

/-- What may follow a value without quotes: the text behind the whole of it, or from a blank in
it. -/
def bareEnds : List Char → List (List Char)
  | [] => []
  | c :: s =>
    if isBareChar c then
      match s with
      | [] => [[]]
      | d :: _ => if isBareChar d then (if isBlank d then s :: bareEnds s else bareEnds s) else [s]
    else []

/-- What may follow a value. -/
def valueEnds : List Char → List (List Char)
  | '"' :: s => ((Text.cut '"' s).2.map fun r => [r]).getD []
  | '\'' :: s => ((Text.cut '\'' s).2.map fun r => [r]).getD []
  | s => bareEnds s

/-- What may follow a value with white space in front. -/
def spacedValueEnds : List Char → List (List Char)
  | [] => []
  | c :: s => valueEnds (c :: s) ++ (if isBlank c then spacedValueEnds s else [])

/-- What may follow an attribute with white space in front. -/
def attributeEnds (s : List Char) : List (List Char) :=
  match s, s.dropWhile isBlank with
  | b :: _, c :: r =>
    if isBlank b ∧ isAttributeStart c then
      let behind := r.dropWhile isAttributeChar
      match behind.dropWhile isBlank with
      | '=' :: v => behind :: spacedValueEnds v
      | _ => [behind]
    else []
  | _, _ => []

/-- What may follow attributes, at most `count` of them. -/
def attributesEnds : (count : Nat) → List (List Char) → List (List Char)
  | 0, found => found
  | count + 1, found =>
    match (found.flatMap attributeEnds).eraseDups with
    | [] => found
    | next => found ++ attributesEnds count next

/-- Is there nothing left but the end of an opening tag and white space? -/
def isOpenEnd (s : List Char) : Bool :=
  match s.dropWhile isBlank with
  | '/' :: '>' :: r => r.all isBlank
  | '>' :: r => r.all isBlank
  | _ => false

/-- Is there nothing left but the end of a closing tag and white space? -/
def isCloseEnd (s : List Char) : Bool :=
  match s.dropWhile isBlank with
  | '>' :: r => r.all isBlank
  | _ => false

/-- Does a line hold one tag and nothing else? -/
def isTagLine : List Char → Bool
  | '<' :: '/' :: s => ((element? s).map isCloseEnd).getD false
  | '<' :: s => ((element? s).map fun r => (attributesEnds r.length [r]).any isOpenEnd).getD false
  | _ => false

/-! ## The seven ways -/

/-- How a block of markup ends: behind a line that holds a certain text, or, if `closes` is none,
in front of an empty line; and whether it may follow a line of prose. -/
structure Start where
  closes : Option (List Char → Bool)
  interrupts : Bool

/-- Does the name of an element end here? -/
def isNameEnd (s : List Char) : Bool :=
  match s with
  | [] => true
  | '>' :: _ => true
  | c :: _ => isBlank c

/-- Does the name of a block element end here? -/
def isBlockNameEnd (s : List Char) : Bool :=
  match s with
  | '/' :: '>' :: _ => true
  | s => isNameEnd s

/-- Does a text begin with one of the names, ending as it has to? -/
def isNamed (names : List String) (ends : List Char → Bool) (s : List Char) : Bool :=
  names.any fun n => ((behindFolded? n.toList s).map ends).getD false

/-- Does a closing tag of a verbatim element begin here? -/
def isVerbatimEnd (s : List Char) : Bool :=
  match s with
  | '<' :: '/' :: r => isNamed verbatim (fun t => t.head? = some '>') r
  | _ => false

/-- The way in which a block of markup begins with a line, if it does. -/
def start? (s : List Char) : Option Start :=
  match s with
  | '<' :: r =>
    if isNamed verbatim isNameEnd r then some ⟨some (anywhere isVerbatimEnd), true⟩
    else if (behind? "!--".toList r).isSome then some ⟨some (holds "-->"), true⟩
    else if (behind? "?".toList r).isSome then some ⟨some (holds "?>"), true⟩
    else if (match r with | '!' :: c :: _ => isLetter c | _ => false) then
      some ⟨some (holds ">"), true⟩
    else if (behind? "![CDATA[".toList r).isSome then some ⟨some (holds "]]>"), true⟩
    else if isNamed elements isBlockNameEnd (match r with | '/' :: t => t | t => t) then
      some ⟨none, true⟩
    else if isTagLine s then some ⟨none, false⟩
    else none
  | _ => none

end DemoPages.Markdown.Html
