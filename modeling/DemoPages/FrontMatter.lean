import DemoPages.Fault
import DemoPages.Node
import DemoPages.Text.Blank

/-!
# Front matter

A text may begin with a block between two lines of three hyphens. `split` takes it off, without
reading what it says; `directive` drops the front matter of a page and reads from it how many
columns the page is laid out in.
-/

namespace DemoPages.FrontMatter

open Text (isBlank)

/-! ## Taking it off -/

/-- What follows each line feed of the white space at the start of a text, the last one first. -/
def afterLineFeeds : List Char → List (List Char)
  | [] => []
  | c :: s =>
    if isBlank c then afterLineFeeds s ++ (if c = '\n' then [s] else []) else []

/-- The text behind three hyphens. -/
def afterMarker? : List Char → Option (List Char)
  | '-' :: '-' :: '-' :: s => some s
  | _ => none

/-- The text behind a closing line: three hyphens, and white space up to its last line feed. -/
def afterClosing? (s : List Char) : Option (List Char) :=
  (afterMarker? s).bind fun r => (afterLineFeeds r).head?

/-- The text in front of the first line feed that a closing line follows, and the text behind that
line. -/
def close? : List Char → Option (List Char × List Char)
  | [] => none
  | c :: s =>
    match if c = '\n' then afterClosing? s else none with
    | some body => some ([], body)
    | none => (close? s).map fun fb => (c :: fb.1, fb.2)

/-- The front matter of a text, if it has one, and the rest. The block begins behind the last line
feed of the white space that follows the opening hyphens, or behind an earlier one if no closing
line is found so. -/
def split (s : List Char) : Option (List Char) × List Char :=
  match (afterMarker? s).bind fun r => (afterLineFeeds r).findSome? close? with
  | some (front, body) => (some front, body)
  | none => (none, s)

example : split "---\na\n---\nb".toList = (some "a".toList, "b".toList) := by decide

/-! ## The number of columns -/

/-- The text behind `word`, if it begins so. -/
def after? : (word : List Char) → List Char → Option (List Char)
  | [], s => some s
  | w :: ws, c :: s => if w = c then after? ws s else none
  | _ :: _, [] => none

/-- The digits at the start of a text behind `columns:` and white space. -/
def digitsHere? (s : List Char) : Option (List Char) :=
  (after? "columns:".toList s).bind fun r =>
    match (r.dropWhile isBlank).takeWhile Text.isDigit with
    | [] => none
    | ds => some ds

/-- The digits of the first setting of the columns in a text. -/
def digits? : List Char → Option (List Char)
  | [] => none
  | c :: s =>
    match digitsHere? (c :: s) with
    | some ds => some ds
    | none => digits? s

/-- The columns that a front matter asks for, `columns` if it is silent. -/
def columnsOr (columns : Nat) (value : Option String) : Except Fault Nat :=
  match digits? (value.getD "").toList with
  | none => .ok columns
  | some ds =>
    match Text.readNumeral ds with
    | .ok n => .ok n
    | .error count => .error (.tooManyDigits count)

/-- The number of columns of a page: what the last front matter asks for that asks for any, or
`columns`. -/
def columnsFrom (columns : Nat) : List Node → Except Fault Nat
  | [] => .ok columns
  | .frontMatter value :: ns =>
    match columnsOr columns value with
    | .ok n => columnsFrom n ns
    | .error f => .error f
  | _ :: ns => columnsFrom columns ns

/-- The blocks of a page without its front matter, and its number of columns, one by default. -/
def directive (blocks : List Node) : Except Fault (List Node × Nat) :=
  (columnsFrom 1 blocks).map fun n => (blocks.filter fun b => !b.isFrontMatter, n)

end DemoPages.FrontMatter
