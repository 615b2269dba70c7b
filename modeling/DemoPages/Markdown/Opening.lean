import DemoPages.Markdown.Dialect
import DemoPages.Markdown.Html
import DemoPages.Markdown.Line
import DemoPages.Markdown.Table

/-!
# How blocks open

Whether a block of some kind opens on a line depends on the line, on the dialect and on where the
surrounding block has put the left margin. The same tests tell which blocks may open in the middle
of prose, of a quotation or of a list.
-/

namespace DemoPages.Markdown

open Text (isPad)

/-- What surrounds some lines. -/
structure Scope where
  dialect : Dialect
  /-- The column of the left margin. -/
  margin : Int := 0
  /-- The left margin around the innermost list item, negative outside of lists. -/
  outer : Int := -1
  /-- How many empty lines stand behind the lines. -/
  trailing : Nat := 0

namespace Scope

/-- Is the line indented so far that it would be code? -/
def isDeep (s : Scope) (l : Line) : Bool := s.dialect.blocks && 4 ≤ l.column - s.margin

/-! ## Fences, quotations, rules, headings -/

end Scope

/-- The opening of fenced code: its mark, the number of marks, and the text behind them. -/
structure Fence where
  mark : Char
  length : Nat
  info : List Char
  deriving DecidableEq, Repr

/-- The fence with which a text begins: three backticks or tildes or more. Backticks may not come
again behind backticks. -/
def Fence.ofChars? : List Char → Option Fence
  | c :: s =>
    let marks := s.takeWhile (· = c)
    let info := s.dropWhile (· = c)
    if (c = '\x60' ∨ c = '~') ∧ 2 ≤ marks.length ∧ ¬(c = '\x60' ∧ info.contains '\x60') then
      some ⟨c, marks.length + 1, info⟩
    else none
  | [] => none

/-- Does a text close the fence: as many marks or more, and nothing behind them? -/
def Fence.isClosedBy (f : Fence) (s : List Char) : Bool :=
  f.length ≤ (s.takeWhile (· = f.mark)).length && (s.dropWhile (· = f.mark)).all isPad

/-- Is this a rule: three stars, hyphens or low lines or more, with nothing but blanks between? -/
def isRule : List Char → Bool
  | c :: s =>
    (c == '*' || c == '-' || c == '_') && s.all (fun d => d == c || isPad d) &&
      2 ≤ (s.filter (· == c)).length
  | [] => false

/-- Is this a heading: one to six number signs, and a blank or nothing behind them? -/
def isHeading (s : List Char) : Bool :=
  let marks := s.takeWhile (· = '#')
  let rest := s.dropWhile (· = '#')
  1 ≤ marks.length && marks.length ≤ 6 && (rest.head?.map isPad).getD true

/-- Is this the underline of a heading: equals signs or hyphens, and blanks? -/
def isUnderline : List Char → Bool
  | c :: s => (c == '=' || c == '-') && (s.dropWhile (· = c)).all isPad
  | [] => false

/-! ## List items -/

/-- The marker of a list item: its last character, its length, its number if it has one. -/
structure Marker where
  mark : Char
  length : Nat
  number : Option Nat
  deriving DecidableEq, Repr

/-- Does nothing, a space or a tab stand here? -/
def isMarkerEnd (s : List Char) : Bool := (s.head?.map isPad).getD true

/-- The number of a list item: one to nine digits and a full stop or a parenthesis. -/
def Marker.ordered? (s : List Char) : Option Marker :=
  let isDigit (c : Char) : Bool := '0' ≤ c && c ≤ '9'
  let digits := s.takeWhile isDigit
  match s.dropWhile isDigit with
  | c :: rest =>
    if digits ≠ [] ∧ digits.length ≤ 9 ∧ (c = '.' ∨ c = ')') ∧ isMarkerEnd rest then
      some ⟨c, digits.length + 1, some (digits.foldl (fun n d => 10 * n + (d.toNat - 0x30)) 0)⟩
    else none
  | [] => none

/-- The bullet of a list item. -/
def Marker.bullet? : List Char → Option Marker
  | c :: rest =>
    if (c = '*' ∨ c = '-' ∨ c = '+') ∧ isMarkerEnd rest then some ⟨c, 1, none⟩ else none
  | [] => none

/-- The marker with which a text begins. -/
def Marker.ofChars? (s : List Char) : Option Marker := Marker.ordered? s <|> Marker.bullet? s

/-- Do two items belong to one list? -/
def Marker.sameList (a b : Marker) : Bool := a.mark == b.mark && a.number.isSome == b.number.isSome

namespace Scope

/-- Fenced code opens here. -/
def fence? (s : Scope) (l : Line) : Option Fence :=
  if s.isDeep l then none else Fence.ofChars? l.text

/-- A quotation opens here. -/
def isQuote (s : Scope) (l : Line) : Bool := !s.isDeep l && l.text.head? == some '>'

/-- A list opens here. Inside prose, a numbered list has to begin with one, and the item may not be
empty. -/
def marker? (s : Scope) (inProse : Bool) (l : Line) : Option Marker :=
  if s.isDeep l ∨ (0 ≤ s.outer ∧ 4 ≤ l.column - s.outer ∧ l.column < s.margin) then none
  else
    match Marker.ofChars? l.text with
    | none => none
    | some m =>
      if inProse ∧ s.margin ≤ l.column ∧
          ((m.number.getD 1) ≠ 1 ∨ (l.text.drop m.length).all isPad) then none
      else some m

/-- A block of markup opens here. -/
def html? (s : Scope) (l : Line) : Option Html.Start :=
  if s.isDeep l ∨ ¬s.dialect.markup then none else Html.start? l.text

/-- The number of columns of the table that opens here. -/
def table? (s : Scope) (l : Line) (rest : List Line) : Option Nat :=
  match rest with
  | [] => none
  | next :: _ =>
    if s.dialect.tables ∧ s.margin ≤ next.column ∧ ¬s.isDeep next ∧ ¬s.isDeep l then
      Table.columns? l.text next.text
    else none

/-! ## What may open in the middle of something else -/

/-- Does a block open here that ends a list? -/
def endsList (s : Scope) (l : Line) : Bool :=
  s.dialect.blocks && ((s.fence? l).isSome || s.isQuote l || (!s.isDeep l && isRule l.text))

/-- Does a block open here that ends a quotation or a table? Inside prose the rule for lists is
stricter. -/
def endsQuote (s : Scope) (l : Line) (inProse : Bool) : Bool :=
  s.endsList l ||
    (s.dialect.blocks &&
      ((s.marker? inProse l).isSome || ((s.html? l).map Html.Start.interrupts).getD false ||
        (!s.isDeep l && isHeading l.text)))

/-- Does a block open here that ends prose? -/
def endsProse (s : Scope) (l : Line) (rest : List Line) : Bool :=
  (s.table? l rest).isSome || s.endsQuote l true

/-- Does a block open here that ends the definition of a link? -/
def endsDefinition (s : Scope) (l : Line) (rest : List Line) : Bool :=
  (s.table? l rest).isSome || s.endsQuote l false

/-- May prose go on with this line, whatever opens there? -/
def isLazy (s : Scope) (l : Line) : Bool := 3 < l.column - s.margin || l.column < 0

end Scope

end DemoPages.Markdown
