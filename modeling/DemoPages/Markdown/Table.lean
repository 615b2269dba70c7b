import DemoPages.Markdown.Line

/-!
# Tables

A table begins with a row of headings and a row that rules off its columns; both have the same
number of cells. The rows that follow may have any number of cells, but all the cells that have to
be filled in, taken together, have a limit.
-/

namespace DemoPages.Markdown.Table

open Text (isPad trim)

/-- The cells of a row: cut at each bar without a backslash in front. -/
def cut : (escaped : Bool) → List Char → List (List Char)
  | _, [] => [[]]
  | escaped, c :: s =>
    if c = '|' ∧ escaped = false then [] :: cut false s
    else Text.consPiece c (cut (c = '\\') s)

/-- The list without an empty text at its start. -/
def dropFirstEmpty : List (List Char) → List (List Char)
  | [] :: r => r
  | r => r

/-- The list without an empty text at its end. -/
def dropLastEmpty (cells : List (List Char)) : List (List Char) :=
  if cells.getLast? = some [] then cells.dropLast else cells

/-- The cells of a row that may have bars at its ends. -/
def cells (row : List Char) : List (List Char) :=
  dropLastEmpty (dropFirstEmpty (cut false (trim row)))

/-- Does a cell rule off a column: hyphens, perhaps with a colon at either end? -/
def isRuler (cell : List Char) : Bool :=
  let inner := match cell with
    | ':' :: r => r
    | r => r
  match inner.dropWhile (· = '-') with
  | [] => inner ≠ []
  | [':'] => inner ≠ [':']
  | _ => false

/-- A character of the row that rules off the columns. -/
def isRulerChar (c : Char) : Bool := c == '|' || c == '-' || c == ':'

/-- The number of columns that a row rules off, if it is such a row. Only the first and the last
piece between bars may be empty. -/
def rulers? (row : List Char) : Option Nat :=
  match row with
  | a :: b :: r =>
    if isRulerChar a ∧ (isRulerChar b ∨ isPad b) ∧ ¬(a = '-' ∧ isPad b) ∧
        r.all fun c => isRulerChar c || isPad c then
      let pieces := (Text.split '|' row).map trim
      let inner := dropLastEmpty (dropFirstEmpty pieces)
      if inner.all isRuler then some inner.length else none
    else none
  | _ => none

/-- The number of columns of the table that begins with these two rows, if there is one. -/
def columns? (heading ruler : List Char) : Option Nat :=
  match rulers? ruler with
  | none => none
  | some n =>
    let row := cells heading
    if (trim heading).contains '|' ∧ row ≠ [] ∧ row.length = n then some n else none

/-- The most cells that are filled in. -/
def maxFilled : Int := 0x10000

example : columns? "| a | b |".toList "|---|:-:|".toList = some 2 := by decide

end DemoPages.Markdown.Table
