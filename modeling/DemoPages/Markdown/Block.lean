import DemoPages.Markdown.Opening
import DemoPages.Markdown.Reference

/-!
# Blocks

`Rules.blocks` goes through some lines from the top, and asks rules what opens on the next line that
is not empty. Only the outermost blocks are told; those inside quotations and list items matter for
where the outer ones end, so the rules of a dialect, `Dialect.rules`, go through the lines of a
container in the same way, less deep. A block says which lines it takes, and fenced code also what
stands behind and between its fences.
-/

namespace DemoPages.Markdown

open Text (isPad)

/-- The kinds of blocks. -/
inductive Kind where
  | paragraph
  | heading
  | code
  | fence
  | quote
  | rule
  | bulletList
  | orderedList
  | markup
  | table
  deriving DecidableEq, Repr

/-- A block: its lines, counted from the first of the text, and for fenced code the text behind
the opening fence and the text between the fences. -/
structure Block where
  kind : Kind
  first : Nat
  stop : Nat
  info : List Char := []
  content : List Char := []
  deriving DecidableEq, Repr

/-- What opens on a line: a block of some kind, or the definition of a link, and how many lines it
takes. -/
structure Found where
  kind : Option Kind
  used : Nat
  info : List Char := []
  content : List Char := []

/-- Rules for blocks: what opens on a line that is not empty, given the lines behind it. -/
abbrev Rules : Type := Line → List Line → Found

/-- How many lines the blocks of a container take. -/
abbrev Inside : Type := Scope → List Line → Nat

namespace Scope

/-! ## Blocks without blocks inside -/

/-- The lines in front of the closing fence, or of the end of the container, and whether there is
a closing fence. -/
def fenced (s : Scope) (f : Fence) : List Line → List Line × Bool
  | [] => ([], false)
  | l :: ls =>
    if !l.isEmpty && l.column < s.margin then ([], false)
    else if !s.isDeep l && f.isClosedBy l.text then ([], true)
    else (l :: (fenced s f ls).1, (fenced s f ls).2)

/-- Fenced code. As much indentation as the opening fence has is taken from each line. -/
def fenceBlock? (s : Scope) (l : Line) (rest : List Line) : Option Found :=
  (s.fence? l).map fun f =>
    let (inner, closed) := s.fenced f rest
    { kind := some .fence
      used := 1 + inner.length + (if closed then 1 else 0)
      info := f.info
      content := inner.flatMap fun i => i.outdented l.column.toNat ++ ['\n'] }

/-- The number of lines up to the last deep one, through empty lines. -/
def deepLines (s : Scope) : List Line → Nat
  | [] => 0
  | l :: ls =>
    let n := deepLines s ls
    if l.isEmpty then (if n = 0 then 0 else n + 1) else if s.isDeep l then n + 1 else 0

/-- Indented code. -/
def codeBlock? (s : Scope) (l : Line) (rest : List Line) : Option Found :=
  if s.isDeep l then some { kind := some .code, used := 1 + s.deepLines rest } else none

/-- A rule. -/
def ruleBlock? (s : Scope) (l : Line) : Option Found :=
  if !s.isDeep l && isRule l.text then some { kind := some .rule, used := 1 } else none

/-- A heading marked by number signs. -/
def headingBlock? (s : Scope) (l : Line) : Option Found :=
  if !s.isDeep l && isHeading l.text then some { kind := some .heading, used := 1 } else none

/-- The number of lines that a block of markup takes behind its first one, which does not end
it. -/
def markupLines (s : Scope) (start : Html.Start) : List Line → Nat
  | [] => 0
  | l :: ls =>
    if l.column < s.margin then 0
    else
      match start.closes with
      | none => if l.isEmpty then 0 else markupLines s start ls + 1
      | some closes => if closes l.text then 1 else markupLines s start ls + 1

/-- A block of markup. -/
def markupBlock? (s : Scope) (l : Line) (rest : List Line) : Option Found :=
  (s.html? l).map fun start =>
    let closed := (start.closes.map fun closes => closes l.text).getD false
    { kind := some .markup, used := 1 + (if closed then 0 else s.markupLines start rest) }

/-- The number of rows of a table. `filled` counts the cells filled in so far. -/
def tableRows (s : Scope) (columns : Nat) : (filled : Int) → List Line → Nat
  | _, [] => 0
  | filled, l :: ls =>
    let filled := filled + (columns - (Table.cells l.text).length)
    if l.column < s.margin ∨ s.endsQuote l false ∨ Text.trim l.text = [] ∨ s.isDeep l ∨
        Table.maxFilled < filled then 0
    else tableRows s columns filled ls + 1

/-- A table. -/
def tableBlock? (s : Scope) (l : Line) (rest : List Line) : Option Found :=
  (s.table? l rest).map fun columns =>
    { kind := some .table, used := 2 + s.tableRows columns 0 (rest.drop 1) }

/-- The lines that the definition of a link may go on with. -/
def definitionLines (s : Scope) : List Line → List (List Char)
  | [] => []
  | l :: ls =>
    if l.isEmpty ∨ (¬s.isLazy l ∧ s.endsDefinition l ls) then []
    else (l.text ++ ['\n']) :: definitionLines s ls

/-- The definition of a link, which makes no block. -/
def definition? (s : Scope) (l : Line) (rest : List Line) : Option Found :=
  if s.isDeep l then none
  else
    (Reference.lines? (l.text ++ ['\n']) (s.definitionLines rest)).map fun n =>
      { kind := none, used := n }

/-- The number of lines up to the underline of a heading, through prose. -/
def underline? (s : Scope) : List Line → Option Nat
  | [] => none
  | l :: ls =>
    if l.isEmpty then none
    else if !(3 < l.column - s.margin) && s.margin ≤ l.column && isUnderline l.text then some 1
    else if s.isLazy l || !s.endsProse l ls then (underline? s ls).map (· + 1)
    else none

/-- A heading that is underlined. -/
def underlinedBlock? (s : Scope) (l : Line) (rest : List Line) : Option Found :=
  if s.isDeep l then none
  else (s.underline? rest).map fun n => { kind := some .heading, used := 1 + n }

/-- The number of lines that prose goes on for. -/
def proseLines (s : Scope) : List Line → Nat
  | [] => 0
  | l :: ls =>
    if l.isEmpty then 0
    else if s.isLazy l || !s.endsProse l ls then proseLines s ls + 1
    else 0

/-- A paragraph. -/
def paragraph (s : Scope) (rest : List Line) : Found :=
  { kind := some .paragraph, used := 1 + s.proseLines rest }

/-! ## Quotations -/

/-- A quoted line without its mark, one column behind which a blank is taken away too. -/
def unquote (l : Line) : Line :=
  let start := l.column + 1
  let inner (initial : Int) (tab : Nat) (s : List Char) (blank : Bool) : Line :=
    { text := s.dropWhile isPad
      column := Line.advance (l.shift + tab) initial (s.takeWhile isPad) - initial
      shift := (start + (if blank then 1 else 0)).toNat }
  match l.text.drop 1 with
  | ' ' :: s => inner (start + 1) 0 s true
  | '\t' :: s =>
    if (start + l.shift) % 4 = 3 then inner (start + 1) 0 s true else inner start 1 ('\t' :: s) true
  | s => inner start 0 s false

/-- The lines of a quotation behind its first one: those with a mark, and those that prose may go
on with. -/
def quotedLines (s : Scope) : (afterEmpty : Bool) → List Line → List Line
  | _, [] => []
  | afterEmpty, l :: ls =>
    if l.isEmpty then []
    else if l.text.head? = some '>' ∧ s.margin ≤ l.column then
      unquote l :: quotedLines s (unquote l).isEmpty ls
    else if afterEmpty ∨ s.endsQuote l false then []
    else { l with column := -1 } :: quotedLines s afterEmpty ls

/-- The number of empty lines that follow some lines of a container. -/
def emptyBehind (s : Scope) (ls : List Line) : Nat :=
  let n := (ls.takeWhile Line.isEmpty).length
  if n = ls.length then n + s.trailing else n

/-- A quotation. -/
def quoteBlock? (s : Scope) (inside : Inside) (l : Line) (rest : List Line) : Option Found :=
  if s.isQuote l then
    let first := unquote l
    let lines := first :: s.quotedLines first.isEmpty rest
    let trailing := s.emptyBehind (rest.drop (lines.length - 1))
    some { kind := some .quote, used := inside { s with margin := 0, trailing } lines }
  else none

/-! ## Lists -/

/-- A line of a list item without its marker, and the left margin of the item. Behind five columns
of blanks or more, all but one belong to the item. -/
def unmark (m : Marker) (l : Line) : Line × Int :=
  let initial := l.column + m.length
  let behind := l.text.drop m.length
  let text := behind.dropWhile isPad
  let column := Line.advance l.shift initial (behind.takeWhile isPad)
  let gap := if text = [] ∨ 4 < column - initial then 1 else column - initial
  ({ text, column, shift := l.shift }, initial + gap)

/-- The number of lines of a list item. One that begins with an empty line ends with it, or with
the next one if that is empty. -/
def itemLines (s : Scope) (inside : Inside) (m : Marker) (l : Line) (rest : List Line) : Nat :=
  let (first, margin) := unmark m l
  if first.isEmpty && (rest.head?.map Line.isEmpty).getD true then min 2 (1 + rest.length)
  else inside { s with margin, outer := s.margin } (first :: rest)

/-- The number of lines of at most `count` items of a list, the first of which has the marker
`m`. -/
def listLines (s : Scope) (inside : Inside) : (count : Nat) → Marker → List Line → Nat
  | count + 1, m, l :: rest =>
    let used := s.itemLines inside m l rest
    match rest.drop (used - 1) with
    | [] => used
    | l :: rest =>
      if l.column < s.margin ∨ s.isDeep l ∨ s.endsList l then used
      else
        match Marker.ofChars? l.text with
        | none => used
        | some m' => if m.sameList m' then used + listLines s inside count m' (l :: rest) else used
  | _, _, _ => 0

/-- A list. -/
def listBlock? (s : Scope) (inside : Inside) (l : Line) (rest : List Line) : Option Found :=
  (s.marker? false l).map fun m =>
    { kind := some (if m.number.isSome then .orderedList else .bulletList)
      used := s.listLines inside (1 + rest.length) m (l :: rest) }

/-! ## All blocks -/

/-- The rules for blocks; `quoted` and `listed` read the lines of quotations and of list items. -/
def firstBlock (s : Scope) (quoted listed : Inside) : Rules := fun l rest =>
  if s.dialect.blocks then
    (s.tableBlock? l rest <|> s.codeBlock? l rest <|> s.fenceBlock? l rest <|>
      s.quoteBlock? quoted l rest <|> s.ruleBlock? l <|> s.listBlock? listed l rest <|>
      s.definition? l rest <|> s.markupBlock? l rest <|> s.headingBlock? l <|>
      s.underlinedBlock? l rest).getD (s.paragraph rest)
  else s.paragraph rest

end Scope

/-- The block that is found at a line. -/
def Found.block? (f : Found) (first : Nat) : Option Block :=
  f.kind.map fun kind => { kind, first, stop := first + f.used, info := f.info, content := f.content }

/-- At most `count` blocks of some lines, the first of which is the line `base` of the text; and the
number of the line behind them. Nothing opens left of the margin, and `trailing` empty lines stand
behind the lines. -/
def blocksFrom (rules : Rules) (margin : Int) (trailing : Nat) :
    (count : Nat) → (base : Nat) → List Line → List Block × Nat
  | 0, base, _ => ([], base)
  | _, base, [] => ([], base)
  | count + 1, base, l :: ls =>
    let empty := ((l :: ls).takeWhile Line.isEmpty).length
    let start := base + empty
    match (l :: ls).dropWhile Line.isEmpty with
    | [] => ([], start + trailing)
    | l :: rest =>
      if l.column < margin then ([], start)
      else
        let found := rules l rest
        let behind := rest.drop (found.used - 1)
        let gap := if (behind.head?.map Line.isEmpty).getD false then 1 else 0
        let (more, stop) :=
          blocksFrom rules margin trailing count (start + found.used + gap) (behind.drop gap)
        ((found.block? start).toList ++ more, stop)

/-- The number of lines up to the end where blocks may not be nested deeper. -/
def tooDeep : Inside := fun s ls =>
  match ls.dropWhile Line.isEmpty with
  | [] => ls.length + s.trailing
  | l :: _ => if l.column < s.margin then (ls.takeWhile Line.isEmpty).length else ls.length

/-- The number of lines that the blocks of a container take by these rules. -/
def Scope.linesTaken (s : Scope) (rules : Rules) (ls : List Line) : Nat :=
  (blocksFrom rules s.margin s.trailing ls.length 0 ls).2

/-- The number of lines that blocks take, nested to the depth `room`. A list takes two levels: one
for itself and one for the item. -/
def inside : (room : Nat) → Inside
  | 0 => tooDeep
  | 1 => fun s => s.linesTaken (s.firstBlock tooDeep tooDeep)
  | room + 2 => fun s => s.linesTaken (s.firstBlock (inside (room + 1)) (inside room))

/-- The rules of a dialect for the outermost blocks. -/
def Dialect.rules (d : Dialect) : Rules :=
  Scope.firstBlock { dialect := d } (inside (d.depth - 1)) (inside (d.depth - 2))

/-- The blocks of some lines by rules. -/
def Rules.blocks (rules : Rules) (ls : List Line) : List Block :=
  (blocksFrom rules 0 0 ls.length 0 ls).1

end DemoPages.Markdown
