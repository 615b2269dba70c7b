import DemoPages.Markdown.Html

/-!
# Definitions of links

A line that begins with a label in brackets and a colon may define a link: a destination follows,
and perhaps a title. The parts may stand on different lines. A definition makes no block; what
matters is whether there is one, and how many lines it takes.
-/

namespace DemoPages.Markdown.Reference

open Text (isPad isBlank trim)

/-- A place in some lines: what is left of the present line, which ends with a line feed, the lines
behind it, and how many lines are behind the reader. -/
structure Spot where
  line : List Char
  later : List (List Char)
  passed : Nat
  deriving DecidableEq, Repr

/-! ## The label -/

/-- How the reading of a label goes on at the end of a line. -/
inductive LabelEnd where
  | closed (rest : List Char)
  | refused
  | more

/-- Reads a label up to the end of the line; the first part of the answer says whether anything
but white space was read. -/
def labelLine : List Char → Bool × LabelEnd
  | [] => (false, .more)
  | '[' :: _ => (false, .refused)
  | ']' :: s => (false, .closed s)
  | '\\' :: _ :: s => (true, (labelLine s).2)
  | c :: s => (!isBlank c || (labelLine s).1, (labelLine s).2)

/-- Reads a label, which has to hold something, and its colon. -/
def label? (seen : Bool) (line : List Char) : (later : List (List Char)) → Nat → Option Spot
  | later, passed =>
    match labelLine line with
    | (_, .refused) => none
    | (here, .closed (':' :: rest)) => if seen || here then some ⟨rest, later, passed⟩ else none
    | (_, .closed _) => none
    | (here, .more) =>
      match later with
      | [] => none
      | next :: later => label? (seen || here) next later (passed + 1)

/-! ## White space between the parts -/

/-- The next place that is neither a space, a tab nor a line feed. -/
def skipGap (line : List Char) : (later : List (List Char)) → Nat → Spot
  | later, passed =>
    match line.dropWhile isPad, later with
    | '\n' :: _, next :: later => skipGap next later (passed + 1)
    | '\n' :: _, [] => ⟨[], [], passed⟩
    | rest, later => ⟨rest, later, passed⟩

/-! ## The destination -/

/-- A destination in angle brackets, behind the first of them. -/
def bracketed? : List Char → Option (List Char × List Char)
  | '>' :: s => some ([], s)
  | '<' :: _ => none
  | '\n' :: _ => none
  | '\\' :: c :: s => (bracketed? s).map fun dr => ('\\' :: c :: dr.1, dr.2)
  | c :: s => (bracketed? s).map fun dr => (c :: dr.1, dr.2)
  | [] => none

/-- A destination without brackets, inside `level` parentheses. -/
def bare? : (level : Nat) → List Char → Option (List Char × List Char)
  | level, [] => if level = 0 then some ([], []) else none
  | level, '\\' :: c :: s =>
    if c = ' ' then (if level = 0 then some ([], '\\' :: c :: s) else none)
    else (bare? level s).map fun dr => ('\\' :: c :: dr.1, dr.2)
  | level, c :: s =>
    if c.toNat ≤ 0x20 ∨ c.toNat = 0x7F then (if level = 0 then some ([], c :: s) else none)
    else if c = '(' then
      if 32 ≤ level then none else (bare? (level + 1) s).map fun dr => (c :: dr.1, dr.2)
    else if c = ')' then
      match level with
      | 0 => some ([], c :: s)
      | level + 1 => (bare? level s).map fun dr => (c :: dr.1, dr.2)
    else (bare? level s).map fun dr => (c :: dr.1, dr.2)

/-- A destination, and what is left of the line. -/
def destination? : List Char → Option (List Char × List Char)
  | '<' :: s => bracketed? s
  | s =>
    match bare? 0 s with
    | some ([], _) => none
    | found => found

/-! ## What a destination may lead to -/

/-- A punctuation character of ASCII. -/
def isPunctuation (c : Char) : Bool := "!\"#$%&'()*+,-./:;<=>?@[\\]^_\x60\x7b|\x7d~".toList.contains c

/-- The texts with a name that can stand in front of, or inside, the scheme of a destination. -/
def namedTexts : List (String × String) :=
  [("colon", ":"), ("sol", "/"), ("semi", ";"), ("Tab", "\t"), ("NewLine", "\n"),
    ("nbsp", "\u00a0"), ("NonBreakingSpace", "\u00a0"), ("ensp", "\u2002"), ("emsp", "\u2003"),
    ("emsp13", "\u2004"), ("emsp14", "\u2005"), ("numsp", "\u2007"), ("puncsp", "\u2008"),
    ("thinsp", "\u2009"), ("ThinSpace", "\u2009"), ("hairsp", "\u200a"), ("VeryThinSpace", "\u200a"),
    ("MediumSpace", "\u205f"), ("ThickSpace", "\u205f\u200a")]

/-- The value of a digit in a base up to sixteen. -/
def digitIn? (base : Nat) (c : Char) : Option Nat :=
  let n := c.toNat
  let value :=
    if 0x30 ≤ n ∧ n ≤ 0x39 then n - 0x30
    else if 0x41 ≤ n ∧ n ≤ 0x46 then n - 0x37
    else if 0x61 ≤ n ∧ n ≤ 0x66 then n - 0x57
    else base
  if value < base then some value else none

/-- The number that digits of a base denote, if there are one to eight of them. -/
def numberIn? (base : Nat) (ds : List Char) : Option Nat :=
  if ds = [] ∨ 8 < ds.length then none
  else ds.foldlM (fun n c => (digitIn? base c).map fun d => base * n + d) 0

/-- May a character be given by this number? Control characters are left out, but for some white
space, and so are halves of characters and numbers that no character has. -/
def isNumber (n : Nat) : Bool :=
  !((0xD800 ≤ n && n ≤ 0xDFFF) || (0xFDD0 ≤ n && n ≤ 0xFDEF) || n % 0x10000 == 0xFFFF ||
    n % 0x10000 == 0xFFFE || n ≤ 0x08 || n == 0x0B || (0x0E ≤ n && n ≤ 0x1F) ||
    (0x7F ≤ n && n ≤ 0x9F) || 0x10FFFF < n)

/-- The character that a number between `&#` and `;` stands for. -/
def numberedChar? (ds : List Char) : Option Char :=
  let n? := match ds with
    | 'x' :: r => numberIn? 16 r
    | 'X' :: r => numberIn? 16 r
    | r => numberIn? 10 r
  (n?.filter isNumber).map Char.ofNat

/-- What stands for the text between `&` and `;`, and the text behind. -/
def entity? (s : List Char) : Option (List Char × List Char) :=
  match Text.cut ';' s with
  | (_, none) => none
  | (name, some rest) =>
    match name with
    | '#' :: ds => (numberedChar? ds).map fun c => ([c], rest)
    | name => (namedTexts.lookup (String.ofList name)).map fun text => (text.toList, rest)

/-- The text that a destination means, reading at most `count` characters: a backslash makes
punctuation stand for itself, and characters may be given by number or name. -/
def unescape : (count : Nat) → List Char → List Char
  | count + 1, '\\' :: c :: s =>
    if isPunctuation c then c :: unescape count s else '\\' :: unescape count (c :: s)
  | count + 1, '&' :: s =>
    match entity? s with
    | some (text, rest) => text ++ unescape count rest
    | none => '&' :: unescape count s
  | count + 1, c :: s => c :: unescape count s
  | _, s => s

/-- May a link lead there? Scripts, files and inline data are refused, but for inline pictures. -/
def isAllowed (destination : List Char) : Bool :=
  let s := (trim (unescape destination.length destination)).map fun c =>
    if 'A' ≤ c ∧ c ≤ 'Z' then Char.ofNat (c.toNat + 32) else c
  let begins (word : String) : Bool := (Html.behind? word.toList s).isSome
  if ["vbscript:", "javascript:", "file:", "data:"].any begins then
    ["data:image/gif;", "data:image/png;", "data:image/jpeg;", "data:image/webp;"].any begins
  else true

/-! ## The title -/

/-- How the reading of a title goes on at the end of a line. -/
inductive TitleEnd where
  | closed (rest : List Char)
  | refused
  | more

/-- Reads a title up to its closing mark or the end of the line. -/
def titleLine (mark : Char) : List Char → TitleEnd
  | [] => .more
  | c :: s =>
    if c = mark then .closed s
    else if c = '(' ∧ mark = ')' then .refused
    else
      match c, s with
      | '\\', _ :: s => titleLine mark s
      | _, s => titleLine mark s

/-- The text behind a title that began on an earlier line. -/
def titleOn? (mark : Char) : (later : List (List Char)) → Nat → Option Spot
  | [], _ => none
  | line :: later, passed =>
    match titleLine mark line with
    | .closed rest => some ⟨rest, later, passed + 1⟩
    | .refused => none
    | .more => titleOn? mark later (passed + 1)

/-- The mark that closes a title, by the mark that opens it. -/
def closing? : Char → Option Char
  | '"' => some '"'
  | '\'' => some '\''
  | '(' => some ')'
  | _ => none

/-- A title: the place behind it, and whether it is empty. There has to be white space in front of
it if it ends on its first line. -/
def title? (spaced : Bool) (s : Spot) : Option (Spot × Bool) :=
  match s.line with
  | [] => none
  | c :: r =>
    match closing? c with
    | none => none
    | some mark =>
      match titleLine mark r with
      | .closed rest => if spaced then some (⟨rest, s.later, s.passed⟩, r.head? = some mark) else none
      | .refused => none
      | .more => (titleOn? mark s.later s.passed).map fun s => (s, false)

/-! ## A definition -/

/-- Is nothing but spaces and tabs left of the line? -/
def isLineEnd (line : List Char) : Bool :=
  match line.dropWhile isPad with
  | [] => true
  | c :: _ => c = '\n'

/-- The number of lines that a definition takes, of those given; each ends with a line feed, and
the first begins with the bracket. -/
def lines? (line : List Char) (later : List (List Char)) : Option Nat :=
  match line with
  | '[' :: line => do
    let s ← label? false line later 0
    let s := skipGap s.line s.later s.passed
    let (destination, rest) ← destination? s.line
    if isAllowed destination then
      let gap := skipGap rest s.later s.passed
      let spaced := gap.passed ≠ s.passed ∨ gap.line.length ≠ rest.length
      let plain : Option Nat := if isLineEnd rest then some (s.passed + 1) else none
      match title? spaced gap with
      | none => plain
      | some (t, empty) =>
        if isLineEnd t.line then some (t.passed + 1) else if empty then none else plain
    else none
  | _ => none

end DemoPages.Markdown.Reference
