import DemoPages.Keyed
import DemoPages.Yaml.Value

/-!
# A place in a configuration file

The reader of a configuration file remembers the text in front of it, its line and column, and the
values that were given a label. What it reads here are single things: white space, scalars with
and without quotes, and blocks of text.
-/

namespace DemoPages.Yaml

/-- The text in front of the reader, its column and line, and what was read so far: the labelled
values, the first scalar without a value, and whether there was half a character between quotes. -/
structure Cursor where
  rest : List Char
  column : Nat := 0
  line : Nat := 0
  /-- Is there nothing but spaces on this line so far? -/
  bare : Bool := true
  labels : Keyed String Yaml := {}
  trouble : Option Fault := none
  broken : Bool := false

/-- A step of the reader. -/
abbrev Reader (α : Type) : Type := StateT Cursor (Except Fault) α

/-- Is there a space, a tab or the end of a line or of the text here? -/
def isGap : List Char → Bool
  | [] => true
  | c :: _ => c == ' ' || c == '\t' || c == '\n'

namespace Cursor

/-- One character on. A byte order mark takes no room on its line. -/
def next (k : Cursor) : Cursor :=
  match k.rest with
  | [] => k
  | '\n' :: s => { k with rest := s, column := 0, line := k.line + 1, bare := true }
  | ' ' :: s => { k with rest := s, column := k.column + 1 }
  | '\ufeff' :: s => { k with rest := s }
  | _ :: s => { k with rest := s, column := k.column + 1, bare := false }

/-- Some characters on. -/
def skip : (count : Nat) → Cursor → Cursor
  | 0, k => k
  | count + 1, k => skip count k.next

/-- Past all characters that satisfy `p`. -/
def skipWhile (p : Char → Bool) (k : Cursor) : Cursor := k.skip (k.rest.takeWhile p).length

/-- Past spaces, comments and line ends, at most `count` of them. -/
def skipGaps : (count : Nat) → Cursor → Cursor
  | 0, k => k
  | count + 1, k =>
    match k.rest with
    | ' ' :: _ => skipGaps count k.next
    | '\n' :: _ => skipGaps count k.next
    | '#' :: _ => skipGaps count (k.skipWhile (· ≠ '\n'))
    | _ => k

/-- Past all spaces, comments and line ends. -/
def skipAllGaps (k : Cursor) : Cursor := k.skipGaps k.rest.length

/-- Is this the line that begins or ends a document? -/
def isEdge (k : Cursor) : Bool :=
  k.column == 0 &&
    match k.rest with
    | '-' :: '-' :: '-' :: s => isGap s
    | '.' :: '.' :: '.' :: s => isGap s
    | _ => false

/-- Is this the end of a document? -/
def isEnd (k : Cursor) : Bool := k.rest.isEmpty || k.isEdge

end Cursor

/-! ## Line ends inside scalars -/

/-- The text for the end of a line and the empty lines behind it: a space, or a line feed for each
empty line. -/
def folded (empty : Nat) : List Char := if empty = 0 then [' '] else List.replicate empty '\n'

/-- Past the end of a line and the lines behind it that hold only characters of `p`; also the number
of those lines. At most `count` of them are read. -/
def skipEmpty (p : Char → Bool) : (count : Nat) → Cursor → Nat → Except Fault (Cursor × Nat)
  | 0, k, n => .ok (k, n)
  | count + 1, k, n =>
    if k.isEdge then .ok (k, n)
    else
      let k' := k.skipWhile p
      match k'.rest with
      | '\n' :: _ => skipEmpty p count k'.next (n + 1)
      | _ => .ok (k', n)

/-! ## Plain scalars -/

/-- Does a plain scalar end here? -/
def endsPlain (inFlow : Bool) : List Char → Bool
  | [] => true
  | c :: s =>
    c == ' ' || c == '\t' || c == '\n' ||
      (c == ':' && (isGap s || (inFlow && (s.head?.map ",[]\x7b\x7d".toList.contains).getD false))) ||
      (inFlow && ",?[]\x7b\x7d".toList.contains c)

/-- The characters up to the end of a word of a plain scalar. -/
def plainWord (inFlow : Bool) : List Char → List Char
  | [] => []
  | c :: s => if endsPlain inFlow (c :: s) then [] else c :: plainWord inFlow s

/-- The words of a plain scalar, at most `count`; its further lines are indented by `margin`. -/
def plainWords (inFlow : Bool) (margin : Nat) : (count : Nat) → Reader (List Char)
  | 0 => return []
  | count + 1 => do
    let word := plainWord inFlow (← get).rest
    modify (Cursor.skip word.length)
    let behind ← get
    let gap := behind.rest.takeWhile (· = ' ')
    let k := behind.skip gap.length
    match word, k.rest with
    | [], _ => return []
    | _, '\n' :: _ =>
      let (k, empty) ← skipEmpty (· = ' ') k.rest.length k.next 0
      if k.isEdge || k.rest.isEmpty || k.rest.head? == some '#' || (!inFlow && k.column < margin) ||
          endsPlain inFlow k.rest then
        set k
        return word
      else
        set k
        return word ++ folded empty ++ (← plainWords inFlow margin count)
    | _, _ =>
      if gap = [] ∨ k.rest.head? = some '#' ∨ endsPlain inFlow k.rest then
        set k
        return word
      else
        set k
        return word ++ gap ++ (← plainWords inFlow margin count)

/-- Can a plain scalar begin here? -/
def startsPlain (inFlow : Bool) : List Char → Bool
  | [] => false
  | c :: s =>
    !isGap (c :: s) &&
      (!"-?:,[]\x7b\x7d#&*!|>'\"%@\x60".toList.contains c ||
        (!isGap s && (c == '-' || (!inFlow && (c == '?' || c == ':')))))

/-! ## Quoted scalars -/

/-- The number of some hexadecimal digits. -/
def hexNumber? (ds : List Char) : Option Nat :=
  ds.foldlM (fun n c =>
    let d := c.toNat
    if 0x30 ≤ d ∧ d ≤ 0x39 then some (16 * n + (d - 0x30))
    else if 0x41 ≤ d ∧ d ≤ 0x46 then some (16 * n + (d - 0x37))
    else if 0x61 ≤ d ∧ d ≤ 0x66 then some (16 * n + (d - 0x57))
    else none) 0

/-- The characters that a backslash and one character stand for. -/
def escapes : List (Char × Char) :=
  [('0', '\x00'), ('a', '\x07'), ('b', '\x08'), ('t', '\t'), ('\t', '\t'), ('n', '\n'),
    ('v', '\x0b'), ('f', '\x0c'), ('r', '\r'), ('e', '\x1b'), (' ', ' '), ('"', '"'),
    ('\\', '\\'), ('/', '/'), ('N', '\u0085'), ('_', '\u00a0'), ('L', '\u2028'), ('P', '\u2029')]

/-- The number of digits behind a backslash and one character. -/
def escapeWidths : List (Char × Nat) := [('x', 2), ('u', 4), ('U', 8)]

/-- Fails on text that is no value. -/
def malformed {α : Type} : Reader α := throw .malformed

/-- Blanks inside quotes, at most one line end among them: as they are, or folded. `joined` says
that the line end is not part of the text. -/
def quotedGap (joined : Bool) : Reader (List Char) := do
  let isBlank (c : Char) : Bool := c == ' ' || c == '\t'
  let gap := (← get).rest.takeWhile isBlank
  modify (Cursor.skip gap.length)
  let k ← get
  match k.rest with
  | '\n' :: _ =>
    let (k, empty) ← skipEmpty isBlank k.rest.length k.next 0
    set k
    if k.isEdge then malformed
    else return if joined then List.replicate empty '\n' else folded empty
  | _ => return gap

/-- The text up to the closing quote, reading at most `count` characters. -/
def quotedText (quote : Char) : (count : Nat) → Reader (List Char)
  | 0 => malformed
  | count + 1 => do
    let k ← get
    match k.rest with
    | [] => malformed
    | c :: s =>
      if c = quote then
        if quote = '\'' ∧ s.head? = some '\'' then
          set (k.skip 2)
          return '\'' :: (← quotedText quote count)
        else
          set k.next
          return []
      else if c = ' ' ∨ c = '\t' ∨ c = '\n' then
        let gap ← quotedGap false
        return gap ++ (← quotedText quote count)
      else if c = '\\' ∧ quote = '"' then
        match s with
        | [] => malformed
        | e :: s =>
          if e = '\n' then
            set k.next
            let gap ← quotedGap true
            return gap ++ (← quotedText quote count)
          else
            match escapes.lookup e, escapeWidths.lookup e with
            | some c, _ =>
              set (k.skip 2)
              return c :: (← quotedText quote count)
            | none, some width =>
              match hexNumber? (s.take width) with
              | some n =>
                if s.length < width then malformed
                else if 0x7fffffff < n then throw .hugeCharacter
                else if 0x10ffff < n then throw .noCharacter
                else
                  let isHalf := 0xd800 ≤ n && n ≤ 0xdfff
                  set { k.skip (2 + width) with broken := k.broken || isHalf }
                  let c := if isHalf then '\ufffd' else Char.ofNat n
                  return c :: (← quotedText quote count)
              | none => malformed
            | none, none => malformed
      else
        set k.next
        return c :: (← quotedText quote count)

/-! ## Blocks of text -/

/-- The sign and the width in the header of a block of text. -/
def blockHeader : List Char → Option Char × Option Nat × List Char
  | s =>
    let sign? (s : List Char) : Option Char × List Char :=
      match s with
      | '+' :: r => (some '+', r)
      | '-' :: r => (some '-', r)
      | r => (none, r)
    let width? (s : List Char) : Option Nat × List Char :=
      match s with
      | c :: r => if isDigit c then (some (c.toNat - 0x30), r) else (none, s)
      | r => (none, r)
    match sign? s with
    | (some c, r) => let (w, r) := width? r; (some c, w, r)
    | (none, r) =>
      let (w, r) := width? r
      let (c, r) := sign? r
      (c, w, r)

/-- The lines of a block of text, from the start of a line on: each with the number of empty lines
in front of it; and the number of empty lines behind the last. At most `count` lines are read. -/
def blockLines (margin : Nat) : (count : Nat) → Reader (List (Nat × List Char) × Nat)
  | 0 => return ([], 0)
  | count + 1 => do
    let rec empties : (count : Nat) → Cursor → Nat → Cursor × Nat
      | 0, k, n => (k, n)
      | count + 1, k, n =>
        let k' := k.skip ((k.rest.take margin).takeWhile (· = ' ')).length
        match k'.rest with
        | '\n' :: _ => empties count k'.next (n + 1)
        | _ => (k', n)
    let k ← get
    let (k, empty) := empties k.rest.length k 0
    set k
    if k.column = margin ∧ k.rest ≠ [] then
      let text := k.rest.takeWhile (· ≠ '\n')
      set (k.skip (text.length + 1))
      let (lines, behind) ← blockLines margin count
      return ((empty, text) :: lines, behind)
    else return ([], empty)

/-- Does a line begin with a blank? -/
def isMore (line : List Char) : Bool := (line.head?.map fun c => c == ' ' || c == '\t').getD false

/-- The lines of a block of text behind `before`, joined. Lines are folded unless one of the two
begins with a blank. -/
def joinBlock (fold : Bool) (before : List Char) : List (Nat × List Char) → List Char
  | [] => []
  | (empty, line) :: lines =>
    (if fold && !isMore before && !isMore line then folded empty
      else List.replicate (empty + 1) '\n') ++
    line ++ joinBlock fold line lines

/-- A block of text behind its mark, in a block in the column `parent`. -/
def blockText (fold : Bool) (parent : Int) : Reader (List Char) := do
  let (sign, width, rest) := blockHeader (← get).rest
  let rest := rest.dropWhile (· = ' ')
  let isHeaderEnd := match rest with
    | [] => true
    | c :: _ => c == '#' || c == '\n'
  if width = some 0 ∨ !isHeaderEnd then malformed
  else
    modify fun k => (k.skipWhile (· ≠ '\n')).next
    let k ← get
    let least := (max 1 (parent + 1)).toNat
    let rec deepest : List (List Char) → Nat
      | [] => 0
      | l :: ls =>
        let n := (l.takeWhile (· = ' ')).length
        if n = l.length ∧ ls ≠ [] then max n (deepest ls) else n
    let margin := match width with
      | some w => least + w - 1
      | none => max least (deepest (Text.split '\n' k.rest))
    let (lines, behind) ← blockLines margin k.rest.length
    let body := match lines with
      | [] => []
      | (empty, line) :: lines => List.replicate empty '\n' ++ line ++ joinBlock fold line lines
    let ends := match sign with
      | some '-' => []
      | some _ => (if lines = [] then [] else ['\n']) ++ List.replicate behind '\n'
      | none => if lines = [] then [] else ['\n']
    return body ++ ends

end DemoPages.Yaml
