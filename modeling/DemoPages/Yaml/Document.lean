import DemoPages.Yaml.Cursor

/-!
# The document of a configuration file

`Yaml.ofText` reads the one value that a configuration file holds. A block is told by its
indentation: the entries of a mapping stand in one column, a sequence under a key may stand in the
column of the key, and a key is a thing on one line with a colon behind it. Brackets and braces
switch to the flow style, in which lines do not matter.

A scalar that looks like a value and is none, like a thirteenth month, spoils the document only if
the whole text can be read. The first one in the text counts, however deep it stands.

This is not all of YAML: in front of a collection, only the types of collections are known.
-/

namespace DemoPages.Yaml

/-! ## What stands in front of a value -/

/-- The label and the type in front of a value. -/
structure Properties where
  label : Option String := none
  type : Option String := none
  deriving DecidableEq

/-- What a value is made of: a scalar with or without quotes, a value, or nothing. -/
inductive Content where
  | plain (text : List Char)
  | quoted (text : List Char)
  /-- A scalar in quotes with half a character in it, which is replaced here. -/
  | broken (text : List Char)
  | whole (value : Yaml)
  | nothing

/-- Remembers that a scalar has no value. The first such scalar counts. -/
def note (f : Fault) : Reader Unit :=
  modify fun k => { k with trouble := k.trouble <|> some f }

/-- The value of a scalar of a type. A scalar without one is remembered, and counts as no value. -/
def scalarOf (type text : String) : Reader Yaml := do
  match ofScalar type text with
  | .ok v => return v
  | .error f =>
    note f
    return .scalar .null

/-- The value of a scalar; `plain` says whether it has no quotes. A lone mark in place of the type
makes any scalar plain. -/
def scalarValue (type : Option String) (plain : Bool) (s : List Char) : Reader Yaml := do
  let text := String.ofList s
  match type with
  | none => if plain then scalarOf (typeOf text) text else return .text text
  | some "!" => scalarOf (typeOf (words text)) text
  | some type => scalarOf type text

/-- A mapping of one entry. -/
def isPair : Yaml → Bool
  | .mapping [_] => true
  | _ => false

/-- A collection as one of a type, if it can be one. -/
def collectionOf? : (type : String) → Yaml → Option Yaml
  | "!", v => some v
  | "!!seq", .sequence items => some (.sequence items)
  | "!!omap", .sequence items => if items.all isPair then some (.sequence items) else none
  | "!!pairs", .sequence items => if items.all isPair then some (.sequence items) else none
  | "!!map", .mapping entries => some (.mapping entries)
  | "!!set", .mapping entries => some (.members entries)
  | _, _ => none

/-- The value of a content of a type. -/
def typed (type : Option String) : Content → Reader Yaml
  | .whole v => do
    match collectionOf? (type.getD "!") v with
    | some v => return v
    | none =>
      note .malformed
      return v
  | .nothing => scalarValue type true []
  | .broken s => do
    if (type.getD "!!str" = "!!str") ∨ type = some "!" then return .scalar .broken
    else scalarValue type false s
  | .quoted s => scalarValue type false s
  | .plain s => scalarValue type true s

/-- The value of a content with properties; a labelled value is remembered. -/
def finish (p : Properties) (content : Content) : Reader Yaml := do
  let v ← typed p.type content
  match p.label with
  | none => return v
  | some label =>
    if ((← get).labels.get? label).isSome then malformed
    else
      modify fun k => { k with labels := k.labels.put label v }
      return v

/-- Letters and digits of ASCII, the low line and the hyphen. -/
def isLabelChar (c : Char) : Bool := c.isAlphanum || c == '_' || c == '-'

/-- The label behind a mark. -/
def labelText : Reader String := do
  let k := (← get).next
  let label := k.rest.takeWhile isLabelChar
  let k := k.skip label.length
  set k
  let isEnd := isGap k.rest || (k.rest.head?.map "?:,]\x7d%@\x60".toList.contains).getD false
  if label = [] ∨ !isEnd then malformed else return String.ofList label

/-- One property more. -/
def property (p : Properties) : Reader Properties := do
  let k ← get
  match k.rest with
  | '&' :: _ =>
    let label ← labelText
    if p.label.isSome then malformed else return { p with label := some label }
  | _ =>
    let type := k.rest.takeWhile fun c => c ≠ ' ' ∧ c ≠ '\n'
    set (k.skip type.length)
    if p.type.isSome then malformed else return { p with type := some (String.ofList type) }

/-! ## Keys and entries -/

/-- A value that stands where no key is wanted. -/
def asValue (v : Yaml) : Reader Yaml := do
  if !v.isValue then note .malformed
  return v

/-- The entries that a value merges into a mapping. -/
def merged : Yaml → Option (List (Yaml × Yaml))
  | .mapping entries => some entries
  | .members entries => some entries
  | .sequence items =>
    (items.reverse.mapM fun (v : Yaml) =>
      match v with
      | .mapping entries => some entries
      | .members entries => some entries
      | _ => none).map List.flatten
  | _ => none

/-- A key of a mapping. The key that names the value of a mapping is a text as others are. -/
def asKey : Yaml → Yaml
  | .scalar (.own words) => .text words
  | key => key

/-- The mapping of some entries: the merged ones stand first, and a collection is no key. -/
def mappingOf (entries : List (Yaml × Yaml)) : Reader Yaml := do
  let (merges, own) := entries.partition fun e => e.1.isMerge
  let own := own.map fun e => (asKey e.1, e.2)
  match merges.mapM fun e => merged e.2 with
  | none =>
    note .malformed
    return Yaml.mapping own
  | some more =>
    if own.any (·.1.isCollection) then note .malformed
    return Yaml.mapping (more.flatten ++ own)

/-- Does the mark `c` of a block stand here? -/
def isMark (c : Char) : List Char → Bool
  | d :: s => c == d && isGap s
  | [] => false

/-- The largest number of characters of a key without a mark. -/
def maxKey : Nat := 1024

/-- Steps over the colon behind a key that began at `start`, if it is a key: on one line, and not
too long. -/
def colon? (start : Cursor) (inFlow : Bool) : Reader Bool := do
  let k := (← get).skipWhile (· = ' ')
  let isColon := if inFlow then k.rest.head? = some ':' else isMark ':' k.rest
  if isColon ∧ k.line = start.line ∧ start.rest.length - k.rest.length ≤ maxKey then
    set k.next
    return true
  else return false

/-! ## Values -/

/-- Steps over spaces, comments and line ends. -/
def gaps : Reader Unit := modify Cursor.skipAllGaps

/-- Steps over a character that has to stand here. -/
def comma : Reader Unit := do
  let k ← get
  if k.rest.head? = some ',' then set k.next else malformed

mutual

/-- A value that can stand on one line: a label, a scalar, or a collection in brackets. A plain
scalar goes on in lines that are indented by `margin`. -/
def leaf (inFlow : Bool) (margin : Nat) : (fuel : Nat) → Properties → Reader Yaml
  | 0, _ => malformed
  | fuel + 1, p => do
    let k ← get
    match k.rest with
    | '*' :: _ =>
      if p ≠ {} then malformed
      else
        match k.labels.get? (← labelText) with
        | some v => return v
        | none => malformed
    | '&' :: _ | '!' :: _ =>
      let p ← property p
      if inFlow then gaps else modify (Cursor.skipWhile (· = ' '))
      leaf inFlow margin fuel p
    | '[' :: _ =>
      set k.next
      finish p (.whole (.sequence (← items fuel)))
    | '\x7b' :: _ =>
      set k.next
      finish p (.whole (← mappingOf (← pairs fuel)))
    | c :: s =>
      if c = '\'' ∨ c = '"' then
        set { k.next with broken := false }
        let text ← quotedText c (s.length + 1)
        finish p (if (← get).broken then .broken text else .quoted text)
      else if startsPlain inFlow k.rest then
        finish p (.plain (← plainWords inFlow margin (s.length + 1)))
      else if p ≠ {} then finish p .nothing
      else malformed
    | [] => if p ≠ {} then finish p .nothing else malformed

/-- A value in flow style. -/
def flow : (fuel : Nat) → Reader Yaml
  | 0 => malformed
  | fuel + 1 => do
    gaps
    if (← get).isEnd then malformed else leaf true 0 fuel {}

/-- The value of a key in flow style, behind the colon; nothing if the entry ends here. -/
def flowValue : (fuel : Nat) → Reader Yaml
  | 0 => malformed
  | fuel + 1 => do
    gaps
    match (← get).rest with
    | ',' :: _ | ']' :: _ | '\x7d' :: _ => return .scalar .null
    | _ => asValue (← flow fuel)

/-- A key in flow style and its value, if there is a colon. -/
def entry : (fuel : Nat) → Reader (Yaml × Option Yaml)
  | 0 => malformed
  | fuel + 1 => do
    gaps
    let start ← get
    match start.rest with
    | '?' :: _ =>
      set start.next
      gaps
      let key ← match (← get).rest with
        | ',' :: _ | ']' :: _ | '\x7d' :: _ | ':' :: _ => pure (.scalar .null)
        | _ => flow fuel
      gaps
      let k ← get
      if k.rest.head? = some ':' then
        set k.next
        return (key, some (← flowValue fuel))
      else return (key, some (.scalar .null))
    | _ =>
      let key ← flow fuel
      if ← colon? start true then return (key, some (← flowValue fuel))
      else return (key, none)

/-- The items behind an opening bracket. A key and its value between commas are a mapping. -/
def items : (fuel : Nat) → Reader (List Yaml)
  | 0 => malformed
  | fuel + 1 => do
    gaps
    let k ← get
    if k.rest.head? = some ']' then
      set k.next
      return []
    else
      let v ← match ← entry fuel with
        | (v, none) => asValue v
        | (key, some v) => mappingOf [(key, v)]
      gaps
      if (← get).rest.head? ≠ some ']' then comma
      return v :: (← items fuel)

/-- The entries behind an opening brace. -/
def pairs : (fuel : Nat) → Reader (List (Yaml × Yaml))
  | 0 => malformed
  | fuel + 1 => do
    gaps
    let k ← get
    if k.rest.head? = some '\x7d' then
      set k.next
      return []
    else
      let (key, v) ← entry fuel
      gaps
      if (← get).rest.head? ≠ some '\x7d' then comma
      return (key, v.getD (.scalar .null)) :: (← pairs fuel)

end

/-- A key on one line and the colon behind it, if this is one. -/
def key? (margin fuel : Nat) : Reader (Option Yaml) := do
  let start ← get
  match start.rest with
  | '|' :: _ | '>' :: _ => return none
  | _ =>
    let key ← leaf false margin fuel {}
    if ← colon? start false then return some key
    else
      set start
      return none

mutual

/-- A value in block style, behind its properties. The block around it stands in the column
`parent`, and is a mapping if `inMapping`; `fresh` says that a block may begin on this line. -/
def block (parent : Int) (inMapping : Bool) :
    (fuel : Nat) → (fresh : Bool) → Properties → Reader Yaml
  | 0, _, _ => malformed
  | fuel + 1, fresh, p => do
    gaps
    let k ← get
    let column : Int := k.column
    if k.isEnd then finish p .nothing
    else if k.bare ∧ column ≤ parent then
      if inMapping ∧ column = parent ∧ isMark '-' k.rest then
        finish p (.whole (.sequence (← rows k.column true true fuel)))
      else finish p .nothing
    else
      let fresh := fresh || k.bare
      let margin := (parent + 1).toNat
      if isMark '-' k.rest then
        if fresh then finish p (.whole (.sequence (← rows k.column false true fuel)))
        else malformed
      else if isMark '?' k.rest then
        if fresh then finish p (.whole (← mappingOf (← entries k.column true fuel))) else malformed
      else
        let key ← if fresh then key? margin fuel else pure none
        match key, k.rest with
        | some key, _ =>
          let v ← block k.column true fuel false {}
          let more ← entries k.column false fuel
          finish p (.whole (← mappingOf ((key, ← asValue v) :: more)))
        | none, '|' :: _ | none, '>' :: _ =>
          set k.next
          let text ← blockText (k.rest.head? == some '>') parent
          finish p (.quoted text)
        | none, '&' :: _ | none, '!' :: _ => block parent inMapping fuel false (← property p)
        | none, _ => leaf false margin fuel p

/-- The entries of a mapping in the column `column`. -/
def entries (column : Nat) : (isFirst : Bool) → (fuel : Nat) → Reader (List (Yaml × Yaml))
  | _, 0 => malformed
  | isFirst, fuel + 1 => do
    gaps
    let k ← get
    if k.isEnd then return []
    else if !isFirst ∧ !k.bare then malformed
    else if k.column < column then return []
    else if column < k.column then malformed
    else if isMark '?' k.rest then
      set k.next
      let key ← block column true fuel true {}
      gaps
      let k ← get
      let v ←
        if k.bare ∧ k.column = column ∧ isMark ':' k.rest then
          set k.next
          block column true fuel true {}
        else pure (.scalar .null)
      return (key, ← asValue v) :: (← entries column false fuel)
    else
      match ← key? (column + 1) fuel with
      | none => malformed
      | some key =>
        let v ← block column true fuel false {}
        return (key, ← asValue v) :: (← entries column false fuel)

/-- The items of a sequence in the column `column`; `inMapping` says that the keys of a mapping
stand there too. -/
def rows (column : Nat) (inMapping : Bool) : (isFirst : Bool) → (fuel : Nat) → Reader (List Yaml)
  | _, 0 => malformed
  | isFirst, fuel + 1 => do
    gaps
    let k ← get
    if k.isEnd then return []
    else if !isFirst ∧ !k.bare then malformed
    else if k.column < column then return []
    else if column < k.column then malformed
    else if isMark '-' k.rest then
      set k.next
      let v ← asValue (← block column false fuel true {})
      return v :: (← rows column inMapping false fuel)
    else if inMapping then return []
    else malformed

end

/-! ## Documents -/

/-- Is this the version of a document that can be read? -/
def isVersion (s : List Char) : Bool :=
  match s.dropWhile (· = ' ') with
  | '1' :: '.' :: d :: r => isDigit d && isGap (r.dropWhile isDigit)
  | _ => false

/-- Steps over at most `count` directives; answers whether there are any. -/
def directives : (count : Nat) → Reader Bool
  | 0 => return false
  | count + 1 => do
    gaps
    let k ← get
    match k.rest with
    | '%' :: s =>
      if k.column ≠ 0 then return false
      else
        let name := s.takeWhile isLabelChar
        let rest := s.drop name.length
        let isEnd := rest.isEmpty || rest.head? == some ' ' || rest.head? == some '\n'
        if name = [] ∨ !isEnd ∨ (String.ofList name = "YAML" ∧ !isVersion rest) then malformed
        else
          set (k.skipWhile (· ≠ '\n'))
          let _ ← directives count
          return true
    | _ => return false

/-- Steps over at most `count` marks of the end of a document, and then to the end of the text. -/
def leave : (count : Nat) → Reader Unit
  | 0 => return ()
  | count + 1 => do
    gaps
    let k ← get
    match k.rest with
    | [] => return ()
    | '.' :: _ => if k.isEdge then set (k.skip 3); leave count else malformed
    | _ => malformed

/-- The value of the only document of a text. -/
def document : Reader Yaml := do
  let size := (← get).rest.length
  let fuel := 4 * size + 8
  let directed ← directives size
  gaps
  let k ← get
  let v ←
    if k.isEdge ∧ k.rest.head? = some '-' then
      set (k.skip 3)
      block (-1) false fuel false {}
    else if directed ∨ k.isEdge then malformed
    else block (-1) false fuel false {}
  let v ← asValue v
  leave (size + 1)
  return v

/-- Can a character stand in a configuration file? -/
def isReadable (c : Char) : Bool :=
  c == '\t' || c == '\n' || c == '\r' || (' ' ≤ c && c ≤ '~') || c == '\u0085' ||
    ('\u00a0' ≤ c && c ≤ '\ufffd') || '\uffff' < c

/-- The value that a text holds; nothing if it holds none. Line ends of all kinds count. -/
def ofText (text : String) : Except Fault Yaml := do
  if text.toList.all isReadable then
    let isEnd (c : Char) : Bool := c == '\u0085' || c == '\u2028' || c == '\u2029'
    let rest := text.toList.map fun c => if isEnd c then '\n' else c
    let (v, k) ← document.run { rest := if rest.head? = some '\ufeff' then rest.drop 1 else rest }
    match k.trouble with
    | some f => .error f
    | none => return v
  else .error .malformed

end DemoPages.Yaml
