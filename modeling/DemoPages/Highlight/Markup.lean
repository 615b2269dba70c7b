import DemoPages.Highlight.Shade
import DemoPages.Text.Blank
import DemoPages.Text.Word

/-!
# Shading of markup

A reader of markup is in one of three places: between tags, inside a tag, or in front of the value
of an attribute. In each place the first form that fits the coming text is taken, shaded and
passed over. Where none fits, a line feed leads back between tags, and any other character is
shaded as an error.
-/

namespace DemoPages.Highlight

open Text (isBlank isWord)

/-- Where the reader is. -/
inductive Spot where
  | between
  | inTag
  | atValue
  deriving DecidableEq, Repr

/-- What a form passes over, and where it leads. -/
structure Step where
  runs : List Run
  spot : Spot
  rest : List Char

/-- A character of the name of an element. -/
def isElementChar (c : Char) : Bool := isWord c || c == ':' || c == '.' || c == '-'

/-- A character of the name of an attribute. -/
def isAttributeChar (c : Char) : Bool := isWord c || c == ':' || c == '-'

/-- A small letter for each capital of ASCII. -/
def lowerChar (c : Char) : Char :=
  if 'A' ≤ c ∧ c ≤ 'Z' then Char.ofNat (c.toNat + 32) else c

/-- The text behind `word`, if it begins so, in capitals or small letters. -/
def behind? : (word : List Char) → List Char → Option (List Char)
  | [], s => some s
  | w :: ws, c :: s => if lowerChar w = lowerChar c then behind? ws s else none
  | _ :: _, [] => none

/-- The text up to the end of the first `word`, and the rest. -/
def through? (word : List Char) : List Char → Option (List Char × List Char)
  | [] => if word = [] then some ([], []) else none
  | c :: s =>
    match behind? word (c :: s) with
    | some rest => some (word, rest)
    | none => (through? word s).map fun ar => (c :: ar.1, ar.2)

/-- A form that begins with `first` and goes on through the next `last`. -/
def enclosed? (shade : Shade) (first last : String) (s : List Char) : Option Step := do
  let inner ← behind? first.toList s
  let (body, rest) ← through? last.toList inner
  some ⟨[⟨shade, s.take first.length ++ body⟩], .between, rest⟩

/-! ## Between tags -/

/-- Text without tags and entities. -/
def prose? (s : List Char) : Option Step :=
  match s.span fun c => c ≠ '<' && c ≠ '&' with
  | ([], _) => none
  | (text, rest) => some ⟨[⟨.plain, text⟩], .between, rest⟩

/-- An entity: up to the next semicolon, without white space. -/
def entity? : List Char → Option Step
  | '&' :: s =>
    match s.span fun c => c ≠ ';' && !isBlank c with
    | (name, ';' :: rest) => some ⟨[⟨.entity, '&' :: (name ++ [';'])⟩], .between, rest⟩
    | _ => none
  | _ => none

/-- The start of a tag: an angle bracket and the name of an element. -/
def open? : List Char → Option Step
  | '<' :: s =>
    let (gap, s) := s.span isBlank
    match s.span isElementChar with
    | ([], _) => none
    | (name, rest) => some ⟨[⟨.punctuation, ['<']⟩, ⟨.plain, gap⟩, ⟨.tagName, name⟩], .inTag, rest⟩
  | _ => none

/-- A whole closing tag. -/
def close? : List Char → Option Step
  | '<' :: s =>
    match s.span isBlank with
    | (gap, '/' :: s) =>
      let (gap', s) := s.span isBlank
      match s.span isElementChar with
      | ([], _) => none
      | (name, s) =>
        match s.span isBlank with
        | (gap'', '>' :: rest) =>
          some ⟨[⟨.punctuation, ['<']⟩, ⟨.plain, gap⟩, ⟨.punctuation, ['/']⟩, ⟨.plain, gap'⟩,
            ⟨.tagName, name⟩, ⟨.plain, gap''⟩, ⟨.punctuation, ['>']⟩], .between, rest⟩
        | _ => none
    | _ => none
  | _ => none

/-- The forms between tags, in order. -/
def between? (s : List Char) : Option Step :=
  prose? s <|> entity? s <|> enclosed? .instruction "<![CDATA[" "]]>" s <|>
    enclosed? .comment "<!--" "-->" s <|> enclosed? .instruction "<?" "?>" s <|>
    enclosed? .instruction "<!" ">" s <|> open? s <|> close? s

/-! ## Inside a tag -/

/-- White space. -/
def gap? (s : List Char) : Option Step :=
  match s.span isBlank with
  | ([], _) => none
  | (text, rest) => some ⟨[⟨.plain, text⟩], .inTag, rest⟩

/-- The name of an attribute, with an equals sign if one follows. -/
def attribute? (s : List Char) : Option Step :=
  match s.span isAttributeChar with
  | ([], _) => none
  | (name, rest) =>
    match rest.span isBlank with
    | (gap, '=' :: more) =>
      let (gap', rest) := more.span isBlank
      some ⟨[⟨.attributeName, name ++ gap⟩, ⟨.operator, ['=']⟩, ⟨.plain, gap'⟩], .atValue, rest⟩
    | _ => some ⟨[⟨.attributeName, name⟩], .inTag, rest⟩

/-- The end of a tag. -/
def tagEnd? (s : List Char) : Option Step :=
  let (slash, s) := match s with
    | '/' :: s => (['/'], s)
    | s => ([], s)
  match s.span isBlank with
  | (gap, '>' :: rest) =>
    some ⟨[⟨.punctuation, slash⟩, ⟨.plain, gap⟩, ⟨.punctuation, ['>']⟩], .between, rest⟩
  | _ => none

/-- The forms inside a tag, in order. -/
def inTag? (s : List Char) : Option Step := gap? s <|> attribute? s <|> tagEnd? s

/-! ## Values -/

/-- A value between quotes. -/
def quotedValue? (quote : Char) : List Char → Option Step
  | c :: s =>
    if c = quote then
      (through? [quote] s).map fun ar => ⟨[⟨.string, quote :: ar.1⟩], .inTag, ar.2⟩
    else none
  | [] => none

/-- A value without quotes. -/
def bareValue? (s : List Char) : Option Step :=
  match s.span fun c => c ≠ '>' && !isBlank c with
  | ([], _) => none
  | (text, rest) => some ⟨[⟨.string, text⟩], .inTag, rest⟩

/-- The forms of a value, in order. -/
def atValue? (s : List Char) : Option Step :=
  quotedValue? '"' s <|> quotedValue? '\'' s <|> bareValue? s

/-! ## The whole text -/

/-- The form that fits, or the next character alone. -/
def step (spot : Spot) (c : Char) (s : List Char) : Step :=
  let found := match spot with
    | .between => between? (c :: s)
    | .inTag => inTag? (c :: s)
    | .atValue => atValue? (c :: s)
  found.getD (if c = '\n' then ⟨[⟨.plain, [c]⟩], .between, s⟩ else ⟨[⟨.error, [c]⟩], spot, s⟩)

/-- At most `count` steps; every step passes over a character or more. -/
def shadeFrom : (count : Nat) → Spot → List Char → List Run
  | count + 1, spot, c :: s =>
    let next := step spot c s
    next.runs ++ shadeFrom count next.spot next.rest
  | _, _, _ => []

/-- The runs of a text of markup. -/
def shadeMarkup (s : List Char) : List Run := shadeFrom s.length .between s

end DemoPages.Highlight
