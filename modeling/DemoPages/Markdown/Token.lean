import DemoPages.Markdown.Block
import DemoPages.Node

/-!
# From blocks to the tree of a page

A token tells that a block opens, goes on or closes. The outermost blocks become the nodes of a
page: fenced code is taken apart, and every other block is a slice of the source text. The lines of
a token count line feeds and carriage returns, but the slice is taken from the lines that end at
every line boundary.

Where the tokens come from is up to a `Reader`, which knows some dialects by their names; `reader`
is one that goes by the rules of a `Dialect`.
-/

namespace DemoPages.Markdown

/-- A token: what block it belongs to, how deep it is nested, whether it opens (1), closes (-1) or
does neither, the text behind and between fences, and the lines from the first up to the second. -/
structure Token where
  kind : String
  level : Int := 0
  nesting : Int := 0
  info : String := ""
  content : String := ""
  lines : Option (Int × Int) := none
  deriving DecidableEq, Repr

/-- The name of a kind of block. -/
def Kind.name : Kind → String
  | .paragraph => "paragraph"
  | .heading => "heading"
  | .code => "code_block"
  | .fence => "fence"
  | .quote => "blockquote"
  | .rule => "hr"
  | .bulletList => "bullet_list"
  | .orderedList => "ordered_list"
  | .markup => "html_block"
  | .table => "table"

/-- Does a block of this kind have a token of its own at its end? -/
def Kind.isOpened : Kind → Bool
  | .code | .fence | .rule | .markup => false
  | _ => true

/-- The token with which a block begins. -/
def Block.token (b : Block) : Token where
  kind := if b.kind.isOpened then b.kind.name ++ "_open" else b.kind.name
  nesting := if b.kind.isOpened then 1 else 0
  info := String.ofList b.info
  content := String.ofList b.content
  lines := some (b.first, b.stop)

namespace Token

/-- The index that a position stands for in a list of `n`: a negative one counts from the end, and
one out of range is the nearest in range. -/
def clip (n : Nat) (i : Int) : Nat :=
  if i < 0 then (n + i).toNat else min i.toNat n

/-- The items of a list from a position up to another. -/
def slice {α : Type} (xs : List α) (first stop : Int) : List α :=
  (xs.take (clip xs.length stop)).drop (clip xs.length first)

/-- The source text of a block, without white space at its end. Without lines, it is the content
of the token. -/
def source (t : Token) (lines : List (List Char)) : String :=
  let text := match t.lines with
    | some (first, stop) => (slice lines first stop).flatten
    | none => t.content.toList
  String.ofList (Text.trimEnd text)

/-- The name of the block that a token belongs to. -/
def blockName (t : Token) : String :=
  match Html.behind? "nepo_".toList t.kind.toList.reverse with
  | some rest => String.ofList rest.reverse
  | none => t.kind

/-- Fenced code: the language ends at the first space, and the line feed in front of the closing
fence does not belong to the code. -/
def fencedCode (t : Token) : Node :=
  let (lang, info) := Text.cut ' ' (Text.trim t.info.toList)
  let content := t.content.toList
  let value := if content.getLast? = some '\n' then content.dropLast else content
  .code (String.ofList lang) (some (String.ofList (Text.trim (info.getD [])))) (String.ofList value)

/-- The node that a token makes: none unless it is an outermost one and does not close. -/
def node? (lines : List (List Char)) (t : Token) : Option Node :=
  if t.level ≠ 0 ∨ t.nesting = -1 then none
  else if t.kind = "fence" then some t.fencedCode
  else some (.raw t.blockName (t.source lines))

/-- The nodes that some tokens make. -/
def nodes (tokens : List Token) (lines : List (List Char)) : List Node :=
  tokens.filterMap (node? lines)

end Token

/-- A reader of page texts: for the name of a dialect, how the texts in it are taken apart. -/
abbrev Reader : Type := (dialect : String) → Except Fault (List Char → List Token)

/-- The tokens with which the blocks of a text begin, by the rules of a dialect. -/
def tokens (d : Dialect) (s : List Char) : List Token :=
  (d.rules.blocks (linesOf s)).map Block.token

/-- The reader of the dialects that there are, by their rules. -/
def reader : Reader := fun name => (Dialect.ofName name).map tokens

end DemoPages.Markdown
