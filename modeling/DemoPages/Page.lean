import DemoPages.FrontMatter
import DemoPages.Markdown.Token

/-!
# Reading a page

The text of a page is its front matter and its blocks. The blocks are told from the tokens that a
reader finds in the text, which may be any reader that knows dialects by their names.
-/

namespace DemoPages.Page

/-- The blocks of a text. -/
def parse (reader : Markdown.Reader) (text dialect : String) : Except Fault (List Node) := do
  let (front, body) := FrontMatter.split text.toList
  let tokens ← reader dialect
  let blocks := Markdown.Token.nodes (tokens body) (Text.lines body)
  return match front with
    | some value => .frontMatter (some (String.ofList value)) :: blocks
    | none => blocks

/-- The text of the bytes of a file, with line feeds as line ends. -/
def decode (bytes : List UInt8) : Except Text.Utf8.Fault String :=
  (Text.Utf8.decode bytes).map fun s => String.ofList (Text.unifyLineEnds s.toList)

/-- The blocks of the page in a file. -/
def read (reader : Markdown.Reader) (p : Path) (dialect : String) (d : Disk) :
    Except Fault (List Node) :=
  match Disk.readBytes p d with
  | .error f _ => .error (.disk f)
  | .ok bytes _ =>
    match decode bytes with
    | .error f => .error (.undecodable f)
    | .ok text => parse reader text dialect

end DemoPages.Page
