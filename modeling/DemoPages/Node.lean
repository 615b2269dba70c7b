import DemoPages.Text.Pieces

/-!
# The tree of a page

A page is a list of blocks. Only what the extraction of demos has to tell apart has a form of its
own; every other block is kept as its source text. `Node.source` writes a block back as text, and
`Node.pageText` a whole tree.
-/

namespace DemoPages

/-- What a group of blocks is: the root of a page, or a group with a name. -/
inductive GroupKind where
  | root
  | named (name : String)
  deriving DecidableEq, Repr

/-- A block of a page. -/
inductive Node where
  /-- A block kept as its source text. -/
  | raw (kind value : String)
  /-- A block that holds blocks. -/
  | group (kind : GroupKind) (children : List Node)
  /-- Fenced code: its language, what else stands behind the fence, and its text. -/
  | code (lang : String) (info : Option String) (value : String)
  /-- Front matter. -/
  | frontMatter (value : Option String)
  /-- Markup written by the program. -/
  | markup (value : String)
  /-- Markup that refers to the component `name`. -/
  | reference (name value : String)
  deriving Repr, Inhabited

/-! ## Text of a tree -/

mutual

/-- The source text of a block. -/
def Node.source : Node → String
  | .raw _ value => value
  | .group _ children => Text.joinWith "\n\n" (Node.sources children)
  | .code lang info value =>
    let behind := match info with
      | some text => if text = "" then lang else lang ++ " " ++ text
      | none => lang
    "```" ++ behind ++ "\n" ++ value ++ "\n```"
  | .frontMatter value => "---\n" ++ value.getD "None" ++ "\n---"
  | .markup value => value
  | .reference _ value => value

/-- The source texts of some blocks. -/
def Node.sources : List Node → List String
  | [] => []
  | n :: ns => n.source :: Node.sources ns

end

/-- The text of a tree: blocks with a blank line between them, and a line feed at the end unless
there is no text at all. -/
def Node.pageText (n : Node) : String :=
  let body := n.source
  if body = "" then "" else body ++ "\n"

/-- The text of a page with these blocks. -/
def pageText (blocks : List Node) : String := (Node.group .root blocks).pageText

theorem Node.sources_eq_map (ns : List Node) : Node.sources ns = ns.map Node.source := by
  induction ns with
  | nil => simp [Node.sources]
  | cons n ns ih => simp [Node.sources, ih]

@[simp] theorem pageText_nil : pageText [] = "" := by
  simp [pageText, Node.pageText, Node.source, Node.sources, Text.joinWith]

/-- Is this a reference to a component? -/
def Node.isReference : Node → Bool
  | .reference _ _ => true
  | _ => false

/-- Is this front matter? -/
def Node.isFrontMatter : Node → Bool
  | .frontMatter _ => true
  | _ => false

end DemoPages
