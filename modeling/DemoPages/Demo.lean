import DemoPages.Component.Artifact
import DemoPages.Highlight.Highlighter

/-!
# Demos of a page

A demo is fenced code in the language of demos, at any depth of a page. `find` lists the demos
with their places, `replacements` computes for each a component and the reference that stands for
it, and `splice` puts the references into the page. Nothing is put in before all are computed.
-/

namespace DemoPages

/-- A demo: the indices of the groups around it, from the outermost, its own index and the number
of its siblings, and the code. -/
structure Demo where
  groups : List Nat
  index : Nat
  siblings : Nat
  lang : String
  info : Option String
  value : String
  deriving DecidableEq, Repr

namespace Demo

/-! ## Finding -/

mutual

/-- The demos at a block, or below it. -/
def ofNode (lang : String) (groups : List Nat) (siblings index : Nat) : Node → List Demo
  | .code l info value => if l = lang then [⟨groups, index, siblings, l, info, value⟩] else []
  | .group _ children => ofNodes lang (groups ++ [index]) children.length 0 children
  | _ => []

/-- The demos at some siblings, or below them; the first of them stands at `index`. -/
def ofNodes (lang : String) (groups : List Nat) (siblings index : Nat) : List Node → List Demo
  | [] => []
  | n :: ns => ofNode lang groups siblings index n ++ ofNodes lang groups siblings (index + 1) ns

end

/-- The demos of a page, in the order of its text. -/
def find (blocks : List Node) (lang : String) : List Demo :=
  ofNodes lang [] blocks.length 0 blocks

end Demo

/-! ## Replacing -/

/-- What a demo becomes: where it stands, the reference put there, and the component. -/
structure Replacement where
  groups : List Nat
  index : Nat
  node : Node
  artifact : Artifact
  deriving Repr

namespace Replacement

/-- Shows a code, and remembers that it was shown. -/
def showCode (highlighter : Highlighter) (code : String) : EStateM Fault (List String) String :=
  fun shown =>
    match highlighter shown code with
    | .ok text => .ok text (shown ++ [code])
    | .error f => .error f (shown ++ [code])

/-- What a demo of the page `file` becomes. -/
def ofDemo (here : Place) (file root : String) (highlighter : Highlighter) (o : Options)
    (demo : Demo) : EStateM Fault (List String) Replacement := do
  let attributes := Attributes.parse demo.info
  let name ← MonadExcept.ofExcept (artifactName file demo.index o.namePrefix)
  let shown ← showCode highlighter demo.value
  return {
    groups := demo.groups
    index := demo.index
    node := .reference name (referenceMarkup (o.component attributes) name shown attributes.params)
    artifact := ⟨name, artifactPath here file root (name ++ o.extension), demo.value⟩ }

/-- What every demo becomes, in order. The state is the list of codes shown so far. -/
def ofDemos (here : Place) (file root : String) (highlighter : Highlighter) (o : Options) :
    List Demo → EStateM Fault (List String) (List Replacement)
  | [] => return []
  | demo :: demos => do
    let r ← ofDemo here file root highlighter o demo
    let rs ← ofDemos here file root highlighter o demos
    return r :: rs

/-- What the demos of a page become. -/
def build (here : Place) (file root : String) (highlighter : Highlighter) (o : Options)
    (blocks : List Node) : EStateM Fault (List String) (List Replacement) :=
  ofDemos here file root highlighter o (Demo.find blocks o.lang)

/-- The blocks with `new` at `index` of the group that `groups` lead to. -/
def putAt (index : Nat) (new : Node) : (groups : List Nat) → List Node → List Node
  | [], blocks => blocks.set index new
  | g :: groups, blocks =>
    match blocks[g]? with
    | some (.group kind children) => blocks.set g (.group kind (putAt index new groups children))
    | _ => blocks

/-- Puts the reference into the page. -/
def apply (blocks : List Node) (r : Replacement) : List Node := putAt r.index r.node r.groups blocks

/-- Puts all references into the page. -/
def splice (blocks : List Node) (rs : List Replacement) : List Node := rs.foldl apply blocks

end Replacement

end DemoPages
