import DemoPages.Node
import DemoPages.Text.Decimal

/-!
# Layout in columns

In a page of two columns or more, the references at its top level are folded into one block at
the place of the first of them. They are looked up by their indices, and the page is made anew from
what stands at the first of these, and of all blocks that are no references.
-/

namespace DemoPages.Layout

/-- The text of a reference, nothing for other blocks. -/
def referenceText : Node → String
  | .reference _ value => value
  | _ => ""

/-- The block that lays out some references. -/
def wrapper (component : String) (columns : Int) (references : List Node) : Node :=
  .markup ("<" ++ component ++ " columns=\"" ++ Text.decimal columns ++ "\">" ++
    Text.joinWith "" (references.map referenceText) ++ "</" ++ component ++ ">")

/-- The indices of the references among some blocks. -/
def indices (blocks : List Node) : List Nat :=
  (blocks.zipIdx.filter fun p => p.1.isReference).map Prod.snd

/-- Lays out the references of a page in columns. -/
def columns (blocks : List Node) (count : Int) (component : String) : List Node :=
  if count ≤ 1 then blocks
  else
    match indices blocks with
    | [] => blocks
    | first :: others =>
      let w := wrapper component count ((first :: others).filterMap fun i => blocks[i]?)
      (blocks.zipIdx.filter fun p => p.2 = first || !p.1.isReference).map fun p =>
        if p.2 = first then w else p.1

end DemoPages.Layout
