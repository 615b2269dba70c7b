import DemoPages.Fault

/-!
# Dialects

Which blocks a text may have, and how deep they may be nested.
-/

namespace DemoPages.Markdown

/-- A dialect of page texts. -/
structure Dialect where
  /-- Are there tables? -/
  tables : Bool
  /-- Are there blocks of markup? -/
  markup : Bool
  /-- Is there anything but paragraphs? -/
  blocks : Bool := true
  /-- How deep blocks may be nested. -/
  depth : Nat
  deriving DecidableEq, Repr

/-- The dialect of a name. -/
def Dialect.ofName (name : String) : Except Fault Dialect :=
  match name with
  | "commonmark" => .ok { tables := false, markup := true, depth := 20 }
  | "gfm-like" => .ok { tables := true, markup := true, depth := 20 }
  | "default" => .ok { tables := true, markup := false, depth := 100 }
  | "js-default" => .ok { tables := true, markup := false, depth := 100 }
  | "zero" => .ok { tables := false, markup := false, blocks := false, depth := 20 }
  | _ => .error (.unknownDialect name)

end DemoPages.Markdown
