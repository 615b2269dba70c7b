import DemoPages.Component.Attributes
import DemoPages.Digest
import DemoPages.Fault
import DemoPages.Node

/-!
# Components

Each demo of a page becomes a component: an artifact with a name, a path and a code, and in the
page a reference to it. The name is made from the identity of the page and the place of the demo
among its siblings.
-/

namespace DemoPages

/-- A component: its name, its path as seen from the project root, and its code. -/
structure Artifact where
  name : String
  path : String
  code : String
  deriving DecidableEq, Repr

/-- How the demos of a page are told apart, named and shown. -/
structure Options where
  /-- The language of the demos. -/
  lang : String := "vue"
  /-- What the names of components begin with. -/
  namePrefix : String := "VueCode"
  /-- The component that shows a demo which names none. -/
  wrapper : String := "VueCode"
  /-- The attribute that names the component which shows a demo. -/
  previewKey : String := "preview"
  /-- The component that lays out demos in columns. -/
  layout : String := "VueMarkdown"
  /-- The extension of the files of components. -/
  extension : String := ".vue"
  deriving DecidableEq, Repr

/-- The name of the component at `index` of the page `file`: eight digits of the digest of the
path stand between the beginning and the index. -/
def componentName (file : String) (index : Int) (namePrefix : String) : String :=
  namePrefix ++ String.ofList ((Digest.md5 file).toList.take 8) ++ "I" ++ Text.decimal index

/-- The name of a component, if its page has a path. -/
def artifactName (file : String) (index : Int) (namePrefix : String) : Except Fault String :=
  if file = "" then .error .emptyIdentity else .ok (componentName file index namePrefix)

/-- Markup of `component` around the component `name`, carrying the shown source and the
parameters. -/
def referenceMarkup (component name source : String) (params : List String) : String :=
  "<" ++ component ++ " source=\"" ++ Text.Percent.encode source ++ "\" params=\"" ++
    Text.joinWith "&" params ++ "\">\n  <" ++ name ++ " />\n</" ++ component ++ ">"

/-- The component that shows a demo with these attributes. -/
def Options.component (o : Options) (a : Attributes) : String :=
  match a.values.get? o.previewKey with
  | some (.text value) => value
  | _ => o.wrapper

/-- Markup that imports every component, one line each. -/
def preamble (artifacts : List Artifact) : String :=
  "<script setup>\n" ++
    Text.joinWith "" (artifacts.map fun a => "import " ++ a.name ++ " from \"" ++ a.path ++ "\"\n") ++
    "</script>"

end DemoPages
