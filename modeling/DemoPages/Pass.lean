import DemoPages.Demo
import DemoPages.FrontMatter
import DemoPages.Layout
import DemoPages.Registry
import DemoPages.Store

/-!
# A pass over a page

A pass takes the front matter off, replaces the demos by references, has the components of the
last pass over the page removed and the new ones registered, puts the imports in front and lays
the references out. What a pass works on is a `Pass.State`; a pass that fails leaves the state it
has reached. Until all components are computed, that is the state it began with, but for the codes
shown.
-/

namespace DemoPages

/-- Whoever keeps the components: told which to remove, then which to register. -/
structure Keeper (σ : Type) where
  remove : List String → EStateM Fault σ Unit
  register : List Artifact → EStateM Fault σ Unit

/-- A store and its disk keep components; files come and go by a device. -/
def Keeper.depotBy (device : Disk.Device) : Keeper Depot :=
  ⟨Depot.removeBy device, Depot.registerBy device⟩

/-- A store and its disk keep components. -/
def Keeper.depot : Keeper Depot := ⟨Depot.remove, Depot.register⟩

/-- How demos are taken out of the page `file` of the project at `root`. -/
structure Extractor where
  file : String
  root : String
  highlighter : Highlighter
  options : Options := {}

/-- An extractor, if page and project are named. -/
def Extractor.make (file root : String) (highlighter : Highlighter) (options : Options) :
    Except Fault Extractor :=
  if file = "" then .error .noFile
  else if root = "" then .error .noRoot
  else .ok { file, root, highlighter, options }

namespace Pass

/-- What a pass works on: the blocks of the page, the codes shown to the highlighter, the registry,
and what the keeper has. -/
structure State (σ : Type) where
  blocks : List Node
  shown : List String := []
  registry : Registry := {}
  kept : σ

variable {σ α : Type}

/-- A step that only shows codes. -/
def onShown (act : EStateM Fault (List String) α) : EStateM Fault (State σ) α := fun s =>
  match act s.shown with
  | .ok a shown => .ok a { s with shown }
  | .error f shown => .error f { s with shown }

/-- A step of the keeper. -/
def onKept (act : EStateM Fault σ α) : EStateM Fault (State σ) α := fun s =>
  match act s.kept with
  | .ok a kept => .ok a { s with kept }
  | .error f kept => .error f { s with kept }

/-- A step during which the lock of a page is held. -/
def holding (file : String) (act : EStateM Fault (State σ) α) : EStateM Fault (State σ) α :=
  fun s =>
    match act { s with registry := s.registry.hold file } with
    | .ok a s => .ok a { s with registry := s.registry.free file }
    | .error f s => .error f { s with registry := s.registry.free file }

/-- Has the components of the last pass removed, records the names of the new ones, and has these
registered. -/
def exchange (keeper : Keeper σ) (file : String) (artifacts : List Artifact) :
    EStateM Fault (State σ) Unit := do
  let before := (← get).registry.get file
  onKept (keeper.remove before)
  modify fun s => { s with registry := s.registry.set file (artifacts.map Artifact.name) }
  onKept (keeper.register artifacts)

/-- One pass. -/
def run (here : Place) (keeper : Keeper σ) (e : Extractor) : EStateM Fault (State σ) Unit := do
  let (blocks, columns) ← MonadExcept.ofExcept (FrontMatter.directive (← get).blocks)
  let replacements ←
    onShown (Replacement.build here e.file e.root e.highlighter e.options blocks)
  let artifacts := replacements.map Replacement.artifact
  modify fun s => { s with blocks := Replacement.splice blocks replacements }
  holding e.file (exchange keeper e.file artifacts)
  modify fun s => { s with
    blocks := Layout.columns (.markup (preamble artifacts) :: s.blocks) columns e.options.layout }

end Pass

end DemoPages
