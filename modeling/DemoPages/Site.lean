import DemoPages.Pass
import DemoPages.Tools

/-!
# A site

`discover` finds the pages at a path, and `run` builds each of them and writes it, with its
components, below the output directory. A page that fails ends the run; what was done before
stays.
-/

namespace DemoPages.Site

/-- What the runs over a site work on: the registry, and the store with its disk. -/
structure State where
  registry : Registry := {}
  depot : Depot := {}
  deriving Repr

/-- A step of a run. -/
abbrev Action (α : Type) : Type := EStateM Fault State α

/-- A page that was built: where it was read and written, and the names of its components. -/
structure Result where
  source : Path
  written : Path
  names : List String
  deriving DecidableEq, Repr

/-! ## Finding pages -/

/-- Does a path have the suffix of a page? -/
def isPage (p : Path) : Bool := p.suffix == ".md" || p.suffix == ".mdx"

/-- The pages at a path: the file itself, or what lies below the directory, in the order of the
segments. -/
def discover (d : Disk) (p : Path) : List Path :=
  if d.isFile p then [p].filter isPage
  else
    ((d.below p).filter isPage).mergeSort fun a b => !b.segments.lex a.segments

/-! ## Building pages -/

/-- An operation on the disk. -/
def onDisk {α : Type} (act : Disk.Action α) : Action α := fun s =>
  match Depot.onDisk act s.depot with
  | .ok a depot => .ok a { s with depot }
  | .error f depot => .error f { s with depot }

/-- The options that the settings give. -/
def options (s : Settings) : Options where
  lang := s.language
  namePrefix := s.namePrefix
  wrapper := s.wrapper
  previewKey := s.previewKey
  layout := s.layout
  extension := s.extension

/-- How demos are taken out of the page at a place. -/
def extractor (tools : Tools) (s : Settings) (root source : Place) : Extractor where
  file := source.toString
  root := root.toString
  highlighter := tools.highlighter s.shading s.style
  options := options s

/-- One pass over some blocks; the answer is what they become. -/
def extract (e : Extractor) (blocks : List Node) : Action (List Node) := fun s =>
  match Pass.run s.depot.disk.here .depot e
      { blocks, registry := s.registry, kept := s.depot } with
  | .ok () t => .ok t.blocks { registry := t.registry, depot := t.kept }
  | .error f t => .error f { registry := t.registry, depot := t.kept }

/-- The place of the project root. -/
def root (s : Settings) (d : Disk) : Except Fault Place :=
  let p := Path.ofString s.root
  if Disk.hasNull p then .error (.disk ⟨.nullByte, s.root⟩) else .ok (Place.resolve d.here p)

/-- Builds and writes the page at a path. -/
def page (tools : Tools) (s : Settings) (root : Place) (p : Path) : Action Result := do
  let d := (← get).depot.disk
  let source := Place.resolve d.here p
  if root.isPrefixOf source then
    let written := (Path.ofString s.output).join ⟨.here, source.drop root.length⟩
    let blocks ← MonadExcept.ofExcept (Page.read tools.reader source.toPath s.dialect d)
    let blocks ← extract (extractor tools s root source) blocks
    onDisk (Disk.ensureDirectories written.parent)
    onDisk (Disk.writeText written (pageText blocks))
    return ⟨p, written, (← get).registry.get source.toString⟩
  else throw (.outsideRoot source.toString root.toString)

/-- A step on the page at a path, whose fault names the page. -/
def naming {α : Type} (p : Path) (act : Action α) : Action α := fun s =>
  match act s with
  | .error f t => .error (.page p.toString f) t
  | done => done

/-- Builds and writes pages, one after the other. -/
def pages (tools : Tools) (s : Settings) (root : Place) : List Path → Action (List Result)
  | [] => return []
  | p :: ps => do
    let r ← naming p (page tools s root p)
    return r :: (← pages tools s root ps)

/-- Builds and writes all pages at a path. -/
def run (tools : Tools) (s : Settings) (path : String) : Action (List Result) := do
  let d := (← get).depot.disk
  let root ← MonadExcept.ofExcept (root s d)
  pages tools s root (discover d (.ofString path))

end DemoPages.Site
