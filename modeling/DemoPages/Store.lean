import DemoPages.Component.Artifact

/-!
# The store of components

Components by name, and on the disk if there is an output directory. Registering refuses a path
that leads out of the directory before anything is changed. Removing forgets a component before
its file is deleted. Files are written and deleted by a device, which is that of a sound disk
unless another one is named.
-/

namespace DemoPages

/-- The components by name, and the output directory. -/
structure Store where
  output : Option Path := none
  artifacts : Keyed String Artifact := {}
  deriving Repr

/-- A store, and the disk that it writes to. -/
structure Depot where
  store : Store := {}
  disk : Disk := {}
  deriving Repr

namespace Store

/-- The names of the components, in the order in which they came. -/
def names (s : Store) : List String := s.artifacts.keys

/-- The component of a name. -/
def get? (s : Store) (name : String) : Option Artifact := s.artifacts.get? name

/-- The place of a component's file below the output directory. -/
def target (here : Place) (output : Path) (artifact : Artifact) : Except Fault Place :=
  let inside := Path.ofString (String.ofList (artifact.path.toList.dropWhile (· = '/')))
  let whole := output.join inside
  if Disk.hasNull whole then .error (.disk ⟨.nullByte, whole.toString⟩)
  else
    let base := Place.resolve here output
    let place := Place.settle (base ++ inside.segments)
    if base.isPrefixOf place then .ok place
    else .error (.escapes artifact.path output.toString)

/-- The places of the files of some components; the first that has none is the fault. -/
def targets (here : Place) (output : Path) : List Artifact → Except Fault (List Place)
  | [] => .ok []
  | a :: as =>
    match target here output a with
    | .error f => .error f
    | .ok p => (targets here output as).map (p :: ·)

end Store

namespace Depot

/-- An operation on a store and its disk. -/
abbrev Action (α : Type) : Type := EStateM Fault Depot α

/-- An operation on the disk of a store. -/
def onDisk {α : Type} (act : Disk.Action α) : Action α := fun d =>
  match act d.disk with
  | .ok a disk => .ok a { d with disk }
  | .error f disk => .error (.disk f) { d with disk }

/-- Keeps some components under their names. -/
def keep (artifacts : List Artifact) (d : Depot) : Depot :=
  { d with store := { d.store with
      artifacts := artifacts.foldl (fun m a => m.put a.name a) d.store.artifacts } }

/-- Writes the code of each component to its place, making the directories that are missing. -/
def writeAll (device : Disk.Device) : List (Artifact × Place) → Action Unit
  | [] => return ()
  | (a, place) :: rest => do
    onDisk (device.ensureDirectories (Place.toPath place.dropLast))
    onDisk (device.writeText (Place.toPath place) a.code)
    writeAll device rest

/-- Takes some components in, and writes them by a device if there is an output directory. -/
def registerBy (device : Disk.Device) (artifacts : List Artifact) : Action Unit := fun d =>
  match d.store.output with
  | none => .ok () (d.keep artifacts)
  | some output =>
    match Store.targets d.disk.here output artifacts with
    | .error f => .error f d
    | .ok places => writeAll device (artifacts.zip places) (d.keep artifacts)

/-- Takes some components in, and writes them if there is an output directory. -/
def register : List Artifact → Action Unit := registerBy .sound

/-- Keeps no component under this name. -/
def forget (name : String) (d : Depot) : Depot :=
  { d with store := { d.store with artifacts := d.store.artifacts.erase name } }

/-- Forgets one component and deletes its file by a device; nothing happens if there is none. -/
def removeOne (device : Disk.Device) (name : String) : Action Unit := fun d =>
  match d.store.get? name with
  | none => .ok () d
  | some a =>
    match d.store.output with
    | none => .ok () (d.forget name)
    | some output =>
      match Store.target d.disk.here output a with
      | .error f => .error f (d.forget name)
      | .ok place => onDisk (device.deleteFile (Place.toPath place)) (d.forget name)

/-- Forgets some components, one by one, and deletes their files by a device. -/
def removeBy (device : Disk.Device) : List String → Action Unit
  | [] => return ()
  | name :: names => do
    removeOne device name
    removeBy device names

/-- Forgets some components, one by one, and deletes their files. -/
def remove : List String → Action Unit := removeBy .sound

end Depot

end DemoPages
