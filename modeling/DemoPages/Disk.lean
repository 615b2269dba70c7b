import DemoPages.Keyed
import DemoPages.Path
import DemoPages.Text.Percent
import DemoPages.Text.Quoted
import DemoPages.Text.Utf8

/-!
# The disk

Directories and files at their places, and the directory that relative paths are read from. There
are no symbolic links, so every place has one path without double dots. A path is followed one
segment at a time, so double dots lead out of a directory only if it is there. An operation that
fails names the path it was given, and leaves what it did before.
-/

namespace DemoPages

/-- What lies at a place: a directory, or a file with its bytes. -/
inductive Disk.Entry where
  | directory
  | file (bytes : List UInt8)
  deriving DecidableEq, Repr

/-- Directories and files, and the current directory. The root is always a directory. -/
structure Disk where
  here : Place := []
  entries : Keyed Place Disk.Entry := {}
  deriving Repr

namespace Disk

/-- Why an operation fails. -/
inductive Cause where
  | missing
  | present
  | notDirectory
  | isDirectory
  /-- A name may not hold the character of number zero. -/
  | nullByte
  deriving DecidableEq, Repr

/-- A failed operation: why, and on which path. -/
structure Fault where
  cause : Cause
  path : String
  deriving DecidableEq, Repr

/-- The words for a fault. -/
def Fault.message (f : Fault) : String :=
  match f.cause with
  | .missing => "[Errno 2] No such file or directory: " ++ Text.quoted f.path
  | .present => "[Errno 17] File exists: " ++ Text.quoted f.path
  | .notDirectory => "[Errno 20] Not a directory: " ++ Text.quoted f.path
  | .isDirectory => "[Errno 21] Is a directory: " ++ Text.quoted f.path
  | .nullByte => "embedded null byte"

/-- An operation on the disk. -/
abbrev Action (α : Type) : Type := EStateM Fault Disk α

/-- A disk with the directory `here` and those above it, and nothing else. -/
def ofHere (here : Place) : Disk :=
  ⟨here, ⟨(List.range here.length).map fun n => (here.take (n + 1), .directory)⟩⟩

/-! ## Looking -/

/-- What lies at a place. -/
def look? (d : Disk) (p : Place) : Option Entry :=
  if p = [] then some .directory else d.entries.get? p

/-- The bytes of the file at a place. -/
def bytes? (d : Disk) (p : Place) : Option (List UInt8) :=
  match d.look? p with
  | some (.file bytes) => some bytes
  | _ => none

/-- Where `segments` lead from the directory at a place; the last of them need not be there. -/
def walk (d : Disk) : Place → List String → Except Cause Place
  | base, [] => .ok base
  | base, s :: rest =>
    match d.look? base with
    | none => .error .missing
    | some (.file _) => .error .notDirectory
    | some .directory => d.walk (if s = ".." then base.dropLast else base ++ [s]) rest

/-- Does a segment of the path hold the character of number zero? -/
def hasNull (p : Path) : Bool := p.segments.any fun s => s.toList.contains '\x00'

/-- Where a path leads, if all but its last segment are directories. -/
def locate (d : Disk) (p : Path) : Except Cause Place :=
  if hasNull p then .error .nullByte
  else d.walk (if p.anchor = .here then d.here else []) p.segments

/-- What a path leads to. -/
def find? (d : Disk) (p : Path) : Option Entry :=
  match d.locate p with
  | .ok place => d.look? place
  | .error _ => none

/-- Does the path lead to a file? -/
def isFile (d : Disk) (p : Path) : Bool :=
  match d.find? p with
  | some (.file _) => true
  | _ => false

/-- Does the path lead to a directory? -/
def isDirectory (d : Disk) (p : Path) : Bool :=
  match d.find? p with
  | some .directory => true
  | _ => false

/-- Everything below the directory that a path leads to, as paths that begin with it. -/
def below (d : Disk) (p : Path) : List Path :=
  match d.locate p with
  | .error _ => []
  | .ok base =>
    if d.look? base = some .directory then
      (d.entries.keys.filter fun q => base.isPrefixOf q && base.length < q.length).map fun q =>
        { p with segments := p.segments ++ q.drop base.length }
    else []

/-! ## Changing -/

/-- The disk with something else at a place. -/
def set (d : Disk) (p : Place) (e : Entry) : Disk := { d with entries := d.entries.put p e }

/-- The disk with nothing at a place. -/
def clear (d : Disk) (p : Place) : Disk := { d with entries := d.entries.erase p }

/-- Makes one directory. -/
def makeDirectory (p : Path) : Action Unit := fun d =>
  match d.locate p with
  | .error cause => .error ⟨cause, p.toString⟩ d
  | .ok place =>
    if p.segments.getLast? = some ".." ∨ (d.look? place).isSome then
      .error ⟨.present, p.toString⟩ d
    else .ok () (d.set place .directory)

/-- Makes a directory unless it is there. -/
def ensureDirectory (p : Path) : Action Unit := fun d =>
  match makeDirectory p d with
  | .ok () d' => .ok () d'
  | .error f d' =>
    if f.cause ≠ .missing ∧ f.cause ≠ .nullByte ∧ d'.isDirectory p then .ok () d' else .error f d'

/-- Makes the directory of the first `n` segments of `p`, with those above it that are missing. -/
def ensureSegments (p : Path) : (n : Nat) → Action Unit
  | 0 => ensureDirectory { p with segments := [] }
  | n + 1 => fun d =>
    let q := { p with segments := p.segments.take (n + 1) }
    match ensureDirectory q d with
    | .error f d' =>
      if f.cause = .missing then (do ensureSegments p n; ensureDirectory q) d' else .error f d'
    | done => done

/-- Makes a directory, with those above it that are missing, unless it is there. -/
def ensureDirectories (p : Path) : Action Unit := ensureSegments p p.segments.length

/-- Writes a file whose directory is there, in place of an older one. -/
def writeBytes (p : Path) (bytes : List UInt8) : Action Unit := fun d =>
  match d.locate p with
  | .error cause => .error ⟨cause, p.toString⟩ d
  | .ok place =>
    if d.look? place = some .directory then .error ⟨.isDirectory, p.toString⟩ d
    else .ok () (d.set place (.file bytes))

/-- Writes a text in UTF-8. -/
def writeText (p : Path) (text : String) : Action Unit :=
  writeBytes p (Text.Percent.utf8 text.toList)

/-- Reads the bytes of a file. -/
def readBytes (p : Path) : Action (List UInt8) := fun d =>
  match d.locate p with
  | .error cause => .error ⟨cause, p.toString⟩ d
  | .ok place =>
    match d.look? place with
    | none => .error ⟨.missing, p.toString⟩ d
    | some .directory => .error ⟨.isDirectory, p.toString⟩ d
    | some (.file bytes) => .ok bytes d

/-- Deletes a file; it is no fault if there is none. -/
def deleteFile (p : Path) : Action Unit := fun d =>
  match d.locate p with
  | .error .missing => .ok () d
  | .error cause => .error ⟨cause, p.toString⟩ d
  | .ok place =>
    match d.look? place with
    | none => .ok () d
    | some .directory => .error ⟨.isDirectory, p.toString⟩ d
    | some (.file _) => .ok () (d.clear place)

/-- The operations by which files come and go. -/
structure Device where
  ensureDirectories : Path → Action Unit
  writeText : Path → String → Action Unit
  deleteFile : Path → Action Unit

/-- The operations of a disk that is in order. -/
def Device.sound : Device :=
  ⟨Disk.ensureDirectories, Disk.writeText, Disk.deleteFile⟩

end Disk

end DemoPages
