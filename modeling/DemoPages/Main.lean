import DemoPages.Cli

/-!
# The program

Reads the tree below the current directory and below the paths among the arguments, answers the
command, and carries out what it did to the disk.
-/

namespace DemoPages.Main

/-- The deepest nesting of directories that is read. -/
def maxDepth : Nat := 128

/-- What lies at a path and below it, by absolute places. -/
def entriesAt : (depth : Nat) → (path : String) → IO (List (Place × Disk.Entry))
  | 0, _ => return []
  | depth + 1, path => do
    let path := (← IO.currentDir) / path
    let place := Place.resolve [] (.ofString path.toString)
    if ← path.isDir then
      let inside ← (← path.readDir).toList.mapM fun e => entriesAt depth e.path.toString
      return (place, .directory) :: inside.flatten
    else if ← path.pathExists then return [(place, .file (← IO.FS.readBinFile path).toList)]
    else return []

/-- Adds entries to those that are not there yet. -/
def addEntries (d : Disk) (entries : List (Place × Disk.Entry)) : Disk :=
  { d with entries := ⟨d.entries.entries ++
      entries.filter fun e => (d.entries.get? e.1).isNone⟩ }

/-- The part of the disk that a command line is about. -/
def readDisk (words : List String) : IO Disk := do
  let here := Place.resolve [] (.ofString (← IO.currentDir).toString)
  let mut d := Disk.ofHere here
  for path in "." :: words do
    d := addEntries d (← entriesAt maxDepth path)
  return d

/-- Carries out the changes from one disk to another. -/
def writeChanges (before after : Disk) : IO Unit := do
  for (place, _) in before.entries.entries do
    if (after.entries.get? place).isNone then IO.FS.removeFile place.toString
  for (place, entry) in after.entries.entries do
    if before.entries.get? place ≠ some entry then
      match entry with
      | .directory => IO.FS.createDirAll place.toString
      | .file bytes => IO.FS.writeBinFile place.toString ⟨bytes.toArray⟩

/-- The variables of the environment that settings are read from. -/
def readVariables : IO (List (String × Settings.Given)) :=
  Settings.Field.all.filterMapM fun f => do
    return (← IO.getEnv f.variableName).map fun value => (f.variableName, .text value)

end DemoPages.Main

open DemoPages DemoPages.Main in
/-- Answers the command line. -/
def main (words : List String) : IO UInt32 := do
  let before ← readDisk words
  let (outcome, after) := DemoPages.Cli.run .own (← readVariables) words before
  writeChanges before after
  IO.print outcome.out
  IO.eprint outcome.err
  if let some e := outcome.escaped then IO.eprintln e.message
  return outcome.status.toUInt32
