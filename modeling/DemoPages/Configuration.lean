import DemoPages.Text.Utf8
import DemoPages.Yaml.Document

/-!
# Configuration files

What settings ask of a configuration: whether it is a mapping, which of its keys are texts, and for
each value whether it is a text, or what a field takes it for. How a text becomes a configuration is
up to a reader, whose faults say whether the text is to blame. `Document.ofText` is such a reader,
for the part of YAML that `Yaml.ofText` knows.
-/

namespace DemoPages.Settings

/-! ## Values and keys -/

/-- What is wrong with a value. -/
inductive Flaw where
  | noText
  | undecodable
  | badExtension
  deriving DecidableEq, Repr

/-- The name of a flaw. -/
def Flaw.name : Flaw → String
  | .noText => "string_type"
  | .undecodable => "string_unicode"
  | .badExtension => "string_pattern_mismatch"

/-- The words for a flaw. -/
def Flaw.message : Flaw → String
  | .noText => "Input should be a valid string"
  | .undecodable => "Input should be a valid string, unable to parse raw data as a unicode string"
  | .badExtension => "String should match pattern '^\\.\\w+$'"

/-- What is given for a field. -/
inductive Given where
  | text (value : String)
  /-- A value that is no text, but that a field takes for one, as it takes bytes. -/
  | taken (value : String)
  /-- A value that no field takes for a text. -/
  | refused (flaw : Flaw)
  deriving DecidableEq, Repr

/-- The text that a value is read as. -/
def Given.read : Given → Except Flaw String
  | .text s => .ok s
  | .taken s => .ok s
  | .refused flaw => .error flaw

/-- Bytes are taken for the text that they encode. -/
def Given.ofBytes (bs : List UInt8) : Given :=
  match Text.Utf8.decode bs with
  | .ok s => .taken s
  | .error _ => .refused .undecodable

/-- What stands for a field in a configuration. -/
def Given.ofYaml : Yaml → Given
  | .text s => .text s
  | .scalar (.bytes bs) => .ofBytes bs
  | .scalar .broken => .refused .undecodable
  | _ => .refused .noText

/-- A key of a mapping. -/
inductive Key where
  | text (key : String)
  /-- A string that is no text, since it has half a character in it. No field has such a key. -/
  | broken
  /-- A key that is no string. -/
  | other
  deriving DecidableEq, Repr

/-- What stands in front of a value in a configuration. -/
def Key.ofYaml : Yaml → Key
  | .text s => .text s
  | .scalar .broken => .broken
  | _ => .other

/-- The text of a key that is one. -/
def Key.text? : Key → Option String
  | .text key => some key
  | _ => none

/-! ## Documents -/

/-- A configuration. -/
inductive Document where
  /-- A value that counts as nothing. -/
  | nothing
  | mapping (entries : List (Key × Given))
  /-- A set, to which entries can be added, but which has no values. -/
  | members
  | other
  deriving DecidableEq, Repr

/-- The entries of a configuration; there are none if it is nothing. -/
def Document.entries? : Document → Option (List (Key × Given))
  | .nothing => some []
  | .mapping entries => some entries
  | _ => none

/-- Why a text is no configuration. -/
inductive Document.Fault where
  /-- The text is not well formed. -/
  | malformed (details : String)
  /-- A value in it is not what it should be. -/
  | badValue (message : String)
  /-- The reader was not prepared for it. -/
  | unprepared (message : String)
  deriving DecidableEq, Repr

/-- A reader of configurations. -/
abbrev Reader : Type := (text : String) → Except Document.Fault Document

/-- The configuration that a value makes. -/
def Document.ofYaml (v : Yaml) : Document :=
  if v.isNothing then .nothing
  else
    match v with
    | .mapping entries => .mapping (entries.map fun e => (.ofYaml e.1, .ofYaml e.2))
    | .members _ => .members
    | _ => .other

/-- A fault of a text that is no value. -/
def Document.Fault.ofYaml (f : Yaml.Fault) : Document.Fault :=
  if f = .malformed then .malformed f.message
  else if f.isBadValue then .badValue f.message
  else .unprepared f.message

/-- Reads a configuration. -/
def Document.ofText : Reader := fun text =>
  match Yaml.ofText text with
  | .error f => .error (.ofYaml f)
  | .ok v => .ok (.ofYaml v)

end DemoPages.Settings
