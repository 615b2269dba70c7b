import DemoPages.Disk
import DemoPages.Text.Decimal

/-!
# Faults

Everything that can go wrong with a page, as causes, and the words for each in one place.
-/

namespace DemoPages

/-- Why a page, or a step of a pass over it, fails. -/
inductive Fault where
  /-- A page was named without a file. -/
  | noFile
  /-- A page was named without a project root. -/
  | noRoot
  /-- A component was to be named after an empty path. -/
  | emptyIdentity
  /-- A numeral has too many digits. -/
  | tooManyDigits (count : Nat)
  /-- There is no dialect of this name. -/
  | unknownDialect (name : String)
  /-- There is no style of this name. -/
  | unknownStyle (name : String)
  /-- The path of a component leads out of the output directory. -/
  | escapes (path output : String)
  /-- A page does not lie below the project root. -/
  | outsideRoot (path root : String)
  /-- The bytes of a page are no text. -/
  | undecodable (fault : Text.Utf8.Fault)
  | disk (fault : Disk.Fault)
  /-- A highlighter gave up. -/
  | highlighter (message : String)
  /-- The keeper of the components gave up. -/
  | keeper (message : String)
  /-- The page at `path` failed. -/
  | page (path : String) (cause : Fault)
  deriving DecidableEq, Repr

/-- The words for a fault. -/
def Fault.message : Fault → String
  | .noFile => "file identity is required"
  | .noRoot => "root identity is required"
  | .emptyIdentity => "file identity must be a non-empty path"
  | .tooManyDigits count =>
    "Exceeds the limit (" ++ Nat.repr Text.maxDigits ++
      " digits) for integer string conversion: value has " ++ Nat.repr count ++
      " digits; use sys.set_int_max_str_digits() to increase the limit"
  | .unknownDialect name =>
    Text.quoted ("Wrong `markdown-it` preset " ++ Text.quoted name ++ ", check name")
  | .unknownStyle name =>
    "Could not find style module " ++ Text.quoted ("pygments.styles." ++ name) ++ "."
  | .escapes path output => "Component path " ++ path ++ " escapes " ++ output
  | .outsideRoot path root => path ++ " is outside the project root " ++ root
  | .undecodable fault => fault.message
  | .disk fault => fault.message
  | .highlighter message => message
  | .keeper message => message
  | .page path cause => "Failed to transform " ++ path ++ ": " ++ cause.message

end DemoPages
