import DemoPages.Text.Pieces

/-!
# Paths

A path is a list of segments behind an anchor. Reading one drops empty segments and single dots
and keeps double dots; resolving one against a directory also takes double dots away, each with
the segment in front of it. A place is an absolute path so resolved, as its list of segments.
-/

namespace DemoPages

/-- What a path starts from. -/
inductive Anchor where
  | here
  | root
  /-- The root written with two slashes, which is kept so. -/
  | doubleRoot
  deriving DecidableEq, Repr

/-- A path: an anchor and segments, none of them empty or a single dot. -/
structure Path where
  anchor : Anchor := .here
  segments : List String := []
  deriving DecidableEq, Repr

/-- The segments of an absolute path without double dots. -/
abbrev Place := List String

namespace Path

/-- The pieces of a text between slashes. -/
def pieces (s : String) : List String := (Text.split '/' s.toList).map String.ofList

/-- Does a piece of a text name something? Nothing and a single dot do not. -/
def isSegment (p : String) : Bool := p ≠ "" && p ≠ "."

/-- The anchor of a text: three or more slashes count as one. -/
def anchorOf : List Char → Anchor
  | '/' :: '/' :: '/' :: _ => .root
  | '/' :: '/' :: _ => .doubleRoot
  | '/' :: _ => .root
  | _ => .here

/-- Does a text start at the root? -/
def isAnchored (s : String) : Bool := s.toList.head? = some '/'

/-- Reads a path. -/
def ofString (s : String) : Path := ⟨anchorOf s.toList, (pieces s).filter isSegment⟩

/-- The text of a path; the path without anchor and segments is a single dot. -/
def toString (p : Path) : String :=
  let body := Text.joinWith "/" p.segments
  match p.anchor with
  | .here => if p.segments = [] then "." else body
  | .root => "/" ++ body
  | .doubleRoot => "//" ++ body

/-- The path `q`, read from `p` unless it is absolute. -/
def join (p q : Path) : Path :=
  if q.anchor = .here then ⟨p.anchor, p.segments ++ q.segments⟩ else q

/-- The path without its last segment. -/
def parent (p : Path) : Path := { p with segments := p.segments.dropLast }

/-- The last segment, or nothing. -/
def name (p : Path) : String := p.segments.getLastD ""

/-- The end of a name from its last dot on, unless the dot stands first or last. -/
def suffixOf (name : List Char) : List Char :=
  let after := name.reverse.takeWhile (· ≠ '.')
  let before := name.length - after.length - 1
  if after = [] ∨ before = 0 ∨ name.length = after.length then [] else '.' :: after.reverse

/-- The suffix of the name of a path. -/
def suffix (p : Path) : String := String.ofList (suffixOf p.name.toList)

end Path

namespace Place

/-- Takes the double dots out of a list of segments; those above the root have no effect. -/
def settle (segments : List String) : Place :=
  segments.foldl (fun acc s => if s = ".." then acc.dropLast else acc ++ [s]) []

/-- The text of a place. -/
def toString (p : Place) : String := "/" ++ Text.joinWith "/" p

/-- The place that `p` leads to from the directory `here`. -/
def resolve (here : Place) (p : Path) : Place :=
  settle ((if p.anchor = .here then here else []) ++ p.segments)

/-- A place, as a path. -/
def toPath (p : Place) : Path := ⟨.root, p⟩

/-- How many segments two places have in common at their start. -/
def common : Place → Place → Nat
  | a :: as, b :: bs => if a = b then common as bs + 1 else 0
  | _, _ => 0

/-- The segments that lead from `start` to `target`: up to where the two part, and down. -/
def route (start target : Place) : List String :=
  let n := common start target
  List.replicate (start.length - n) ".." ++ target.drop n

/-- Where `name` lies when it is read beside the file `file`, whose path is read from `here`. -/
def beside (here : Place) (file name : String) : Place :=
  let base :=
    if Path.isAnchored name then []
    else (if Path.isAnchored file then [] else here) ++ (Path.pieces file).dropLast
  settle ((base ++ Path.pieces name).filter Path.isSegment)

end Place

/-- The path of `name` beside the page `file`, as seen from the directory `root`, behind a slash.
Paths that are not absolute are read from `here`. -/
def artifactPath (here : Place) (file root name : String) : String :=
  let start := Place.resolve here (.ofString root)
  match Place.route start (Place.beside here file name) with
  | [] => "/."
  | route => "/" ++ Text.joinWith "/" route

example : artifactPath [] "/docs/guide/x.md" "/docs" "Demo.vue" = "/guide/Demo.vue" := by decide

end DemoPages
