/-!
# Pieces

Cutting a text at a separator and joining pieces with one: `split` gives one piece more than the
text has separators, and joining the pieces gives the text back.
-/

namespace DemoPages.Text

/-- Puts `c` at the start of the first piece. -/
def consPiece (c : Char) : List (List Char) → List (List Char)
  | [] => [[c]]
  | p :: ps => (c :: p) :: ps

/-- The pieces of a text between the characters `sep`. -/
def split (sep : Char) : List Char → List (List Char)
  | [] => [[]]
  | c :: s => if c = sep then [] :: split sep s else consPiece c (split sep s)

/-- The texts, with `sep` between each two. -/
def joinWith (sep : String) : List String → String
  | [] => ""
  | [s] => s
  | s :: t :: r => s ++ sep ++ joinWith sep (t :: r)

/-- What stands in front of the first `sep`, and what stands behind it if there is one. -/
def cut (sep : Char) : List Char → List Char × Option (List Char)
  | [] => ([], none)
  | c :: s =>
    if c = sep then ([], some s) else ((cut sep s).1.cons c, (cut sep s).2)

/-! ## Joining what was split -/

theorem split_ne_nil (sep : Char) (s : List Char) : split sep s ≠ [] := by
  cases s with
  | nil => simp [split]
  | cons c s =>
    simp only [split]
    split
    · simp
    · cases h : Text.split sep s <;> simp [consPiece]

theorem intercalate_consPiece (sep c : Char) {ps : List (List Char)} (h : ps ≠ []) :
    [sep].intercalate (consPiece c ps) = c :: [sep].intercalate ps := by
  match ps with
  | [] => exact absurd rfl h
  | [p] => simp [consPiece, List.intercalate]
  | p :: q :: r => simp [consPiece, List.intercalate, List.intersperse]

theorem intercalate_split (sep : Char) (s : List Char) : [sep].intercalate (split sep s) = s := by
  induction s with
  | nil => simp [split, List.intercalate]
  | cons c s ih =>
    simp only [split]
    split
    · rename_i h
      subst h
      cases hs : Text.split c s with
      | nil => exact absurd hs (split_ne_nil c s)
      | cons p ps =>
        rw [hs] at ih
        simp only [List.intercalate, List.intersperse_cons_cons, List.flatten_cons, List.nil_append,
          List.singleton_append] at ih ⊢
        rw [ih]
    · rw [intercalate_consPiece sep c (split_ne_nil sep s), ih]

end DemoPages.Text
