import DemoPages.Proofs.Contents

/-!
# The lines that front matter stands between

What is taken off the start of a text is told by its lines (`split_ofLines`): the block begins
behind the blank lines that follow the opening line, its first line is taken whatever it says, and
it ends at the next marker. So a block ends at the first marker behind the opening line, except
where nothing but blank lines stand between the two (`split_ends_first_iff`): the first marker is
then a line of the block, and one further down closes it.
-/

namespace DemoPages.FrontMatter

open Text (isBlank)

/-! ### Lines -/

/-- Three hyphens, and nothing but white space behind them. -/
def isMarker (line : List Char) : Bool := (afterMarker? line).any (·.all isBlank)

/-- The text of some lines. -/
def ofLines (ls : List (List Char)) : List Char := ['\n'].intercalate ls

/-- Drops the blank lines at the start, but never the last line. -/
def dropBlank : List (List Char) → List (List Char)
  | l :: m :: ls => if l.all isBlank then dropBlank (m :: ls) else l :: m :: ls
  | ls => ls

/-- The lines in front of the first marker, and the lines behind it. The last line has no line feed
at its end, and is none. -/
def untilMarker? : List (List Char) → Option (List (List Char) × List (List Char))
  | l :: m :: ls =>
    if isMarker l then some ([], m :: ls)
    else (untilMarker? (m :: ls)).map fun p => (l :: p.1, p.2)
  | _ => none

/-- The lines of the front matter and the lines behind it, if these lines follow the opening line.
The first line is not asked whether it is a marker. -/
def front? : List (List Char) → Option (List (List Char) × List (List Char))
  | [] => none
  | l :: ls =>
    (if l.all isBlank then front? ls else none).or
      ((untilMarker? ls).map fun p => (l :: p.1, p.2))

theorem ofLines_split (s : List Char) : ofLines (Text.split '\n' s) = s :=
  Text.intercalate_split '\n' s

theorem ofLines_cons (l : List Char) {ls : List (List Char)} (h : ls ≠ []) :
    ofLines (l :: ls) = l ++ '\n' :: ofLines ls := by
  cases ls with
  | nil => exact absurd rfl h
  | cons m ls => simp [ofLines, List.intercalate_cons_cons]

theorem ofLines_singleton (l : List Char) : ofLines [l] = l := by simp [ofLines]

theorem dropBlank_singleton (l : List Char) : dropBlank [l] = [l] := rfl

theorem dropBlank_cons (l : List Char) {ls : List (List Char)} (h : ls ≠ []) :
    dropBlank (l :: ls) = if l.all isBlank then dropBlank ls else l :: ls := by
  cases ls with
  | nil => exact absurd rfl h
  | cons m ls => rfl

theorem dropBlank_suffix (ls : List (List Char)) : dropBlank ls <:+ ls := by
  induction ls with
  | nil => exact List.suffix_rfl
  | cons l ls ih =>
    by_cases hls : ls = []
    · subst hls
      exact List.suffix_rfl
    · rw [dropBlank_cons l hls]
      split
      · exact ih.trans (List.suffix_cons l ls)
      · exact List.suffix_rfl

theorem untilMarker?_cons (l : List Char) {ls : List (List Char)} (h : ls ≠ []) :
    untilMarker? (l :: ls) = if isMarker l then some ([], ls)
      else (untilMarker? ls).map fun p => (l :: p.1, p.2) := by
  cases ls with
  | nil => exact absurd rfl h
  | cons m ls => rfl

theorem hyphen_mem_of_isMarker {l : List Char} (h : isMarker l = true) : '-' ∈ l := by
  unfold isMarker afterMarker? at h
  split at h
  case h_1 => exact List.mem_cons_self
  case h_2 => cases h

theorem not_blank_of_isMarker {l : List Char} (h : isMarker l = true) : l.all isBlank = false := by
  rw [Bool.eq_false_iff]
  intro hall
  exact absurd (List.all_eq_true.1 hall '-' (hyphen_mem_of_isMarker h)) (by decide)

/-! ### A line at the start of a text -/

section Line

variable {l : List Char}

theorem afterMarker?_append (t : List Char) :
    afterMarker? (l ++ '\n' :: t) = (afterMarker? l).map (· ++ '\n' :: t) := by
  match l with
  | [] => rfl
  | [a] => simp [afterMarker?]
  | [a, b] => simp [afterMarker?]
  | a :: b :: c :: l =>
    by_cases h : a = '-' ∧ b = '-' ∧ c = '-'
    · obtain ⟨rfl, rfl, rfl⟩ := h
      rfl
    · have hnone (s : List Char) : afterMarker? (a :: b :: c :: s) = none := by
        unfold afterMarker?
        split
        case h_1 heq =>
          cases heq
          exact absurd ⟨rfl, rfl, rfl⟩ h
        case h_2 => rfl
      rw [hnone]
      exact hnone _

theorem afterMarker?_ofLines (l : List Char) (ls : List (List Char)) :
    afterMarker? (ofLines (l :: ls)) = (afterMarker? l).map fun r => ofLines (r :: ls) := by
  cases ls with
  | nil => cases h : afterMarker? l <;> simp [ofLines_singleton, h]
  | cons m ls =>
    simp only [ofLines_cons _ (List.cons_ne_nil m ls)]
    exact afterMarker?_append _

theorem afterLineFeeds_of_not_mem (h : '\n' ∉ l) : afterLineFeeds l = [] := by
  induction l with
  | nil => rfl
  | cons c l ih =>
    rw [List.mem_cons, not_or] at h
    simp [afterLineFeeds, ih h.2, Ne.symm h.1]

theorem afterLineFeeds_append (h : '\n' ∉ l) (t : List Char) :
    afterLineFeeds (l ++ '\n' :: t) =
      if l.all isBlank then afterLineFeeds t ++ [t] else [] := by
  induction l with
  | nil => rfl
  | cons c l ih =>
    rw [List.mem_cons, not_or] at h
    rw [List.cons_append, afterLineFeeds, ih h.2, if_neg (Ne.symm h.1), List.append_nil,
      List.all_cons]
    cases isBlank c <;> rfl

theorem afterClosing?_of_not_mem (h : '\n' ∉ l) : afterClosing? l = none := by
  rw [afterClosing?]
  cases hr : afterMarker? l with
  | none => rfl
  | some r =>
    have hr' : '\n' ∉ r := fun hmem => h ((suffix_of_afterMarker? hr).subset hmem)
    rw [Option.bind_some, afterLineFeeds_of_not_mem hr']
    rfl

theorem close?_of_not_mem (h : '\n' ∉ l) : close? l = none := by
  induction l with
  | nil => rfl
  | cons c l ih =>
    rw [List.mem_cons, not_or] at h
    rw [close?, if_neg (Ne.symm h.1), ih h.2]
    rfl

theorem close?_append (h : '\n' ∉ l) (t : List Char) :
    close? (l ++ '\n' :: t) = ((afterClosing? t).map fun body => (l, body)).or
      ((close? t).map fun fb => (l ++ '\n' :: fb.1, fb.2)) := by
  induction l with
  | nil =>
    rw [List.nil_append, close?, if_pos rfl]
    cases afterClosing? t <;> rfl
  | cons c l ih =>
    rw [List.mem_cons, not_or] at h
    rw [List.cons_append, close?, if_neg (Ne.symm h.1), ih h.2]
    cases afterClosing? t <;> cases close? t <;> rfl

end Line

/-! ### The text by its lines -/

section Lines

variable {ls : List (List Char)}

/-- Behind a blank line, white space is taken up to the start of a line that is not blank. -/
theorem head?_afterLineFeeds {l : List Char} (hl : '\n' ∉ l) (hls : ∀ m ∈ ls, '\n' ∉ m)
    (hne : ls ≠ []) :
    (afterLineFeeds (ofLines (l :: ls))).head? =
      if l.all isBlank then some (ofLines (dropBlank ls)) else none := by
  rw [ofLines_cons l hne, afterLineFeeds_append hl]
  split
  case isFalse => rfl
  case isTrue =>
    rw [List.head?_append]
    induction ls with
    | nil => exact absurd rfl hne
    | cons m ls ih =>
      have hm := hls m List.mem_cons_self
      cases ls with
      | nil =>
        rw [ofLines_singleton, afterLineFeeds_of_not_mem hm, dropBlank_singleton, ofLines_singleton]
        rfl
      | cons k ks =>
        have ih := ih (fun x hx => hls x (List.mem_cons_of_mem m hx)) (List.cons_ne_nil k ks)
        rw [ofLines_cons m (List.cons_ne_nil k ks), afterLineFeeds_append hm, dropBlank]
        split
        case isTrue => rw [List.head?_append, ih]; rfl
        case isFalse => rw [ofLines_cons m (List.cons_ne_nil k ks)]; rfl

theorem afterClosing?_ofLines {l : List Char} (hl : '\n' ∉ l) (hls : ∀ m ∈ ls, '\n' ∉ m)
    (hne : ls ≠ []) :
    afterClosing? (ofLines (l :: ls)) =
      if isMarker l then some (ofLines (dropBlank ls)) else none := by
  rw [afterClosing?, afterMarker?_ofLines, isMarker]
  cases hr : afterMarker? l with
  | none => rfl
  | some r =>
    have hr' : '\n' ∉ r := fun h => hl ((suffix_of_afterMarker? hr).subset h)
    exact head?_afterLineFeeds hr' hls hne

/-- The first line stands in front of the closing line whatever it says. -/
theorem close?_ofLines {l : List Char} (hl : '\n' ∉ l) (hls : ∀ m ∈ ls, '\n' ∉ m) :
    close? (ofLines (l :: ls)) =
      (untilMarker? ls).map fun p => (ofLines (l :: p.1), ofLines (dropBlank p.2)) := by
  induction ls generalizing l with
  | nil => rw [ofLines_singleton, close?_of_not_mem hl]; rfl
  | cons m ls ih =>
    have hm := hls m List.mem_cons_self
    have hls' := fun x hx => hls x (List.mem_cons_of_mem m hx)
    rw [ofLines_cons l (List.cons_ne_nil m ls), close?_append hl, ih hm hls']
    cases ls with
    | nil =>
      rw [ofLines_singleton, afterClosing?_of_not_mem hm]
      rfl
    | cons k ks =>
      rw [afterClosing?_ofLines hm hls' (List.cons_ne_nil k ks), untilMarker?]
      split
      case isTrue => simp [ofLines_singleton]
      case isFalse =>
        cases untilMarker? (k :: ks) with
        | none => rfl
        | some p => simp [ofLines_cons l (List.cons_ne_nil m p.1)]

/-- All beginnings of the block that the opening line leaves open, the last one first. -/
theorem findSome?_afterLineFeeds {l : List Char} (hl : '\n' ∉ l) (hls : ∀ m ∈ ls, '\n' ∉ m) :
    (afterLineFeeds (ofLines (l :: ls))).findSome? close? =
      if l.all isBlank then
        (front? ls).map fun p => (ofLines p.1, ofLines (dropBlank p.2)) else none := by
  induction ls generalizing l with
  | nil =>
    rw [ofLines_singleton, afterLineFeeds_of_not_mem hl]
    split <;> rfl
  | cons m ls ih =>
    have hm := hls m List.mem_cons_self
    have hls' := fun x hx => hls x (List.mem_cons_of_mem m hx)
    rw [ofLines_cons l (List.cons_ne_nil m ls), afterLineFeeds_append hl]
    split
    case isFalse => rfl
    case isTrue =>
      have hlast : [ofLines (m :: ls)].findSome? close? =
          (untilMarker? ls).map fun p => (ofLines (m :: p.1), ofLines (dropBlank p.2)) := by
        rw [← close?_ofLines hm hls', List.findSome?_singleton]
      rw [List.findSome?_append, ih hm hls', hlast, front?]
      cases m.all isBlank <;> cases front? ls <;> cases untilMarker? ls <;> rfl

/-- **Front matter is told by the lines of the text**: by those behind the opening line. -/
theorem split_ofLines {l : List Char} (hl : '\n' ∉ l) (hls : ∀ m ∈ ls, '\n' ∉ m) :
    split (ofLines (l :: ls)) =
      match if isMarker l then front? ls else none with
      | some (front, rest) => (some (ofLines front), ofLines (dropBlank rest))
      | none => (none, ofLines (l :: ls)) := by
  have hfind : ((afterMarker? (ofLines (l :: ls))).bind fun r =>
      (afterLineFeeds r).findSome? close?) =
      (if isMarker l then front? ls else none).map
        fun p => (ofLines p.1, ofLines (dropBlank p.2)) := by
    rw [afterMarker?_ofLines, isMarker]
    cases hr : afterMarker? l with
    | none => rfl
    | some r =>
      have hr' : '\n' ∉ r := fun h => hl ((suffix_of_afterMarker? hr).subset h)
      rw [Option.map_some, Option.bind_some, findSome?_afterLineFeeds hr' hls, Option.any_some]
      split <;> rfl
  rw [split, hfind]
  cases (if isMarker l then front? ls else none) <;> rfl

end Lines

/-! ### The first marker -/

theorem untilMarker?_append {between : List (List Char)} (h : ∀ l ∈ between, isMarker l = false)
    {closing : List Char} (hclosing : isMarker closing = true) {rest : List (List Char)}
    (hrest : rest ≠ []) : untilMarker? (between ++ closing :: rest) = some (between, rest) := by
  induction between with
  | nil => rw [List.nil_append, untilMarker?_cons closing hrest, if_pos hclosing]
  | cons l ls ih =>
    have hl := h l List.mem_cons_self
    rw [List.cons_append, untilMarker?_cons l (by simp), if_neg (by simp [hl]),
      ih fun m hm => h m (List.mem_cons_of_mem l hm)]
    rfl

theorem exists_of_untilMarker? {ls between rest : List (List Char)}
    (h : untilMarker? ls = some (between, rest)) :
    ∃ closing, ls = between ++ closing :: rest ∧ isMarker closing = true ∧
      (∀ l ∈ between, isMarker l = false) ∧ rest ≠ [] := by
  induction ls generalizing between with
  | nil => cases h
  | cons l ls ih =>
    by_cases hls : ls = []
    · subst hls
      cases h
    rw [untilMarker?_cons l hls] at h
    split at h
    case isTrue hl =>
      cases h
      exact ⟨l, rfl, hl, by simp, hls⟩
    case isFalse hl =>
      obtain ⟨⟨ms, rest'⟩, hp, heq⟩ := Option.map_eq_some_iff.1 h
      cases heq
      obtain ⟨closing, rfl, hclosing, hms, hrest⟩ := ih hp
      refine ⟨closing, rfl, hclosing, ?_, hrest⟩
      rw [List.forall_mem_cons]
      exact ⟨Bool.eq_false_iff.2 hl, hms⟩

/-- Without a marker, nothing is taken off. -/
theorem front?_eq_none {ls : List (List Char)} (h : untilMarker? ls = none) : front? ls = none := by
  induction ls with
  | nil => rfl
  | cons l ls ih =>
    have hls : untilMarker? ls = none := by
      by_cases hnil : ls = []
      · rw [hnil]
        rfl
      · rw [untilMarker?_cons l hnil] at h
        split at h
        · cases h
        · exact Option.map_eq_none_iff.1 h
    rw [front?, ih hls, hls]
    split <;> rfl

/-- Is the first marker passed over, with these lines in front of it and behind it? Those in front
are all blank then, and a marker follows further down, or there is not even a blank line in front.
-/
def Passed (between rest : List (List Char)) : Prop :=
  (∀ l ∈ between, l.all isBlank = true) ∧ (between = [] ∨ untilMarker? rest ≠ none)

theorem passed_cons {l : List Char} {ls rest : List (List Char)} :
    Passed (l :: ls) rest ↔
      l.all isBlank = true ∧ Passed ls rest ∧ untilMarker? rest ≠ none := by
  unfold Passed
  rw [List.forall_mem_cons]
  constructor
  · rintro ⟨⟨hl, hls⟩, hnil | hrest⟩
    · cases hnil
    · exact ⟨hl, ⟨hls, Or.inr hrest⟩, hrest⟩
  · rintro ⟨hl, ⟨hls, -⟩, hrest⟩
    exact ⟨⟨hl, hls⟩, Or.inr hrest⟩

section First

variable {between rest : List (List Char)} {closing : List Char}

/-- A marker behind blank lines becomes the first line of the block. -/
theorem front?_of_passed (hclosing : isMarker closing = true) (hpassed : Passed between rest) :
    front? (between ++ closing :: rest) =
      (untilMarker? rest).map fun p => (closing :: p.1, p.2) := by
  induction between with
  | nil =>
    rw [List.nil_append, front?, not_blank_of_isMarker hclosing]
    rfl
  | cons l ls ih =>
    obtain ⟨hl, hls, hrest⟩ := passed_cons.1 hpassed
    obtain ⟨p, hp⟩ := Option.ne_none_iff_exists'.1 hrest
    rw [List.cons_append, front?, if_pos hl, ih hls, hp]
    rfl

theorem front?_of_not_passed (hfirst : ∀ l ∈ between, isMarker l = false)
    (hclosing : isMarker closing = true) (hrest : rest ≠ []) (hpassed : ¬ Passed between rest) :
    front? (between ++ closing :: rest) = some (dropBlank between, rest) := by
  induction between with
  | nil => exact absurd ⟨by simp, Or.inl rfl⟩ hpassed
  | cons l ls ih =>
    have hls := fun m hm => hfirst m (List.mem_cons_of_mem l hm)
    rw [List.cons_append, front?, untilMarker?_append hls hclosing hrest]
    by_cases hl : l.all isBlank = true
    · rw [if_pos hl]
      by_cases hpassed' : Passed ls rest
      · -- All lines are blank, and no marker follows: there is one blank line for the block.
        have hnone : untilMarker? rest = none := by
          by_contra hsome
          exact hpassed (passed_cons.2 ⟨hl, hpassed', hsome⟩)
        obtain rfl : ls = [] := hpassed'.2.resolve_right (not_not_intro hnone)
        rw [front?_of_passed hclosing hpassed', hnone]
        rfl
      · have hne : ls ≠ [] := by
          rintro rfl
          exact hpassed' ⟨by simp, Or.inl rfl⟩
        rw [ih hls hpassed', dropBlank_cons l hne, if_pos hl]
        rfl
    · have hkept : dropBlank (l :: ls) = l :: ls := by
        by_cases hne : ls = []
        · rw [hne, dropBlank_singleton]
        · rw [dropBlank_cons l hne, if_neg hl]
      rw [if_neg hl, hkept]
      rfl

end First

/-! ### Where the block ends -/

/-- A text that begins with a marker, and the first marker further down that a line feed ends. -/
structure Delimited (s : List Char) where
  opening : List Char
  between : List (List Char)
  closing : List Char
  rest : List (List Char)
  lines : Text.split '\n' s = opening :: (between ++ closing :: rest)
  opens : isMarker opening = true
  closes : isMarker closing = true
  first : ∀ l ∈ between, isMarker l = false
  ended : rest ≠ []

/-- What is taken off a text, by the lines behind its first one. -/
theorem split_eq {s opening : List Char} {ls : List (List Char)}
    (h : Text.split '\n' s = opening :: ls) :
    split s = match if isMarker opening then front? ls else none with
      | some (front, rest) => (some (ofLines front), ofLines (dropBlank rest))
      | none => (none, s) := by
  have hlines : ∀ l ∈ opening :: ls, '\n' ∉ l := by
    intro l hl hfeed
    exact (Text.mem_of_mem_split (h ▸ hl) hfeed).2 rfl
  have hs : s = ofLines (opening :: ls) := by rw [← h, ofLines_split]
  conv_lhs => rw [hs]
  rw [split_ofLines (hlines opening List.mem_cons_self) fun m hm =>
    hlines m (List.mem_cons_of_mem opening hm), ← hs]

theorem split_of_isEmpty {s : List Char} (h : IsEmpty (Delimited s)) : split s = (none, s) := by
  obtain ⟨opening, ls, hls⟩ := List.exists_cons_of_ne_nil (Text.split_ne_nil '\n' s)
  rw [split_eq hls]
  by_cases hopening : isMarker opening = true
  · have hnone : untilMarker? ls = none := by
      rw [Option.eq_none_iff_forall_ne_some]
      rintro ⟨between, rest⟩ hp
      obtain ⟨closing, rfl, hclosing, hfirst, hrest⟩ := exists_of_untilMarker? hp
      exact h.elim ⟨opening, between, closing, rest, hls, hopening, hclosing, hfirst, hrest⟩
    rw [if_pos hopening, front?_eq_none hnone]
  · rw [if_neg hopening]

namespace Delimited

variable {s : List Char} (d : Delimited s)

/-- Is the first marker behind the opening line passed over? -/
def IsPassed : Prop := Passed d.between d.rest

variable {d}

theorem split_of_passed (h : d.IsPassed) :
    split s = match untilMarker? d.rest with
      | some (more, rest) => (some (ofLines (d.closing :: more)), ofLines (dropBlank rest))
      | none => (none, s) := by
  rw [split_eq d.lines, if_pos d.opens, front?_of_passed d.closes h]
  cases untilMarker? d.rest <;> rfl

theorem split_of_not_passed (h : ¬ d.IsPassed) :
    split s = (some (ofLines (dropBlank d.between)), ofLines (dropBlank d.rest)) := by
  rw [split_eq d.lines, if_pos d.opens, front?_of_not_passed d.first d.closes d.ended h]

variable (d)

theorem not_mem_line {l : List Char} (h : l ∈ d.between ++ d.closing :: d.rest) : '\n' ∉ l :=
  fun hfeed => (Text.mem_of_mem_split (d.lines ▸ List.mem_cons_of_mem _ h) hfeed).2 rfl

/-- No line in front of the first marker is one. -/
theorem not_isMarker {l : List Char}
    (hl : l ∈ Text.split '\n' (ofLines (dropBlank d.between))) : isMarker l = false := by
  have hkept : dropBlank d.between ⊆ d.between := (dropBlank_suffix d.between).subset
  by_cases hnil : dropBlank d.between = []
  · rw [hnil] at hl
    obtain rfl : l = [] := List.mem_singleton.1 hl
    rfl
  · have hfeed : ∀ m ∈ dropBlank d.between, '\n' ∉ m := fun m hm =>
      d.not_mem_line (List.mem_append_left _ (hkept hm))
    rw [ofLines, Text.split_intercalate hnil hfeed] at hl
    exact d.first l (hkept hl)

/-- A block that begins with the first marker has it for its first line. -/
theorem closing_mem (more : List (List Char)) :
    d.closing ∈ Text.split '\n' (ofLines (d.closing :: more)) := by
  have hfeed : '\n' ∉ d.closing := d.not_mem_line (by simp)
  by_cases hnil : more = []
  · rw [hnil, ofLines_singleton, Text.split_of_not_mem hfeed]
    exact List.mem_singleton_self _
  · rw [ofLines_cons _ hnil, Text.split_append_cons, Text.split_of_not_mem hfeed]
    exact List.mem_cons_self

/-- A block holds a marker if and only if it holds the first one. -/
theorem isPassed_iff {front body : List Char} (h : split s = (some front, body)) :
    d.IsPassed ↔ ∃ l ∈ Text.split '\n' front, isMarker l = true := by
  constructor
  · intro hpassed
    rw [split_of_passed hpassed] at h
    split at h
    case h_1 more rest _ =>
      cases h
      exact ⟨d.closing, d.closing_mem more, d.closes⟩
    case h_2 => cases h
  · rintro ⟨l, hl, hmarker⟩
    by_contra hpassed
    rw [split_of_not_passed hpassed] at h
    cases h
    rw [d.not_isMarker hl] at hmarker
    cases hmarker

end Delimited

/-- **Front matter ends at the first marker behind the opening line if and only if that marker is
not passed over.** A text has front matter only if it begins with a marker that another one follows.
The block is what stands between the two, and the rest of the text what stands behind the second,
both without the blank lines in front, if something but blank lines stands between them, or blank
lines that no further marker follows. Otherwise the marker is the first line of the block, which the
next one closes; there is no block if there is none. A block holds a marker only then. -/
theorem split_ends_first_iff (s : List Char) :
    (IsEmpty (Delimited s) → split s = (none, s)) ∧
    ∀ d : Delimited s,
      (split s = (some (ofLines (dropBlank d.between)), ofLines (dropBlank d.rest)) ↔
        ¬ d.IsPassed) ∧
      (∀ front body, split s = (some front, body) →
        ((∀ l ∈ Text.split '\n' front, isMarker l = false) ↔ ¬ d.IsPassed)) ∧
      (d.IsPassed → split s =
        match untilMarker? d.rest with
        | some (more, rest) => (some (ofLines (d.closing :: more)), ofLines (dropBlank rest))
        | none => (none, s)) := by
  refine ⟨split_of_isEmpty, fun d => ⟨⟨fun h hpassed => ?_, Delimited.split_of_not_passed⟩,
    fun front body h => ?_, Delimited.split_of_passed⟩⟩
  · obtain ⟨l, hl, hmarker⟩ := (d.isPassed_iff h).1 hpassed
    rw [d.not_isMarker hl] at hmarker
    cases hmarker
  · rw [d.isPassed_iff h]
    simp

/-- A text with a blank line in its block, and a marker further down. -/
theorem split_ends_first_setting :
    ∃ d : Delimited "---\n\na: 1\n--- \n\ntext\n---\n".toList,
      ¬ d.IsPassed ∧
      split "---\n\na: 1\n--- \n\ntext\n---\n".toList =
        (some "a: 1".toList, "text\n---\n".toList) := by
  let d : Delimited "---\n\na: 1\n--- \n\ntext\n---\n".toList :=
    { opening := "---".toList, between := ["".toList, "a: 1".toList], closing := "--- ".toList
      rest := ["".toList, "text".toList, "---".toList, "".toList]
      lines := by decide, opens := by decide, closes := by decide, first := by decide
      ended := by decide }
  have hpassed : ¬ d.IsPassed := fun h => absurd h.1 (by decide)
  exact ⟨d, hpassed, ((split_ends_first_iff _).2 d).1.2 hpassed⟩

/-- The marker behind the opening line is passed over: the text up to the next marker is taken for
the block, and without a further marker there is none. -/
theorem split_passes_empty :
    (∃ d : Delimited "---\n---\ntext\n---\nmore\n".toList, d.between = []) ∧
      split "---\n---\ntext\n---\nmore\n".toList =
        (some "---\ntext".toList, "more\n".toList) ∧
      (∃ l ∈ Text.split '\n' "---\ntext".toList, isMarker l = true) ∧
      split "---\n---\ntext\n".toList = (none, "---\n---\ntext\n".toList) := by
  refine ⟨⟨?_, ?_⟩, by decide, ⟨"---".toList, by decide, by decide⟩, by decide⟩
  · exact
      { opening := "---".toList, between := [], closing := "---".toList
        rest := ["text".toList, "---".toList, "more".toList, "".toList]
        lines := by decide, opens := by decide, closes := by decide, first := by decide
        ended := by decide }
  · rfl

end DemoPages.FrontMatter
