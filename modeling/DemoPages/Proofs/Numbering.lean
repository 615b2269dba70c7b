import Mathlib.Data.List.Infix
import DemoPages.Proofs.Contents

/-!
# How lines are numbered

The reader of blocks counts the lines of a page, which end at `\n`, `\r\n` and `\r` (`pageLines`),
but the source of a block is sliced from the lines that end at every boundary (`lines`). Cutting
the lines of a page further gives these (`flatMap_lines_pageLines`), so the two numberings agree up
to the first line that is cut. `source_own_lines` says what that means for the source of a block; in
`source_shifted`, a heading comes to show a line of the paragraph in front of it.
-/

namespace DemoPages

open Text

namespace Text

/-! ### Lines of a page -/

/-- The lines of a text, each with its end, where every character of `ends` ends a line. -/
def linesBehind (ends : Char → Bool) : List Char → List (List Char)
  | [] => []
  | '\r' :: '\n' :: s => ['\r', '\n'] :: linesBehind ends s
  | c :: s => if ends c then [c] :: linesBehind ends s else consLine c (linesBehind ends s)

/-- The lines of a page, each with its end: a line feed, a carriage return or both. -/
def pageLines (s : List Char) : List (List Char) := linesBehind (fun c => c = '\n' ∨ c = '\r') s

theorem lines_eq_linesBehind (s : List Char) : lines s = linesBehind isLineEnd s := by
  fun_induction lines s with
  | case1 => rfl
  | case2 s ih => rw [linesBehind, ih]
  | case3 c s hreturn h ih => rw [linesBehind, if_pos h, ih]; exact hreturn
  | case4 c s hreturn h ih => rw [linesBehind, if_neg h, ih]; exact hreturn

theorem consLine_append (c : Char) {ls : List (List Char)} (h : ls ≠ []) (ms : List (List Char)) :
    consLine c (ls ++ ms) = consLine c ls ++ ms := by
  cases ls with
  | nil => exact absurd rfl h
  | cons l ls => rfl

theorem flatten_linesBehind (ends : Char → Bool) (s : List Char) :
    (linesBehind ends s).flatten = s := by
  fun_induction linesBehind ends s with
  | case1 => rfl
  | case2 s ih => simp [ih]
  | case3 c s _ _ ih => simp [ih]
  | case4 c s _ _ ih => simp [ih]

theorem linesBehind_ne_nil (ends : Char → Bool) {s : List Char} (h : s ≠ []) :
    linesBehind ends s ≠ [] := by
  intro hnil
  have hflat := flatten_linesBehind ends s
  rw [hnil] at hflat
  exact h hflat.symm

theorem ne_nil_of_mem_linesBehind {ends : Char → Bool} {s l : List Char}
    (h : l ∈ linesBehind ends s) : l ≠ [] := by
  fun_induction linesBehind ends s generalizing l with
  | case1 => cases h
  | case2 s ih =>
    rcases List.mem_cons.1 h with rfl | h
    · exact List.cons_ne_nil _ _
    · exact ih h
  | case3 c s _ _ ih =>
    rcases List.mem_cons.1 h with rfl | h
    · exact List.cons_ne_nil _ _
    · exact ih h
  | case4 c s _ _ ih =>
    cases hs : linesBehind ends s with
    | nil =>
      rw [hs, consLine, List.mem_singleton] at h
      rw [h]
      exact List.cons_ne_nil _ _
    | cons m ms =>
      rw [hs, consLine] at h
      rcases List.mem_cons.1 h with rfl | h
      · exact List.cons_ne_nil _ _
      · exact ih (hs ▸ List.mem_cons_of_mem _ h)

/-- Lines that are cut at more characters are the same as the lines of the text, so cut. -/
theorem flatMap_linesBehind {ends more : Char → Bool} (hmore : ∀ c, ends c = true → more c = true)
    (hreturn : ends '\r' = true) (s : List Char) :
    (linesBehind ends s).flatMap (linesBehind more) = linesBehind more s := by
  fun_induction linesBehind ends s with
  | case1 => rfl
  | case2 s ih =>
    rw [List.flatMap_cons, ih]
    rfl
  | case3 c s hnot hc ih =>
    have hone : linesBehind more [c] = [[c]] := by
      rw [linesBehind, if_pos (hmore c hc)]
      · rfl
      · rintro t - ⟨⟩
    rw [List.flatMap_cons, ih, hone, linesBehind, if_pos (hmore c hc)]
    · rfl
    · exact hnot
  | case4 c s hnot hc ih =>
    have hne : c ≠ '\r' := by
      rintro rfl
      exact hc hreturn
    have hcons : ∀ t, linesBehind more (c :: t) =
        if more c = true then [c] :: linesBehind more t else consLine c (linesBehind more t) := by
      intro t
      rw [linesBehind]
      rintro u rfl
      exact absurd rfl hne
    rw [hcons, ← ih]
    cases hs : linesBehind ends s with
    | nil => rw [consLine, List.flatMap_singleton, hcons]; rfl
    | cons l ls =>
      have hl : l ≠ [] := ne_nil_of_mem_linesBehind (hs ▸ List.mem_cons_self)
      rw [consLine, List.flatMap_cons, List.flatMap_cons, hcons]
      split
      · rfl
      · rw [consLine_append c (linesBehind_ne_nil more hl)]

theorem flatMap_lines_pageLines (s : List Char) : (pageLines s).flatMap lines = lines s := by
  have hlines : lines = linesBehind isLineEnd := funext lines_eq_linesBehind
  rw [hlines]
  refine flatMap_linesBehind (fun c hc => ?_) (by decide) s
  rcases of_decide_eq_true hc with rfl | rfl <;> decide

/-! ### Lines that stay whole -/

/-- Is a line of a page one line at every boundary, too? -/
def Whole (l : List Char) : Prop := lines l = [l]

instance (l : List Char) : Decidable (Whole l) := inferInstanceAs (Decidable (_ = _))

theorem lines_ne_nil {s : List Char} (h : s ≠ []) : lines s ≠ [] := by
  rw [lines_eq_linesBehind]
  exact linesBehind_ne_nil isLineEnd h

theorem ne_nil_of_mem_pageLines {s l : List Char} (h : l ∈ pageLines s) : l ≠ [] :=
  ne_nil_of_mem_linesBehind h

/-- A line that is not whole is cut into two pieces or more. -/
theorem length_lines_of_not_whole {l : List Char} (h : ¬ Whole l) (hne : l ≠ []) :
    1 < (lines l).length := by
  cases hl : lines l with
  | nil => exact absurd hl (lines_ne_nil hne)
  | cons p ps =>
    cases ps with
    | nil =>
      have hflat := flatten_lines l
      rw [hl, List.flatten_singleton] at hflat
      exact absurd (hl.trans (hflat ▸ rfl)) h
    | cons q qs => simp

theorem flatMap_lines_of_whole {ls : List (List Char)} (h : ∀ l ∈ ls, Whole l) :
    ls.flatMap lines = ls := by
  induction ls with
  | nil => rfl
  | cons l ls ih =>
    have hl : lines l = [l] := h l List.mem_cons_self
    rw [List.flatMap_cons, hl, ih fun l' hl' => h l' (List.mem_cons_of_mem _ hl')]
    rfl

theorem flatten_flatMap_lines (ls : List (List Char)) :
    (ls.flatMap lines).flatten = ls.flatten := by
  induction ls with
  | nil => rfl
  | cons l ls ih =>
    rw [List.flatMap_cons, List.flatten_append, flatten_lines, ih, List.flatten_cons]

theorem length_le_flatMap_lines {ls : List (List Char)} (h : ∀ l ∈ ls, l ≠ []) :
    ls.length ≤ (ls.flatMap lines).length := by
  induction ls with
  | nil => exact Nat.le_refl 0
  | cons l ls ih =>
    have hpos := List.length_pos_of_ne_nil (lines_ne_nil (h l List.mem_cons_self))
    have hle := ih fun l' hl' => h l' (List.mem_cons_of_mem _ hl')
    rw [List.flatMap_cons, List.length_append, List.length_cons]
    omega

theorem length_lt_flatMap_lines {ls : List (List Char)} (h : ∀ l ∈ ls, l ≠ [])
    (hcut : ∃ l ∈ ls, ¬ Whole l) : ls.length < (ls.flatMap lines).length := by
  obtain ⟨l, hl, hcut⟩ := hcut
  obtain ⟨before, after, rfl⟩ := List.append_of_mem hl
  have hlong := length_lines_of_not_whole hcut (h l hl)
  have hbefore := length_le_flatMap_lines fun l' hl' => h l' (List.mem_append_left _ hl')
  have hafter := length_le_flatMap_lines fun l' hl' =>
    h l' (List.mem_append_right _ (List.mem_cons_of_mem _ hl'))
  simp only [List.flatMap_append, List.flatMap_cons, List.length_append, List.length_cons]
  omega

/-- The first pieces of some lines are pieces of the first lines. -/
theorem take_flatMap_lines {ls : List (List Char)} (h : ∀ l ∈ ls, l ≠ []) (n : Nat) :
    (ls.flatMap lines).take n = ((ls.take n).flatMap lines).take n := by
  have hle : (ls.take n).length ≤ ((ls.take n).flatMap lines).length :=
    length_le_flatMap_lines fun l hl => h l (List.mem_of_mem_take hl)
  conv_lhs => rw [← List.take_append_drop n ls, List.flatMap_append]
  rw [List.length_take] at hle
  by_cases hn : n ≤ ls.length
  · exact List.take_append_of_le_length (by omega)
  · rw [List.drop_eq_nil_of_le (by omega), List.flatMap_nil, List.append_nil]

section Numbers

variable {s : List Char} {n : Nat}

theorem lines_eq_append (s : List Char) (n : Nat) :
    lines s = ((pageLines s).take n).flatMap lines ++ ((pageLines s).drop n).flatMap lines := by
  rw [← List.flatMap_append, List.take_append_drop, flatMap_lines_pageLines]

/-- Behind lines that are whole, the numbers of lines agree. -/
theorem drop_lines_of_whole (h : ∀ l ∈ (pageLines s).take n, Whole l) :
    (lines s).drop n = ((pageLines s).drop n).flatMap lines := by
  rw [lines_eq_append s n, flatMap_lines_of_whole h]
  by_cases hn : n ≤ (pageLines s).length
  · exact List.drop_left' (List.length_take_of_le hn)
  · have hnone : (pageLines s).drop n = [] := List.drop_eq_nil_of_le (by omega)
    rw [hnone, List.flatMap_nil, List.append_nil, List.drop_eq_nil_of_le]
    rw [List.length_take]
    omega

/-- Behind a line that is cut, lines begin too early. -/
theorem exists_flatten_take_lines (hn : n ≤ (pageLines s).length)
    (hcut : ∃ l ∈ (pageLines s).take n, ¬ Whole l) :
    ∃ between, between ≠ [] ∧
      ((pageLines s).take n).flatten = ((lines s).take n).flatten ++ between := by
  have hne : ∀ l ∈ (pageLines s).take n, l ≠ [] := fun l hl =>
    ne_nil_of_mem_pageLines (List.mem_of_mem_take hl)
  have hlong := length_lt_flatMap_lines hne hcut
  rw [List.length_take_of_le hn] at hlong
  refine ⟨((((pageLines s).take n).flatMap lines).drop n).flatten, fun hnil => ?_, ?_⟩
  · obtain ⟨p, hp⟩ := List.exists_mem_of_length_pos
      (l := (((pageLines s).take n).flatMap lines).drop n) (by rw [List.length_drop]; omega)
    obtain ⟨l, -, hpl⟩ := List.mem_flatMap.1 (List.mem_of_mem_drop hp)
    rw [lines_eq_linesBehind] at hpl
    exact ne_nil_of_mem_linesBehind hpl (List.flatten_eq_nil_iff.1 hnil p hp)
  · rw [lines_eq_append s n, List.take_append_of_le_length (by omega), ← List.flatten_append,
      List.take_append_drop, flatten_flatMap_lines]

end Numbers

/-- White space at the end of a text is what may be added without a trace. -/
theorem trimEnd_append_eq_iff (s t : List Char) :
    trimEnd s = trimEnd (s ++ t) ↔ ∀ c ∈ t, isBlank c = true := by
  refine ⟨fun heq => ?_, fun h => (trimEnd_append_of_blank s h).symm⟩
  by_contra hnot
  obtain ⟨c, hc, hblank⟩ : ∃ c ∈ t, isBlank c = false := by simpa using hnot
  rw [trimEnd_append_of_not_blank s hc hblank] at heq
  have hle : (trimEnd s).length ≤ s.length := (List.rdropWhile_prefix isBlank s).length_le
  have hnil : trimEnd t = [] := by
    rw [heq, List.length_append] at hle
    exact List.eq_nil_of_length_eq_zero (by omega)
  have := List.rdropWhile_eq_nil_iff.1 hnil c hc
  rw [hblank] at this
  cases this

end Text

namespace Markdown

/-! ### The lines that the reader of blocks counts -/

/-- A line of a page without its end. -/
def bare (l : List Char) : List Char := l.takeWhile fun c => !(c = '\n' ∨ c = '\r')

theorem split_unifyLineEnds (s : List Char) :
    ∃ rest, split '\n' (unifyLineEnds s) = (pageLines s).map bare ++ rest ∧
      (rest = [] ∨ rest = [[]]) := by
  unfold pageLines
  fun_induction linesBehind (fun c => c = '\n' ∨ c = '\r') s with
  | case1 => exact ⟨[[]], rfl, Or.inr rfl⟩
  | case2 s ih =>
    obtain ⟨rest, hsplit, hrest⟩ := ih
    exact ⟨rest, by simp [unifyLineEnds, split, hsplit, bare], hrest⟩
  | case3 c s hnot hc ih =>
    obtain ⟨rest, hsplit, hrest⟩ := ih
    refine ⟨rest, ?_, hrest⟩
    have hfeed : (if c = '\r' then '\n' else c) = '\n' := by
      rcases of_decide_eq_true hc with rfl | rfl <;> rfl
    have hbare : bare [c] = [] := by
      rcases of_decide_eq_true hc with rfl | rfl <;> rfl
    rw [unifyLineEnds, hfeed, split, if_pos rfl, hsplit, List.map_cons, hbare, List.cons_append]
    exact hnot
  | case4 c s hnot hc ih =>
    obtain ⟨rest, hsplit, hrest⟩ := ih
    have hends : ¬ (c = '\n' ∨ c = '\r') := by simpa using hc
    have hbare : ∀ l, bare (c :: l) = c :: bare l := fun l =>
      List.takeWhile_cons_of_pos (by simpa using hends)
    rw [not_or] at hends
    rw [unifyLineEnds, if_neg hends.2, split, if_neg hends.1, hsplit]
    · cases hs : linesBehind (fun c => c = '\n' ∨ c = '\r') s with
      | nil =>
        rw [hs] at hsplit
        rcases hrest with rfl | rfl
        · exact absurd hsplit (split_ne_nil _ _)
        · refine ⟨[], ?_, Or.inl rfl⟩
          show [[c]] = [bare [c]] ++ []
          rw [hbare]
          rfl
      | cons l ls => exact ⟨rest, by simp [consPiece, consLine, hbare], hrest⟩
    · exact hnot

/-- The reader of blocks counts the lines of the page. -/
theorem linesOf_prefix (s : List Char) :
    linesOf s <+: (pageLines s).map fun l => Line.ofChars (signed (bare l)) := by
  obtain ⟨rest, hsplit, hrest⟩ := split_unifyLineEnds s
  have hpieces : split '\n' (normalize s) =
      (pageLines s).map (fun l => signed (bare l)) ++ rest.map signed := by
    rw [split_normalize, hsplit, List.map_append, List.map_map]
    rfl
  have hkept : (if ((split '\n' (normalize s)).getLastD []).all isPad = true
      then (split '\n' (normalize s)).dropLast else split '\n' (normalize s)) <+:
        (pageLines s).map fun l => signed (bare l) := by
    rw [hpieces]
    rcases hrest with rfl | rfl
    · rw [List.map_nil, List.append_nil]
      split
      · exact List.dropLast_prefix _
      · exact List.prefix_rfl
    · -- Nothing stands behind the last line end, so the last piece is no line.
      rw [List.map_singleton, if_pos (by simp [signed]), List.dropLast_concat]
  obtain ⟨more, hmore⟩ := hkept
  refine ⟨more.map Line.ofChars, ?_⟩
  rw [linesOf, ← List.map_append, hmore, List.map_map]
  rfl

/-- What is found begins on one of the lines. -/
theorem lt_of_mem_foundFrom {rules : Rules} {margin : Int} {count base : Nat} {ls : List Line}
    {p : Nat × Found} (h : p ∈ foundFrom rules margin count base ls) :
    p.1 < base + ls.length := by
  induction count generalizing base ls with
  | zero => cases h
  | succ count ih =>
    rw [foundFrom] at h
    split at h
    · cases h
    · rename_i l rest hdrop
      have hlength := congrArg List.length
        (List.takeWhile_append_dropWhile (p := Line.isEmpty) (l := ls))
      rw [hdrop, List.length_append, List.length_cons] at hlength
      split at h
      · cases h
      · rcases List.mem_cons.1 h with rfl | h
        · dsimp only
          omega
        · have hlt := ih h
          have hle := le_of_mem_foundFrom h
          rw [List.length_drop, Found.behind, List.length_drop] at hlt
          omega

theorem first_of_mem_blocks {rules : Rules} {ls : List Line} {b : Block}
    (h : b ∈ rules.blocks ls) : b.first < ls.length ∧ b.first ≤ b.stop := by
  rw [Rules.blocks_eq_filterMap] at h
  obtain ⟨p, hp, hb⟩ := List.mem_filterMap.1 h
  obtain ⟨kind, -, rfl⟩ := Option.map_eq_some_iff.1 hb
  have hlt := lt_of_mem_foundFrom hp
  rw [Nat.zero_add] at hlt
  exact ⟨hlt, Nat.le_add_right _ _⟩

/-! ### The sources of blocks -/

/-- The text of the lines of a block. -/
def Block.text (b : Block) (ls : List (List Char)) : List Char :=
  (Token.slice ls b.first b.stop).flatten

/-- What is cut off from the lines of a block, where the lines in front of it are whole: as many
pieces of them are taken as the block has lines. -/
def Block.cutOff (b : Block) (s : List Char) : List Char :=
  (((Token.slice (pageLines s) b.first b.stop).flatMap lines).drop (b.stop - b.first)).flatten

section Source

variable {s : List Char} {b : Block}

theorem text_of_whole (h : ∀ l ∈ (pageLines s).take b.first, Whole l) :
    b.text (pageLines s) = b.text (lines s) ++ b.cutOff s := by
  have hne : ∀ l ∈ (pageLines s).drop b.first, l ≠ [] := fun l hl =>
    ne_nil_of_mem_pageLines (List.mem_of_mem_drop hl)
  unfold Block.text Block.cutOff
  rw [slice_natCast, slice_natCast, List.drop_take, List.drop_take, drop_lines_of_whole h,
    take_flatMap_lines hne, ← List.flatten_append, List.take_append_drop, flatten_flatMap_lines]

theorem cutOff_of_whole (h : ∀ l ∈ (pageLines s).take b.stop, Whole l) : b.cutOff s = [] := by
  unfold Block.cutOff
  rw [slice_natCast, flatMap_lines_of_whole fun l hl => h l (List.mem_of_mem_drop hl),
    List.drop_eq_nil_of_le, List.flatten_nil]
  rw [List.length_drop, List.length_take]
  omega

end Source

end Markdown

/-- **A block has its own lines as its source, up to the first line that is cut.** Take any reader
whose outermost tokens begin the blocks that some rules find. It counts the lines of the page. If
these are whole as far as a block goes, the source of the block, if that is no fenced code, is the
text of its lines, without white space at its end. If they are whole in front of the block, it is so
if and only if nothing but white space is cut off from the lines of the block. If one in front of
the block is cut, the source is that of as many lines that begin in front of the block. -/
theorem source_own_lines {reader : Markdown.Reader} {text dialect : String}
    {tokens : List Char → List Markdown.Token} {rules : Markdown.Rules}
    (reads : reader dialect = .ok tokens)
    (yields : rules.Yields (bodyOf text) (tokens (bodyOf text))) :
    let body := bodyOf text
    let found := rules.blocks (Markdown.linesOf body)
    Page.parse reader text dialect =
        .ok (frontBlocks text ++ found.map (Markdown.Block.node (lines body))) ∧
      (∀ (i : Nat) l, (Markdown.linesOf body)[i]? = some l →
        ∃ line, (pageLines body)[i]? = some line ∧
          l = Markdown.Line.ofChars (Markdown.signed (Markdown.bare line))) ∧
      ∀ b ∈ found, b.kind ≠ .fence → ∃ value, b.node (lines body) = .raw b.kind.name value ∧
        ((∀ l ∈ (pageLines body).take b.stop, Whole l) →
          value.toList = trimEnd (b.text (pageLines body))) ∧
        ((∀ l ∈ (pageLines body).take b.first, Whole l) →
          (value.toList = trimEnd (b.text (pageLines body)) ↔
            ∀ c ∈ b.cutOff body, isBlank c = true)) ∧
        ((∃ l ∈ (pageLines body).take b.first, ¬ Whole l) →
          value.toList = trimEnd (b.text (lines body)) ∧
          ∃ between, between ≠ [] ∧ ((pageLines body).take b.first).flatten =
            ((lines body).take b.first).flatten ++ between) := by
  intro body found
  refine ⟨parse_eq reads yields, fun i l hi => ?_, fun b hb hfence => ?_⟩
  · obtain ⟨more, hmore⟩ := Markdown.linesOf_prefix body
    have hi' : (Markdown.linesOf body ++ more)[i]? = (Markdown.linesOf body)[i]? :=
      List.getElem?_append_left (List.getElem?_eq_some_iff.1 hi).1
    rw [hmore, hi, List.getElem?_map] at hi'
    obtain ⟨line, hline, hl⟩ := Option.map_eq_some_iff.1 hi'
    exact ⟨line, hline, hl.symm⟩
  · obtain ⟨hfirst, hstop⟩ := Markdown.first_of_mem_blocks hb
    have hlength := (Markdown.linesOf_prefix body).length_le
    rw [List.length_map] at hlength
    have hvalue : (b.token.source (lines body)).toList = trimEnd (b.text (lines body)) := by
      rw [Markdown.Token.source, String.toList_ofList]
      rfl
    have hown : (∀ l ∈ (pageLines body).take b.first, Whole l) →
        ((b.token.source (lines body)).toList = trimEnd (b.text (pageLines body)) ↔
          ∀ c ∈ b.cutOff body, isBlank c = true) := fun h => by
      rw [hvalue, Markdown.text_of_whole h, trimEnd_append_eq_iff]
    refine ⟨_, if_neg hfence, fun h => ?_, hown, fun hcut =>
      ⟨hvalue, exists_flatten_take_lines (by omega) hcut⟩⟩
    have hnone : ∀ c ∈ b.cutOff body, isBlank c = true := by
      rw [Markdown.cutOff_of_whole h]
      simp
    exact (hown fun l hl => h l (List.take_subset_take_left _ hstop hl)).2 hnone

/-- A page whose lines end in both ways, and whose last line has a form feed at its end: the source
of its heading is its own line, since nothing but the line end is cut off. -/
theorem source_own_lines_heading :
    ∃ page, Page.parse Markdown.reader "a\r\n\r\n# b\x0c\n" "gfm-like" = .ok page ∧
      page[1]? = some (.raw "heading" "# b") := by
  have hbody : bodyOf "a\r\n\r\n# b\x0c\n" = "a\r\n\r\n# b\x0c\n".toList := by decide +kernel
  let d : Markdown.Dialect := { tables := true, markup := true, depth := 20 }
  have hfound : d.rules.blocks (Markdown.linesOf "a\r\n\r\n# b\x0c\n".toList) =
      [{ kind := .paragraph, first := 0, stop := 1 },
        { kind := .heading, first := 2, stop := 3 }] := by
    decide +kernel
  obtain ⟨hparse, -, hsource⟩ := @source_own_lines Markdown.reader "a\r\n\r\n# b\x0c\n" "gfm-like" _
    d.rules rfl (d.yields_tokens _)
  rw [hbody, hfound] at hparse hsource
  obtain ⟨value, hnode, -, hown, -⟩ := hsource { kind := .heading, first := 2, stop := 3 }
    (by decide) (by decide)
  have hcut : Markdown.Block.cutOff { kind := .heading, first := 2, stop := 3 }
      "a\r\n\r\n# b\x0c\n".toList = ['\n'] := by
    decide +kernel
  have htext := (hown (by decide +kernel)).2 (by
    rw [hcut]
    exact List.forall_mem_singleton.2 rfl)
  have hvalue : value = "# b" := String.toList_inj.1 (htext.trans (by decide +kernel))
  have hfront : frontBlocks "a\r\n\r\n# b\x0c\n" = [] := by decide +kernel
  refine ⟨_, hparse, ?_⟩
  rw [hfront]
  show some (Markdown.Block.node _ { kind := .heading, first := 2, stop := 3 }) = _
  rw [hnode, hvalue]
  rfl

/-- Two form feeds on the first line, at which it is cut: of its paragraph only the first piece is
left, and the heading has the third one in place of its own line. -/
theorem source_shifted :
    let body := bodyOf "a\x0cb\x0cc\n\n# d\n"
    let paragraph : Markdown.Block := { kind := .paragraph, first := 0, stop := 1 }
    let heading : Markdown.Block := { kind := .heading, first := 2, stop := 3 }
    let d : Markdown.Dialect := { tables := true, markup := true, depth := 20 }
    Page.parse Markdown.reader "a\x0cb\x0cc\n\n# d\n" "gfm-like" =
        .ok [.raw "paragraph" "a", .raw "heading" "c"] ∧
      d.rules.blocks (Markdown.linesOf body) = [paragraph, heading] ∧
      trimEnd (paragraph.text (pageLines body)) = "a\x0cb\x0cc".toList ∧
      trimEnd (heading.text (pageLines body)) = "# d".toList := by
  intro body paragraph heading d
  have hfound : d.rules.blocks (Markdown.linesOf body) = [paragraph, heading] := by
    decide +kernel
  refine ⟨?_, hfound, by decide +kernel, by decide +kernel⟩
  rw [parse_eq (reader_eq rfl) (d.yields_tokens _), hfound]
  rfl

end DemoPages
