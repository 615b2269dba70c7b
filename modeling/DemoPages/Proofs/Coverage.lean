import DemoPages.Markdown.Block

/-!
# Every line belongs to something

`Rules.found` lists all that rules find on some lines, also what makes no block, as the definition
of a link, each with the line that it begins on; the blocks are what is left of it without that
(`Rules.blocks_eq_filterMap`). Rules that advance take at least one line for what they find, so
nothing is passed over: every line that is not empty is covered by what begins on it or in front of
it (`Rules.Advances.exists_found`), and by nothing else (`Rules.not_covers_of_append`).

That is all that is asked of rules here. Those of a dialect do advance (`Dialect.advances_rules`),
also inside quotations and lists.
-/

namespace DemoPages.Markdown

/-- The lines behind something that begins on the line in front of `rest`. -/
def Found.behind (f : Found) (rest : List Line) : List Line := rest.drop (f.used - 1)

/-- Is there an empty line behind it? If so, it is passed over. -/
def Found.gap (f : Found) (rest : List Line) : Nat :=
  if ((f.behind rest).head?.map Line.isEmpty).getD false then 1 else 0

/-- At most `count` things found on some lines, the first of which is the line `base` of the text,
each with the line it begins on. -/
def foundFrom (rules : Rules) (margin : Int) :
    (count : Nat) → (base : Nat) → List Line → List (Nat × Found)
  | 0, _, _ => []
  | count + 1, base, ls =>
    let start := base + (ls.takeWhile Line.isEmpty).length
    match ls.dropWhile Line.isEmpty with
    | [] => []
    | l :: rest =>
      if l.column < margin then []
      else
        let f := rules l rest
        (start, f) :: foundFrom rules margin count (start + f.used + f.gap rest)
          ((f.behind rest).drop (f.gap rest))

/-- All that is found on the lines of a text. -/
def Rules.found (rules : Rules) (ls : List Line) : List (Nat × Found) :=
  foundFrom rules 0 ls.length 0 ls

/-- Do rules take at least one line for what they find? -/
def Rules.Advances (rules : Rules) : Prop := ∀ l rest, 1 ≤ (rules l rest).used

section Steps

variable {rules : Rules} {margin : Int} {trailing base : Nat} {ls : List Line}

theorem blocksFrom_of_empty (count : Nat) (hne : ls ≠ []) (h : ls.dropWhile Line.isEmpty = []) :
    blocksFrom rules margin trailing (count + 1) base ls =
      ([], base + (ls.takeWhile Line.isEmpty).length + trailing) := by
  cases ls with
  | nil => exact absurd rfl hne
  | cons first others =>
    rw [blocksFrom]
    simp only [h]

/-- Where the first line that is not empty stands left of the margin, nothing is read. -/
theorem blocksFrom_of_left (count : Nat) {l : Line} {rest : List Line}
    (h : ls.dropWhile Line.isEmpty = l :: rest) (hl : l.column < margin) :
    blocksFrom rules margin trailing (count + 1) base ls =
      ([], base + (ls.takeWhile Line.isEmpty).length) := by
  cases ls with
  | nil => cases h
  | cons first others =>
    rw [blocksFrom]
    simp only [h, if_pos hl]

/-- Otherwise something is found there, and the reading goes on behind it. -/
theorem blocksFrom_succ (count : Nat) {l : Line} {rest : List Line}
    (h : ls.dropWhile Line.isEmpty = l :: rest) (hl : ¬ l.column < margin) :
    blocksFrom rules margin trailing (count + 1) base ls =
      let start := base + (ls.takeWhile Line.isEmpty).length
      let f := rules l rest
      let more := blocksFrom rules margin trailing count (start + f.used + f.gap rest)
        ((f.behind rest).drop (f.gap rest))
      ((f.block? start).toList ++ more.1, more.2) := by
  cases ls with
  | nil => cases h
  | cons first others =>
    rw [blocksFrom]
    simp only [h, if_neg hl]
    rfl

/-- The blocks of some lines are what is found on them, but for the definitions of links. -/
theorem blocksFrom_eq_filterMap (count base : Nat) (ls : List Line) :
    (blocksFrom rules margin trailing count base ls).1 =
      (foundFrom rules margin count base ls).filterMap fun p => p.2.block? p.1 := by
  induction count generalizing base ls with
  | zero => rfl
  | succ count ih =>
    rw [foundFrom]
    cases h : ls.dropWhile Line.isEmpty with
    | nil =>
      by_cases hne : ls = []
      · subst hne
        rfl
      · rw [blocksFrom_of_empty count hne h]
        rfl
    | cons l rest =>
      by_cases hl : l.column < margin
      · rw [blocksFrom_of_left count h hl]
        simp only [if_pos hl, List.filterMap_nil]
      · rw [blocksFrom_succ count h hl]
        simp only [if_neg hl, List.filterMap_cons, ih]
        cases (rules l rest).block? _ <;> rfl

end Steps

theorem Rules.blocks_eq_filterMap (rules : Rules) (ls : List Line) :
    rules.blocks ls = (rules.found ls).filterMap fun p => p.2.block? p.1 :=
  blocksFrom_eq_filterMap ls.length 0 ls

/-! ### Order -/

section Order

variable {rules : Rules} {margin : Int}

theorem le_of_mem_foundFrom {count base : Nat} {ls : List Line} {p : Nat × Found}
    (h : p ∈ foundFrom rules margin count base ls) : base ≤ p.1 := by
  induction count generalizing base ls with
  | zero => cases h
  | succ count ih =>
    rw [foundFrom] at h
    split at h
    · cases h
    · split at h
      · cases h
      · rcases List.mem_cons.1 h with rfl | h
        · exact Nat.le_add_right _ _
        · have := ih h
          omega

/-- What is found does not overlap. -/
theorem pairwise_foundFrom (count base : Nat) (ls : List Line) :
    (foundFrom rules margin count base ls).Pairwise fun p q => p.1 + p.2.used ≤ q.1 := by
  induction count generalizing base ls with
  | zero => exact List.Pairwise.nil
  | succ count ih =>
    rw [foundFrom]
    split
    · exact List.Pairwise.nil
    · split
      · exact List.Pairwise.nil
      · refine List.Pairwise.cons (fun q hq => ?_) (ih _ _)
        have := le_of_mem_foundFrom hq
        dsimp only at this ⊢
        omega

end Order

theorem Rules.pairwise_found (rules : Rules) (ls : List Line) :
    (rules.found ls).Pairwise fun p q => p.1 + p.2.used ≤ q.1 :=
  pairwise_foundFrom ls.length 0 ls

/-! ### What is found takes a line or more -/

/-- Does a reader of containers take the first line, unless that stands left of the margin? -/
def Inside.Advances (f : Inside) : Prop :=
  ∀ (s : Scope) (l : Line) (ls : List Line), l.isEmpty = true ∨ s.margin ≤ l.column →
    1 ≤ f s (l :: ls)

theorem le_advance (shift : Nat) (column : Int) (pad : List Char) :
    column ≤ Line.advance shift column pad := by
  induction pad generalizing column with
  | nil => exact Int.le_refl _
  | cons c pad ih =>
    rw [Line.advance]
    refine Int.le_trans ?_ (ih _)
    split <;> omega

theorem Reference.lines?_pos {line : List Char} {later : List (List Char)} {n : Nat}
    (h : lines? line later = some n) : 1 ≤ n := by
  unfold lines? at h
  split at h
  · obtain ⟨spot, -, h⟩ := Option.bind_eq_some_iff.1 h
    obtain ⟨⟨destination, rest⟩, -, h⟩ := Option.bind_eq_some_iff.1 h
    dsimp only at h
    have plain : ∀ passed : Nat,
        (if isLineEnd rest = true then some (passed + 1) else none) = some n → 1 ≤ n := by
      intro passed hp
      split at hp
      · cases hp
        exact Nat.le_add_left _ _
      · cases hp
    split at h
    · split at h
      · exact plain _ h
      · split at h
        · cases h
          exact Nat.le_add_left _ _
        · split at h
          · cases h
          · exact plain _ h
    · cases h
  · cases h

namespace Scope

variable {s : Scope} {quoted listed : Inside} {l : Line} {rest : List Line} {f : Found}

theorem column_unquote (l : Line) : 0 ≤ (unquote l).column := by
  have inner : ∀ shift column pad, 0 ≤ Line.advance shift column pad - column := by
    intro shift column pad
    have := le_advance shift column pad
    omega
  unfold unquote
  split
  · exact inner _ _ _
  · dsimp only
    split <;> exact inner _ _ _
  · exact inner _ _ _

/-- The first line of a list item is empty or does not stand left of the margin of the item. -/
theorem margin_unmark (m : Marker) (l : Line) :
    (unmark m l).1.isEmpty = true ∨ (unmark m l).2 ≤ (unmark m l).1.column := by
  unfold unmark
  simp only
  split
  · rename_i h
    rcases h with h | h
    · left
      simp [Line.isEmpty, h]
    · right
      omega
  · right
    omega

theorem itemLines_pos (h : listed.Advances) (m : Marker) : 1 ≤ s.itemLines listed m l rest := by
  unfold itemLines
  simp only
  split
  · omega
  · exact h _ _ _ (margin_unmark m l)

theorem listLines_pos (h : listed.Advances) (count : Nat) (m : Marker) :
    1 ≤ s.listLines listed (count + 1) m (l :: rest) := by
  have hfirst : 1 ≤ s.itemLines listed m l rest := itemLines_pos h m
  rw [listLines]
  split
  · exact hfirst
  · split
    · exact hfirst
    · split
      · exact hfirst
      · split <;> omega

/-- All that may be found on a line, in the order in which it is tried. -/
def attempts (s : Scope) (quoted listed : Inside) (l : Line) (rest : List Line) :
    List (Option Found) :=
  [s.tableBlock? l rest, s.codeBlock? l rest, s.fenceBlock? l rest, s.quoteBlock? quoted l rest,
    s.ruleBlock? l, s.listBlock? listed l rest, s.definition? l rest, s.markupBlock? l rest,
    s.headingBlock? l, s.underlinedBlock? l rest, some (s.paragraph rest)]

theorem firstBlock_mem_attempts (s : Scope) (quoted listed : Inside) (l : Line) (rest : List Line) :
    some (s.firstBlock quoted listed l rest) ∈ s.attempts quoted listed l rest := by
  have orElse : ∀ {a b : Option Found} {p : Found} {os : List (Option Found)},
      some (b.getD p) ∈ os → some ((a <|> b).getD p) ∈ a :: os := by
    intro a b p os h
    cases a with
    | none => exact List.mem_cons_of_mem _ h
    | some f => exact List.mem_cons_self
  unfold firstBlock attempts
  split
  · iterate 9 refine orElse ?_
    cases s.underlinedBlock? l rest <;> simp
  · simp

theorem used_definition_pos (h : s.definition? l rest = some f) : 1 ≤ f.used := by
  unfold definition? at h
  split at h
  · cases h
  · obtain ⟨n, hn, rfl⟩ := Option.map_eq_some_iff.1 h
    exact Reference.lines?_pos hn

/-- What is found on a line takes that line. -/
theorem advances_firstBlock (s : Scope) (hq : quoted.Advances) (hl : listed.Advances) :
    (s.firstBlock quoted listed).Advances := by
  intro l rest
  have hmem := s.firstBlock_mem_attempts quoted listed l rest
  generalize s.firstBlock quoted listed l rest = f at hmem
  simp only [attempts, List.mem_cons, List.not_mem_nil, or_false] at hmem
  rcases hmem with table | code | fence | quote | rule | list | definition | markup | heading |
    underlined | paragraph
  · obtain ⟨columns, -, rfl⟩ := Option.map_eq_some_iff.1 table.symm
    dsimp only
    omega
  · unfold codeBlock? at code
    split at code
    · cases code
      dsimp only
      omega
    · cases code
  · obtain ⟨mark, -, rfl⟩ := Option.map_eq_some_iff.1 fence.symm
    dsimp only
    omega
  · unfold quoteBlock? at quote
    split at quote
    · cases quote
      exact hq _ _ _ (Or.inr (column_unquote l))
    · cases quote
  · unfold ruleBlock? at rule
    split at rule
    · cases rule
      exact Nat.le_refl 1
    · cases rule
  · obtain ⟨m, -, rfl⟩ := Option.map_eq_some_iff.1 list.symm
    dsimp only
    rw [Nat.add_comm]
    exact listLines_pos hl _ m
  · exact used_definition_pos definition.symm
  · obtain ⟨start, -, rfl⟩ := Option.map_eq_some_iff.1 markup.symm
    dsimp only
    omega
  · unfold headingBlock? at heading
    split at heading
    · cases heading
      exact Nat.le_refl 1
    · cases heading
  · unfold underlinedBlock? at underlined
    split at underlined
    · cases underlined
    · obtain ⟨n, -, rfl⟩ := Option.map_eq_some_iff.1 underlined.symm
      dsimp only
      omega
  · cases paragraph
    exact Nat.le_add_right _ _

end Scope

/-! ### Readers of containers -/

section Inside

variable {rules : Rules} {margin : Int} {trailing : Nat}

theorem le_stop_blocksFrom (count base : Nat) (ls : List Line) :
    base ≤ (blocksFrom rules margin trailing count base ls).2 := by
  induction count generalizing base ls with
  | zero => exact Nat.le_refl _
  | succ count ih =>
    by_cases hne : ls = []
    · subst hne
      exact Nat.le_refl _
    cases h : ls.dropWhile Line.isEmpty with
    | nil =>
      rw [blocksFrom_of_empty count hne h]
      dsimp only
      omega
    | cons l rest =>
      by_cases hl : l.column < margin
      · rw [blocksFrom_of_left count h hl]
        exact Nat.le_add_right _ _
      · rw [blocksFrom_succ count h hl]
        refine Nat.le_trans ?_ (ih _ _)
        omega

/-- Rules that advance take the first line of a container. -/
theorem Rules.Advances.linesTaken_pos (advances : rules.Advances) {s : Scope} {l : Line}
    {ls : List Line} (hfirst : l.isEmpty = true ∨ s.margin ≤ l.column) :
    1 ≤ s.linesTaken rules (l :: ls) := by
  rw [Scope.linesTaken, List.length_cons]
  by_cases hempty : l.isEmpty = true
  · have htake : 1 ≤ ((l :: ls).takeWhile Line.isEmpty).length := by
      rw [List.takeWhile_cons_of_pos hempty, List.length_cons]
      omega
    cases h : (l :: ls).dropWhile Line.isEmpty with
    | nil =>
      rw [blocksFrom_of_empty _ (List.cons_ne_nil l ls) h]
      dsimp only
      omega
    | cons l' rest =>
      by_cases hleft : l'.column < s.margin
      · rw [blocksFrom_of_left _ h hleft]
        dsimp only
        omega
      · rw [blocksFrom_succ _ h hleft]
        refine Nat.le_trans ?_ (le_stop_blocksFrom _ _ _)
        omega
  · have hmargin : ¬ l.column < s.margin := by
      have := hfirst.resolve_left hempty
      omega
    have h : (l :: ls).dropWhile Line.isEmpty = l :: ls := List.dropWhile_cons_of_neg hempty
    rw [blocksFrom_succ _ h hmargin]
    refine Nat.le_trans ?_ (le_stop_blocksFrom _ _ _)
    have := advances l ls
    omega

theorem advances_tooDeep : Inside.Advances tooDeep := by
  intro s l ls hfirst
  unfold tooDeep
  by_cases hempty : l.isEmpty = true
  · rw [List.takeWhile_cons_of_pos hempty]
    split
    · simp only [List.length_cons]
      omega
    · split <;> simp only [List.length_cons] <;> omega
  · rw [List.dropWhile_cons_of_neg hempty]
    have := hfirst.resolve_left hempty
    dsimp only
    rw [if_neg (by omega), List.length_cons]
    omega

theorem advances_inside (room : Nat) : (inside room).Advances := by
  induction room using Nat.strongRecOn with
  | ind room ih =>
    match room with
    | 0 => exact advances_tooDeep
    | 1 =>
      exact fun s _ _ h =>
        (s.advances_firstBlock advances_tooDeep advances_tooDeep).linesTaken_pos h
    | room + 2 =>
      exact fun s _ _ h =>
        (s.advances_firstBlock (ih _ (by omega)) (ih _ (by omega))).linesTaken_pos h

/-- The rules of a dialect advance. -/
theorem Dialect.advances_rules (d : Dialect) : d.rules.Advances :=
  Scope.advances_firstBlock _ (advances_inside _) (advances_inside _)

end Inside

/-! ### Nothing is passed over -/

/-- Does something that begins at a line cover the line `i`? -/
def Found.Covers (f : Found) (first i : Nat) : Prop := first ≤ i ∧ i < first + f.used

/-- A line that is not empty and stands behind what is found is none of the gap, and is found where
the search goes on. -/
theorem Found.getElem?_behind {f : Found} (hused : 0 < f.used) {first l : Line} {rest : List Line}
    {j : Nat} (hj : (first :: rest)[j]? = some l) (hne : l.isEmpty = false) (hbehind : f.used ≤ j) :
    f.gap rest ≤ j - f.used ∧
      ((f.behind rest).drop (f.gap rest))[j - f.used - f.gap rest]? = some l := by
  have hline : (f.behind rest)[j - f.used]? = some l := by
    rw [Found.behind, List.getElem?_drop, ← hj, show j = (f.used - 1 + (j - f.used)) + 1 by omega,
      List.getElem?_cons_succ]
    congr 1
    omega
  have hgap : f.gap rest ≤ j - f.used := by
    unfold Found.gap
    split
    · rename_i hempty
      refine Nat.pos_of_ne_zero fun h0 => ?_
      rw [h0, ← List.head?_eq_getElem?] at hline
      rw [hline] at hempty
      simp [hne] at hempty
    · exact Nat.zero_le _
  refine ⟨hgap, ?_⟩
  rw [List.getElem?_drop, ← hline]
  congr 1
  omega

/-- Where no line stands left of the margin, every line that is not empty is covered. -/
theorem exists_foundFrom {rules : Rules} {margin : Int} (advances : rules.Advances) {count : Nat}
    (base : Nat) {ls : List Line} (hcount : ls.length ≤ count)
    (hmargin : ∀ l ∈ ls, ¬ l.column < margin) {i : Nat} {l : Line} (hi : ls[i]? = some l)
    (hne : l.isEmpty = false) :
    ∃ p ∈ foundFrom rules margin count base ls, p.2.Covers p.1 (base + i) := by
  induction count generalizing base ls i with
  | zero =>
    obtain rfl := List.eq_nil_of_length_eq_zero (Nat.le_zero.1 hcount)
    cases hi
  | succ count ih =>
    have hsplit := List.takeWhile_append_dropWhile (p := Line.isEmpty) (l := ls)
    have hpast : (ls.takeWhile Line.isEmpty).length ≤ i := by
      refine Nat.le_of_not_lt fun hlt => ?_
      rw [← hsplit, List.getElem?_append_left hlt] at hi
      have hempty := List.all_eq_true.1 List.all_takeWhile l (List.mem_of_getElem? hi)
      rw [hne] at hempty
      cases hempty
    rw [← hsplit, List.getElem?_append_right hpast] at hi
    rw [foundFrom]
    cases h : ls.dropWhile Line.isEmpty with
    | nil =>
      rw [h] at hi
      cases hi
    | cons first rest =>
      have hmem : ∀ l ∈ first :: rest, l ∈ ls := by
        rw [← h]
        exact fun l hl => (List.dropWhile_suffix _).subset hl
      have hlength : (ls.takeWhile Line.isEmpty).length + (rest.length + 1) = ls.length := by
        rw [← List.length_cons, ← h, ← List.length_append, hsplit]
      rw [h] at hi
      dsimp only
      rw [if_neg (hmargin first (hmem _ List.mem_cons_self))]
      have hused := advances first rest
      generalize rules first rest = f at hused ⊢
      by_cases hcovered : i < (ls.takeWhile Line.isEmpty).length + f.used
      · exact ⟨_, List.mem_cons_self, by dsimp only; omega, by dsimp only; omega⟩
      · obtain ⟨hgap, hlater⟩ := Found.getElem?_behind hused hi hne (by omega)
        have hshort : ((f.behind rest).drop (f.gap rest)).length ≤ count := by
          rw [List.length_drop, Found.behind, List.length_drop]
          omega
        obtain ⟨p, hp, hcovers⟩ := ih (base + (ls.takeWhile Line.isEmpty).length + f.used +
          f.gap rest) hshort (fun l hl => hmargin l (hmem l (List.mem_cons_of_mem _
            (List.mem_of_mem_drop (List.mem_of_mem_drop hl))))) hlater
        refine ⟨p, List.mem_cons_of_mem _ hp, ?_⟩
        rwa [show base + (ls.takeWhile Line.isEmpty).length + f.used + f.gap rest +
          (i - (ls.takeWhile Line.isEmpty).length - f.used - f.gap rest) = base + i by omega]
          at hcovers

namespace Rules

variable {rules : Rules} {ls : List Line} {i : Nat}

/-- **Every line of a text that is not empty is covered by something.** -/
theorem Advances.exists_found (advances : rules.Advances) (hcolumn : ∀ l ∈ ls, 0 ≤ l.column)
    {l : Line} (hi : ls[i]? = some l) (hne : l.isEmpty = false) :
    ∃ p ∈ rules.found ls, p.2.Covers p.1 i := by
  have h := exists_foundFrom advances 0 (Nat.le_refl ls.length)
    (fun l hl => Int.not_lt.2 (hcolumn l hl)) hi hne
  rwa [Nat.zero_add] at h

/-- What covers a line is the only thing that does. -/
theorem not_covers_of_append {before after : List (Nat × Found)} {p : Nat × Found}
    (h : rules.found ls = before ++ p :: after) (hp : p.2.Covers p.1 i) :
    ∀ q ∈ before ++ after, ¬ q.2.Covers q.1 i := by
  have hpairs := rules.pairwise_found ls
  rw [h, List.pairwise_append, List.pairwise_cons] at hpairs
  obtain ⟨-, ⟨hafter, -⟩, hbefore⟩ := hpairs
  intro q hq hcovers
  unfold Found.Covers at hp hcovers
  rcases List.mem_append.1 hq with hq | hq
  · have := hbefore q hq p List.mem_cons_self
    omega
  · have := hafter q hq
    omega

end Rules

end DemoPages.Markdown
