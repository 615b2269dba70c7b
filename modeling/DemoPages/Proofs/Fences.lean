import DemoPages.Proofs.Contents

/-!
# Fenced code

What code between fences says: the text behind the opening fence is its language and its detail
(`read_behindFence` writes them down again), and the lines in front of the first one that closes the
fence are its value (`Scope.fenced_eq`).

Rules find fences (`Rules.FindsFences`) if they take fenced code where a fence opens, and a table
alone comes before it. That is all that is asked of them about fences; the rules of a dialect do so
(`Dialect.findsFences_rules`).
-/

namespace DemoPages

open Text

namespace Markdown

/-! ### The text behind the opening fence -/

/-- The language of fenced code. -/
def langOf (info : List Char) : List Char := (cut ' ' (trim info)).1

/-- What else stands behind the opening fence. -/
def detailOf (info : List Char) : List Char := trim ((cut ' ' (trim info)).2.getD [])

/-- What is written behind the opening fence. -/
def behindFence (lang detail : List Char) : List Char :=
  if detail = [] then lang else lang ++ ' ' :: detail

/-- The text is cut at its first space, if it has one. -/
theorem info_cases (info : List Char) :
    (' ' ∉ trim info ∧ langOf info = trim info ∧ detailOf info = []) ∨
      ∃ back, ' ' ∉ langOf info ∧ trim info = langOf info ++ ' ' :: back ∧
        detailOf info = trim back ∧ detailOf info ≠ [] := by
  by_cases h : ' ' ∈ trim info
  · obtain ⟨front, back, htrim, hfront⟩ := List.eq_append_cons_of_mem h
    have hcut : cut ' ' (trim info) = (front, some back) := by rw [htrim, cut_append_cons hfront]
    have hlang : langOf info = front := by rw [langOf, hcut]
    have hdetail : detailOf info = trim back := by rw [detailOf, hcut]; rfl
    obtain ⟨c, hc, hblank⟩ := (htrim ▸ trimmed_trim info).not_blank_tail (List.cons_ne_nil ' ' back)
    rcases List.mem_cons.1 hc with rfl | hc
    · cases hblank
    · exact Or.inr ⟨back, hlang ▸ hfront, hlang ▸ htrim, hdetail, hdetail ▸ trim_ne_nil hc hblank⟩
  · have hcut := cut_of_not_mem h
    exact Or.inl ⟨h, by rw [langOf, hcut], by rw [detailOf, hcut]; rfl⟩

theorem trim_behindFence (info : List Char) :
    trim (behindFence (langOf info) (detailOf info)) =
      behindFence (langOf info) (detailOf info) := by
  have htrimmed := trimmed_trim info
  rcases info_cases info with ⟨-, hlang, hdetail⟩ | ⟨back, -, hinfo, hdetail, hne⟩
  · rw [behindFence, if_pos hdetail, hlang]
    exact trim_of_trimmed htrimmed
  · rw [behindFence, if_neg hne]
    refine trim_of_trimmed ⟨?_, ?_⟩
    · cases hlang : langOf info with
      | nil =>
        rw [hinfo, hlang] at htrimmed
        exact absurd htrimmed.head (by decide)
      | cons c lang =>
        rw [hinfo, hlang] at htrimmed
        rw [List.cons_append, trimStart, List.dropWhile_cons_of_neg]
        rw [htrimmed.head]
        exact Bool.false_ne_true
    · obtain ⟨c, hc, hblank⟩ := exists_not_blank_of_trim
        (by rwa [hdetail, trim_of_trimmed (trimmed_trim back), ← hdetail] :
          trim (detailOf info) ≠ [])
      have hstop : trimEnd (detailOf info) = detailOf info := by
        rw [hdetail]
        exact (trimmed_trim back).stop
      rw [trimEnd_append_of_not_blank _ (List.mem_cons_of_mem ' ' hc) hblank]
      rw [show ' ' :: detailOf info = [' '] ++ detailOf info from rfl,
        trimEnd_append_of_not_blank _ hc hblank, hstop]

/-- Language and detail are read again as they are written. -/
theorem read_behindFence (info : List Char) :
    langOf (behindFence (langOf info) (detailOf info)) = langOf info ∧
      detailOf (behindFence (langOf info) (detailOf info)) = detailOf info := by
  have hcut : cut ' ' (behindFence (langOf info) (detailOf info)) =
      (langOf info, if detailOf info = [] then none else some (detailOf info)) := by
    rcases info_cases info with ⟨hspace, hlang, hdetail⟩ | ⟨back, hspace, -, -, hne⟩
    · rw [behindFence, if_pos hdetail, if_pos hdetail, hlang]
      exact cut_of_not_mem hspace
    · rw [behindFence, if_neg hne, if_neg hne]
      exact cut_append_cons hspace _
  rw [← trim_behindFence] at hcut
  refine ⟨by rw [langOf, hcut], ?_⟩
  rw [detailOf, hcut]
  split
  · rename_i hnil
    exact hnil.symm
  · exact trim_of_trimmed (trimmed_trim _)

theorem langOf_subset (info : List Char) : langOf info ⊆ info := by
  refine List.Subset.trans ?_ (trim_subset info)
  rcases info_cases info with ⟨-, hlang, -⟩ | ⟨back, -, hinfo, -, -⟩
  · rw [hlang]
    exact List.Subset.refl _
  · rw [hinfo]
    exact List.subset_append_left _ _

theorem detailOf_subset (info : List Char) : detailOf info ⊆ info := by
  refine List.Subset.trans ?_ (trim_subset info)
  rcases info_cases info with ⟨-, -, hdetail⟩ | ⟨back, -, hinfo, hdetail, -⟩
  · rw [hdetail]
    exact List.nil_subset _
  · rw [hinfo, hdetail]
    exact List.Subset.trans (trim_subset back)
      (List.subset_append_of_subset_right _ (List.subset_cons_self _ _))

/-! ### The text between the fences -/

theorem mem_behindFence {lang detail : List Char} {c : Char} (h : c ∈ behindFence lang detail) :
    c = ' ' ∨ c ∈ lang ∨ c ∈ detail := by
  unfold behindFence at h
  split at h
  · exact Or.inr (Or.inl h)
  · simp only [List.mem_append, List.mem_cons] at h
    rcases h with h | h | h
    · exact Or.inr (Or.inl h)
    · exact Or.inl h
    · exact Or.inr (Or.inr h)

theorem not_mem_behindFence {lang detail : List Char} {c : Char} (hspace : c ≠ ' ')
    (hlang : c ∉ lang) (hdetail : c ∉ detail) : c ∉ behindFence lang detail := by
  intro h
  rcases mem_behindFence h with h | h | h
  · exact hspace h
  · exact hlang h
  · exact hdetail h

/-- The code that stands between fences, of its lines with their ends. -/
def valueOf (content : List Char) : List Char :=
  if content.getLast? = some '\n' then content.dropLast else content

theorem valueOf_subset (content : List Char) : valueOf content ⊆ content := by
  unfold valueOf
  split
  · exact List.dropLast_subset content
  · exact List.Subset.refl _

theorem fencedCode_token (b : Block) :
    b.token.fencedCode = .code (String.ofList (langOf b.info))
      (some (String.ofList (detailOf b.info))) (String.ofList (valueOf b.content)) := by
  simp only [Token.fencedCode, Block.token, String.toList_ofList]
  rfl

theorem flatMap_feed {ps : List (List Char)} (h : ps ≠ []) :
    ps.flatMap (· ++ ['\n']) = ['\n'].intercalate ps ++ ['\n'] := by
  induction ps with
  | nil => exact absurd rfl h
  | cons p ps ih =>
    cases ps with
    | nil => simp [List.intercalate]
    | cons q qs =>
      rw [List.flatMap_cons, ih (List.cons_ne_nil q qs)]
      simp [List.intercalate]

/-- The line feed behind the last line does not belong to the code. -/
theorem valueOf_flatMap (ps : List (List Char)) :
    valueOf (ps.flatMap (· ++ ['\n'])) = ['\n'].intercalate ps := by
  by_cases h : ps = []
  · subst h
    rfl
  · rw [flatMap_feed h, valueOf, if_pos (List.getLast?_concat ..), List.dropLast_concat]

theorem pad_append_text (p : List Char) : (Line.ofChars p).pad ++ (Line.ofChars p).text = p := by
  simp [Line.ofChars, List.span_eq_takeWhile_dropWhile]

theorem outdented_zero (p : List Char) : (Line.ofChars p).outdented 0 = p := by
  rw [Line.outdented]
  conv_rhs => rw [← pad_append_text p]
  cases (Line.ofChars p).pad with
  | nil => rfl
  | cons c pad => rfl

theorem mem_outdented {n : Nat} {l : Line} {c : Char} (h : c ∈ l.outdented n) :
    c = ' ' ∨ c ∈ l.pad ∨ c ∈ l.text := by
  have hcolumns : ∀ pad column, c ∈ Line.dropColumns n column pad l.text →
      c = ' ' ∨ c ∈ pad ∨ c ∈ l.text := by
    intro pad
    induction pad with
    | nil =>
      intro column hc
      rw [Line.dropColumns, List.mem_append] at hc
      exact hc.imp List.eq_of_mem_replicate Or.inr
    | cons d pad ih =>
      intro column hc
      rw [Line.dropColumns] at hc
      split at hc
      · simp only [List.append_assoc, List.mem_append, List.mem_cons] at hc ⊢
        rcases hc with hc | hc | hc
        · exact Or.inl (List.eq_of_mem_replicate hc)
        · exact Or.inr (Or.inl hc)
        · exact Or.inr (Or.inr hc)
      · exact (ih _ hc).imp_right fun h => h.imp_left (List.mem_cons_of_mem d)
  exact hcolumns l.pad 0 h

namespace Scope

variable {s : Scope} {l : Line}

/-- Does a line end fenced code? -/
def closes (s : Scope) (f : Fence) (l : Line) : Bool := !s.isDeep l && f.isClosedBy l.text

/-- The lines of fenced code are those up to the first one that ends it. -/
theorem fenced_eq {ls : List Line} (f : Fence) (h : ∀ l ∈ ls, s.margin ≤ l.column) :
    s.fenced f ls = (ls.takeWhile fun l => !s.closes f l, ls.any (s.closes f)) := by
  induction ls with
  | nil => rfl
  | cons l ls ih =>
    have hl := h l List.mem_cons_self
    have hleft : (!l.isEmpty && decide (l.column < s.margin)) = false := by
      rw [decide_eq_false (by omega), Bool.and_false]
    rw [fenced, hleft, if_neg Bool.false_ne_true, ih fun l hl => h l (List.mem_cons_of_mem _ hl)]
    cases hc : s.closes f l with
    | true =>
      rw [List.takeWhile_cons_of_neg (by simp [hc]), List.any_cons, hc]
      exact if_pos hc
    | false =>
      rw [List.takeWhile_cons_of_pos (by simp [hc]), List.any_cons, hc, Bool.false_or]
      exact if_neg (by rw [← closes, hc]; exact Bool.false_ne_true)

variable {quoted listed : Inside} {rest : List Line}

/-- What is found is fenced code, the definition of a link, or a block of another kind. -/
theorem firstBlock_cases (s : Scope) (quoted listed : Inside) (l : Line) (rest : List Line) :
    s.fenceBlock? l rest = some (s.firstBlock quoted listed l rest) ∨
      s.definition? l rest = some (s.firstBlock quoted listed l rest) ∨
      ∃ k, (s.firstBlock quoted listed l rest).kind = some k ∧ k ≠ .fence := by
  have hmem := s.firstBlock_mem_attempts quoted listed l rest
  generalize s.firstBlock quoted listed l rest = f at hmem ⊢
  simp only [attempts, List.mem_cons, List.not_mem_nil, or_false] at hmem
  rcases hmem with table | code | fence | quote | rule | list | definition | markup | heading |
    underlined | paragraph
  · obtain ⟨columns, -, rfl⟩ := Option.map_eq_some_iff.1 table.symm
    exact Or.inr (Or.inr ⟨.table, rfl, by decide⟩)
  · unfold codeBlock? at code
    split at code <;> cases code
    exact Or.inr (Or.inr ⟨.code, rfl, by decide⟩)
  · exact Or.inl fence.symm
  · unfold quoteBlock? at quote
    split at quote <;> cases quote
    exact Or.inr (Or.inr ⟨.quote, rfl, by decide⟩)
  · unfold ruleBlock? at rule
    split at rule <;> cases rule
    exact Or.inr (Or.inr ⟨.rule, rfl, by decide⟩)
  · obtain ⟨m, -, rfl⟩ := Option.map_eq_some_iff.1 list.symm
    exact Or.inr (Or.inr ⟨_, rfl, by split <;> decide⟩)
  · exact Or.inr (Or.inl definition.symm)
  · obtain ⟨start, -, rfl⟩ := Option.map_eq_some_iff.1 markup.symm
    exact Or.inr (Or.inr ⟨.markup, rfl, by decide⟩)
  · unfold headingBlock? at heading
    split at heading <;> cases heading
    exact Or.inr (Or.inr ⟨.heading, rfl, by decide⟩)
  · unfold underlinedBlock? at underlined
    split at underlined
    · cases underlined
    · obtain ⟨n, -, rfl⟩ := Option.map_eq_some_iff.1 underlined.symm
      exact Or.inr (Or.inr ⟨.heading, rfl, by decide⟩)
  · cases paragraph
    exact Or.inr (Or.inr ⟨.paragraph, rfl, by decide⟩)

theorem fenceBlock_of_kind (h : (s.firstBlock quoted listed l rest).kind = some .fence) :
    s.fenceBlock? l rest = some (s.firstBlock quoted listed l rest) := by
  rcases s.firstBlock_cases quoted listed l rest with hfence | hdefinition | ⟨k, hk, hne⟩
  · exact hfence
  · unfold definition? at hdefinition
    split at hdefinition
    · cases hdefinition
    · obtain ⟨n, -, hfound⟩ := Option.map_eq_some_iff.1 hdefinition
      rw [← hfound] at h
      cases h
  · rw [h] at hk
    cases hk
    exact absurd rfl hne

/-- A table would come before fenced code. -/
theorem table?_of_kind (h : (s.firstBlock quoted listed l rest).kind = some .fence) :
    s.dialect.blocks = true ∧ s.table? l rest = none := by
  have hblocks : s.dialect.blocks = true := by
    by_contra hplain
    rw [firstBlock, if_neg hplain] at h
    cases h
  refine ⟨hblocks, ?_⟩
  cases htable : s.table? l rest with
  | none => rfl
  | some columns =>
    rw [firstBlock, if_pos hblocks, tableBlock?, htable] at h
    cases h

/-- Nothing but a table comes before fenced code. -/
theorem firstBlock_of_fence {f : Found} (hblocks : s.dialect.blocks = true)
    (htable : s.table? l rest = none) (hfence : s.fenceBlock? l rest = some f) :
    s.firstBlock quoted listed l rest = f := by
  have hcode : s.codeBlock? l rest = none := by
    unfold codeBlock?
    split
    · rename_i hdeep
      rw [fenceBlock?, fence?, if_pos hdeep] at hfence
      cases hfence
    · rfl
  rw [firstBlock, if_pos hblocks, tableBlock?, htable, hcode, hfence]
  rfl

end Scope

/-- Do rules find the fenced code of a dialect? It is found where a fence opens and no table begins,
and nowhere else; and a line that begins with a backtick is not dropped. -/
structure Rules.FindsFences (rules : Rules) (d : Dialect) : Prop where
  opens : ∀ l rest f, d.blocks = true → Scope.table? { dialect := d } l rest = none →
    Scope.fenceBlock? { dialect := d } l rest = some f → rules l rest = f
  fence : ∀ l rest, (rules l rest).kind = some .fence → d.blocks = true ∧
    Scope.table? { dialect := d } l rest = none ∧
    Scope.fenceBlock? { dialect := d } l rest = some (rules l rest)
  backtick : ∀ l rest, l.text.head? = some '\x60' → (rules l rest).kind ≠ none

/-- The rules of a dialect find its fenced code. -/
theorem Dialect.findsFences_rules (d : Dialect) : d.rules.FindsFences d where
  opens _ _ _ hblocks htable hfence := Scope.firstBlock_of_fence hblocks htable hfence
  fence l rest h :=
    ⟨(Scope.table?_of_kind h).1, (Scope.table?_of_kind h).2, Scope.fenceBlock_of_kind h⟩
  backtick l rest hhead h := by
    rcases Scope.firstBlock_cases { dialect := d } (inside (d.depth - 1)) (inside (d.depth - 2))
      l rest with hfence | hdefinition | ⟨k, hk, -⟩
    · obtain ⟨f, -, hf⟩ := Option.map_eq_some_iff.1 hfence
      rw [rules, ← hf] at h
      cases h
    · -- The definition of a link begins with a bracket.
      unfold Scope.definition? at hdefinition
      split at hdefinition
      · cases hdefinition
      · obtain ⟨n, hn, -⟩ := Option.map_eq_some_iff.1 hdefinition
        obtain ⟨c, s, htext⟩ : ∃ c s, l.text = c :: s := by
          cases htext : l.text with
          | nil =>
            rw [htext] at hhead
            cases hhead
          | cons c s => exact ⟨c, s, rfl⟩
        rw [htext] at hhead hn
        cases hhead
        cases hn
    · rw [rules, hk] at h
      cases h

/-! ### Where code comes from -/

/-- What may stand on a line. -/
def OnLine (c : Char) : Prop := c ≠ '\n' ∧ c ≠ '\r' ∧ c ≠ '\x00'

theorem not_mem_unifyLineEnds (s : List Char) : '\r' ∉ unifyLineEnds s := by
  fun_induction unifyLineEnds s with
  | case1 => exact List.not_mem_nil
  | case2 s ih => simpa using ih
  | case3 c s _ ih =>
    rw [List.mem_cons, not_or]
    refine ⟨?_, ih⟩
    split
    · decide
    · rename_i h
      exact Ne.symm h

theorem onLine_of_mem_linesOf {s : List Char} {l : Line} (hl : l ∈ linesOf s) :
    ∃ p, l = Line.ofChars p ∧ ∀ c ∈ p, OnLine c := by
  obtain ⟨p, hp, rfl⟩ := List.mem_map.1 hl
  have hpiece : p ∈ split '\n' (normalize s) := by
    split at hp
    · exact List.dropLast_subset _ hp
    · exact hp
  refine ⟨p, rfl, fun c hc => ?_⟩
  obtain ⟨hmem, hfeed⟩ := mem_of_mem_split hpiece hc
  obtain ⟨d, hd, rfl⟩ := List.mem_map.1 hmem
  refine ⟨hfeed, ?_, ?_⟩
  · split
    · decide
    · rintro rfl
      exact not_mem_unifyLineEnds s hd
  · split
    · decide
    · assumption

theorem exists_of_mem_foundFrom {rules : Rules} {margin : Int} {count base : Nat} {ls : List Line}
    {p : Nat × Found} (h : p ∈ foundFrom rules margin count base ls) :
    ∃ l rest, l :: rest <:+ ls ∧ p.2 = rules l rest := by
  induction count generalizing base ls with
  | zero => cases h
  | succ count ih =>
    rw [foundFrom] at h
    have hsuffix := List.dropWhile_suffix (p := Line.isEmpty) (l := ls)
    split at h
    · cases h
    · rename_i l rest hdrop
      rw [hdrop] at hsuffix
      split at h
      · cases h
      · rcases List.mem_cons.1 h with rfl | h
        · exact ⟨l, rest, hsuffix, rfl⟩
        · obtain ⟨l', rest', hlater, hp⟩ := ih h
          refine ⟨l', rest', ?_, hp⟩
          exact ((hlater.trans (List.drop_suffix _ _)).trans (List.drop_suffix _ _)).trans
            ((List.suffix_cons l rest).trans hsuffix)

theorem Fence.info_subset {s : List Char} {f : Fence} (h : Fence.ofChars? s = some f) :
    f.info ⊆ s := by
  unfold Fence.ofChars? at h
  split at h
  · dsimp only at h
    split at h
    · cases h
      exact List.Subset.trans (List.dropWhile_suffix _).subset (List.subset_cons_self _ _)
    · cases h
  · cases h

/-- What fenced code holds comes from the lines of its text. -/
theorem onLine_of_fence {rules : Rules} {d : Dialect} (fences : rules.FindsFences d) {s : List Char}
    {b : Block} (hb : b ∈ rules.blocks (linesOf s)) (hkind : b.kind = .fence) :
    d.blocks = true ∧ (∀ c ∈ b.info, OnLine c) ∧ ∀ c ∈ b.content, c = '\n' ∨ OnLine c := by
  rw [Rules.blocks_eq_filterMap] at hb
  obtain ⟨p, hp, hpb⟩ := List.mem_filterMap.1 hb
  obtain ⟨kind, hk, rfl⟩ := Option.map_eq_some_iff.1 hpb
  obtain ⟨l, rest, hsuffix, hfirst⟩ := exists_of_mem_foundFrom hp
  dsimp only at hkind ⊢
  subst hkind
  rw [hfirst] at hk ⊢
  have hline : ∀ l' ∈ l :: rest, ∃ q, l' = Line.ofChars q ∧ ∀ c ∈ q, OnLine c := fun l' hl' =>
    onLine_of_mem_linesOf (hsuffix.subset hl')
  have hon : ∀ l' ∈ l :: rest, ∀ c, c ∈ l'.pad ∨ c ∈ l'.text → OnLine c := by
    intro l' hl' c hc
    obtain ⟨q, rfl, hq⟩ := hline l' hl'
    exact hq c (pad_append_text q ▸ List.mem_append.2 hc)
  obtain ⟨hblocks, -, hblock⟩ := fences.fence l rest hk
  obtain ⟨f, hf, hfound⟩ := Option.map_eq_some_iff.1 hblock
  rw [← hfound]
  dsimp only
  refine ⟨hblocks, fun c hc => ?_, fun c hc => ?_⟩
  · unfold Scope.fence? at hf
    split at hf
    · cases hf
    · exact hon l List.mem_cons_self c (Or.inr (Fence.info_subset hf hc))
  · obtain ⟨i, hi, hc⟩ := List.mem_flatMap.1 hc
    rw [Scope.fenced_eq] at hi
    · have hmem : i ∈ l :: rest := List.mem_cons_of_mem l ((List.takeWhile_prefix _).subset hi)
      rcases List.mem_append.1 hc with hc | hc
      · rcases mem_outdented hc with rfl | hc
        · exact Or.inr ⟨by decide, by decide, by decide⟩
        · exact Or.inr (hon i hmem c hc)
      · exact Or.inl (List.mem_singleton.1 hc)
    · intro l' hl'
      obtain ⟨q, rfl, -⟩ := hline l' (List.mem_cons_of_mem l hl')
      exact column_ofChars q

end Markdown

/-- Code in a page was read from between fences. -/
theorem exists_fence {reader : Markdown.Reader} {text dialect : String}
    {tokens : List Char → List Markdown.Token} {rules : Markdown.Rules}
    (reads : reader dialect = .ok tokens)
    (yields : rules.Yields (bodyOf text) (tokens (bodyOf text))) {page : List Node}
    (hpage : Page.parse reader text dialect = .ok page) {lang value : String} {info : Option String}
    (hcode : .code lang info value ∈ page) :
    ∃ b ∈ rules.blocks (Markdown.linesOf (bodyOf text)), b.kind = .fence ∧
      b.token.fencedCode = .code lang info value := by
  rw [parse_eq reads yields] at hpage
  cases hpage
  rcases List.mem_append.1 hcode with hcode | hcode
  · unfold frontBlocks at hcode
    cases h : (FrontMatter.split text.toList).1 with
    | none =>
      rw [h] at hcode
      cases hcode
    | some front =>
      rw [h] at hcode
      simp at hcode
  · obtain ⟨b, hb, hnode⟩ := List.mem_map.1 hcode
    unfold Markdown.Block.node at hnode
    split at hnode
    · rename_i hkind
      exact ⟨b, hb, hkind, hnode⟩
    · cases hnode

end DemoPages
