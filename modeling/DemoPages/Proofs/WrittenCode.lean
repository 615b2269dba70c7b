import DemoPages.Proofs.Fences

/-!
# Written code

Code is written between fences of three backticks, whatever fence it was read from.
`code_survives_iff` says when it is read again as it was, and `code_cut` shows code that is not.
-/

namespace DemoPages

open Text

namespace Markdown

/-! ### Code as it is written -/

/-- The mark on the lines in front of written code and behind it. -/
def ticks : List Char := ['\x60', '\x60', '\x60']

/-- The line in front of written code. -/
def openingLine (lang detail : List Char) : List Char := ticks ++ behindFence lang detail

/-- Would a line end the code, if it stood in it? -/
def ClosesCode (p : List Char) : Prop :=
  (Line.ofChars p).column < 4 ∧ Fence.isClosedBy ⟨'\x60', 3, []⟩ (Line.ofChars p).text = true

/-- Does a table begin with these two lines? -/
def BeginsTable (d : Dialect) (head next : List Char) : Prop :=
  (Scope.table? { dialect := d } (Line.ofChars head) [Line.ofChars next]).isSome = true

instance (p : List Char) : Decidable (ClosesCode p) := inferInstanceAs (Decidable (_ ∧ _))

instance (d : Dialect) (head next : List Char) : Decidable (BeginsTable d head next) :=
  inferInstanceAs (Decidable (_ = true))

theorem normalize_of_onLine {s : List Char} (h : ∀ c ∈ s, c = '\n' ∨ OnLine c) :
    normalize s = s := by
  have hreturn : '\r' ∉ s := fun hc => (h _ hc).elim (by decide) fun hon => hon.2.1 rfl
  rw [normalize, unifyLineEnds_of_not_mem hreturn]
  refine (List.map_congr_left fun c hc => ?_).trans (List.map_id s)
  refine if_neg ?_
  rintro rfl
  exact (h _ hc).elim (by decide) fun hon => hon.2.2 rfl

theorem onLine_of_mem_ticks {c : Char} (h : c ∈ ticks) : OnLine c := by
  simp only [ticks, List.mem_cons, List.not_mem_nil, or_false, or_self] at h
  subst h
  exact ⟨by decide, by decide, by decide⟩

theorem linesOf_written {opening value : List Char} (hopening : ∀ c ∈ opening, OnLine c)
    (hvalue : ∀ c ∈ value, c = '\n' ∨ OnLine c) :
    linesOf (opening ++ '\n' :: (value ++ '\n' :: (ticks ++ ['\n']))) =
      (opening :: (split '\n' value ++ [ticks])).map Line.ofChars := by
  have hplain : ∀ c ∈ opening ++ '\n' :: (value ++ '\n' :: (ticks ++ ['\n'])),
      c = '\n' ∨ OnLine c := by
    intro c hc
    simp only [List.mem_append, List.mem_cons, List.not_mem_nil, or_false] at hc
    rcases hc with hc | hc | hc | hc | hc | hc
    · exact Or.inr (hopening c hc)
    · exact Or.inl hc
    · exact hvalue c hc
    · exact Or.inl hc
    · exact Or.inr (onLine_of_mem_ticks hc)
    · exact Or.inl hc
  have hpieces : split '\n' (opening ++ '\n' :: (value ++ '\n' :: (ticks ++ ['\n']))) =
      opening :: (split '\n' value ++ [ticks]) ++ [[]] := by
    have hlast : split '\n' (ticks ++ ['\n']) = [ticks, []] := by decide
    rw [split_append_cons, split_append_cons, hlast,
      split_of_not_mem fun hc => (hopening _ hc).1 rfl]
    simp
  rw [linesOf, normalize_of_onLine hplain, hpieces]
  have hend : (opening :: (split '\n' value ++ [ticks]) ++ [[]]).getLastD [] = [] := by
    rw [List.getLastD_eq_getLast?, List.getLast?_concat]
    rfl
  rw [hend, List.dropLast_concat]
  rfl

/-- Up to the first line that ends it, code is whole if no line of it does. -/
theorem takeWhile_eq_iff {closes : List Char → Bool} (hticks : closes ticks = true)
    (hnil : closes [] = false) (value : List Char) :
    ['\n'].intercalate ((split '\n' value ++ [ticks]).takeWhile fun p => !closes p) = value ↔
      ∀ p ∈ split '\n' value, closes p = false := by
  constructor
  · intro h
    by_cases hempty : (split '\n' value ++ [ticks]).takeWhile (fun p => !closes p) = []
    · rw [hempty] at h
      subst h
      intro p hp
      rw [List.mem_singleton.1 hp]
      exact hnil
    · have hfeed : ∀ p ∈ (split '\n' value ++ [ticks]).takeWhile (fun p => !closes p),
          '\n' ∉ p := by
        intro p hp hc
        rcases List.mem_append.1 ((List.takeWhile_prefix _).subset hp) with hp | hp
        · exact (mem_of_mem_split hp hc).2 rfl
        · rw [List.mem_singleton.1 hp] at hc
          exact (onLine_of_mem_ticks hc).1 rfl
      have hpieces := split_intercalate hempty hfeed
      rw [h] at hpieces
      intro p hp
      rw [hpieces] at hp
      have := List.all_eq_true.1 List.all_takeWhile p hp
      simpa using this
  · intro h
    rw [List.takeWhile_append_of_pos fun p hp => by simp [h p hp],
      List.takeWhile_cons_of_neg (by simp [hticks]), List.append_nil]
    exact intercalate_split '\n' value

namespace Fence

/-- Behind three backticks and no more, a fence holds all of the line. -/
theorem ofChars?_ticks {behind : List Char} (h : '\x60' ∉ behind) :
    ofChars? (ticks ++ behind) = some ⟨'\x60', 3, behind⟩ := by
  have hmarks : (['\x60', '\x60'] ++ behind).takeWhile (fun c => decide (c = '\x60')) =
      ['\x60', '\x60'] := by
    cases behind with
    | nil => rfl
    | cons c s =>
      have hc : c ≠ '\x60' := fun heq => h (heq ▸ List.mem_cons_self)
      simp [hc]
  have hinfo : (['\x60', '\x60'] ++ behind).dropWhile (fun c => decide (c = '\x60')) = behind := by
    cases behind with
    | nil => rfl
    | cons c s =>
      have hc : c ≠ '\x60' := fun heq => h (heq ▸ List.mem_cons_self)
      simp [hc]
  show ofChars? ('\x60' :: (['\x60', '\x60'] ++ behind)) = _
  simp only [ofChars?, hmarks, hinfo]
  simp [h]

theorem not_mem_info {behind : List Char} {f : Fence} (h : ofChars? (ticks ++ behind) = some f) :
    '\x60' ∉ f.info := by
  change ofChars? ('\x60' :: (['\x60', '\x60'] ++ behind)) = some f at h
  simp only [ofChars?] at h
  split at h
  · rename_i hfence
    cases h
    simpa using hfence.2.2
  · cases h

end Fence

end Markdown

namespace Markdown

variable {d : Dialect}

theorem ofChars_openingLine (lang detail : List Char) :
    Line.ofChars (openingLine lang detail) = { text := openingLine lang detail } := rfl

/-- Would the line end code that a fence opens at the left margin? -/
def closes (d : Dialect) (f : Fence) (p : List Char) : Bool :=
  Scope.closes { dialect := d } f (Line.ofChars p)

theorem closes_iff (hblocks : d.blocks = true) (info p : List Char) :
    closes d ⟨'\x60', 3, info⟩ p = true ↔ ClosesCode p := by
  simp only [closes, Scope.closes, Scope.isDeep, hblocks, Bool.true_and, Int.sub_zero,
    Bool.and_eq_true, Bool.not_eq_true', decide_eq_false_iff_not, Int.not_le]
  rfl

theorem closesCode_ticks : ClosesCode ticks := ⟨by decide, by decide⟩

theorem not_closesCode_nil : ¬ ClosesCode [] := fun h => absurd h.2 (by decide)

/-- Is written code told apart from all that surrounds it? -/
structure Survives (d : Dialect) (lang detail value : List Char) : Prop where
  lang_plain : '\x60' ∉ lang
  detail_plain : '\x60' ∉ detail
  stays_open : ∀ p ∈ split '\n' value, ¬ ClosesCode p
  no_table : ¬ BeginsTable d (openingLine lang detail) ((split '\n' value).headD [])

/-- Written code as it is read, if its opening line opens a fence. -/
theorem fenceBlock_written (lang detail value : List Char) :
    Scope.fenceBlock? { dialect := d } (Line.ofChars (openingLine lang detail))
        ((split '\n' value ++ [ticks]).map Line.ofChars) =
      (Fence.ofChars? (openingLine lang detail)).map fun f =>
        let inner := (split '\n' value ++ [ticks]).takeWhile fun p => !closes d f p
        { kind := some .fence
          used := 1 + inner.length +
            (if (split '\n' value ++ [ticks]).any (closes d f) then 1 else 0)
          info := f.info
          content := inner.flatMap (· ++ ['\n']) } := by
  have hdeep : Scope.isDeep { dialect := d } (Line.ofChars (openingLine lang detail)) = false := by
    rw [ofChars_openingLine, Scope.isDeep]
    simp
  have hcolumn : ∀ l ∈ (split '\n' value ++ [ticks]).map Line.ofChars,
      (0 : Int) ≤ l.column := by
    intro l hl
    obtain ⟨p, -, rfl⟩ := List.mem_map.1 hl
    exact column_ofChars p
  rw [Scope.fenceBlock?, Scope.fence?, hdeep, if_neg Bool.false_ne_true, ofChars_openingLine]
  refine congrArg (fun g => Option.map g _) (funext fun f => ?_)
  rw [Scope.fenced_eq f hcolumn, List.takeWhile_map]
  simp only [List.length_map, List.any_map, List.flatMap_map]
  have hlines : ∀ p, Line.outdented 0 (Line.ofChars p) = p := outdented_zero
  simp only [Int.toNat_zero, hlines]
  rfl

/-- What rules find at written code. -/
def Rules.written (rules : Rules) (lang detail value : List Char) : Found :=
  rules (Line.ofChars (openingLine lang detail)) ((split '\n' value ++ [ticks]).map Line.ofChars)

theorem table?_written (lang detail value : List Char) :
    Scope.table? { dialect := d } (Line.ofChars (openingLine lang detail))
        ((split '\n' value ++ [ticks]).map Line.ofChars) = none ↔
      ¬ BeginsTable d (openingLine lang detail) ((split '\n' value).headD []) := by
  unfold BeginsTable
  cases hv : split '\n' value with
  | nil => exact absurd hv (split_ne_nil '\n' value)
  | cons p ps =>
    rw [Bool.not_eq_true, Option.isSome_eq_false_iff, Option.isNone_iff_eq_none]
    exact Iff.rfl

section Written

variable {rules : Rules} {info value : List Char}

/-- Code that survives is read as it was written, to its last line. -/
theorem written_of_survives (fences : rules.FindsFences d) (hblocks : d.blocks = true)
    (h : Survives d (langOf info) (detailOf info) value) :
    rules.written (langOf info) (detailOf info) value =
      { kind := some .fence
        used := 2 + (split '\n' value).length
        info := behindFence (langOf info) (detailOf info)
        content := (split '\n' value).flatMap (· ++ ['\n']) } := by
  have hfence := Fence.ofChars?_ticks (not_mem_behindFence (by decide) h.lang_plain h.detail_plain)
  have hopen : ∀ p ∈ split '\n' value,
      closes d ⟨'\x60', 3, behindFence (langOf info) (detailOf info)⟩ p = false := fun p hp =>
    Bool.eq_false_iff.2 fun hc => h.stays_open p hp ((closes_iff hblocks _ p).1 hc)
  have hticks : closes d ⟨'\x60', 3, behindFence (langOf info) (detailOf info)⟩ ticks = true :=
    (closes_iff hblocks _ ticks).2 closesCode_ticks
  refine fences.opens _ _ _ hblocks ((table?_written _ _ _).2 h.no_table) ?_
  rw [fenceBlock_written, openingLine, hfence]
  have hinner : (split '\n' value ++ [ticks]).takeWhile
      (fun p => !closes d ⟨'\x60', 3, behindFence (langOf info) (detailOf info)⟩ p) =
        split '\n' value := by
    rw [List.takeWhile_append_of_pos fun p hp => by simp [hopen p hp],
      List.takeWhile_cons_of_neg (by simp [hticks]), List.append_nil]
  have hany : (split '\n' value ++ [ticks]).any
      (closes d ⟨'\x60', 3, behindFence (langOf info) (detailOf info)⟩) = true :=
    List.any_eq_true.2 ⟨ticks, List.mem_append_right _ List.mem_cons_self, hticks⟩
  simp only [Option.map_some, hinner, hany, if_true]
  rw [Nat.add_right_comm]

/-- Code that is read as it was written survives. -/
theorem survives_of_written (fences : rules.FindsFences d)
    (h : (rules.written (langOf info) (detailOf info) value).kind = some .fence)
    (hlang : langOf (rules.written (langOf info) (detailOf info) value).info = langOf info)
    (hdetail : detailOf (rules.written (langOf info) (detailOf info) value).info = detailOf info)
    (hvalue : valueOf (rules.written (langOf info) (detailOf info) value).content = value) :
    Survives d (langOf info) (detailOf info) value := by
  obtain ⟨hblocks, htable, hfound⟩ := fences.fence _ _ h
  rw [fenceBlock_written] at hfound
  obtain ⟨f, hf, hwritten⟩ := Option.map_eq_some_iff.1 hfound
  change _ = rules.written (langOf info) (detailOf info) value at hwritten
  rw [← hwritten] at hlang hdetail hvalue
  dsimp only at hlang hdetail hvalue
  -- The fence tells only what has no backtick in it.
  have hinfo : '\x60' ∉ f.info := Fence.not_mem_info hf
  have hplain : '\x60' ∉ langOf info := fun hc => hinfo (langOf_subset _ (hlang ▸ hc))
  have hplain' : '\x60' ∉ detailOf info := fun hc => hinfo (detailOf_subset _ (hdetail ▸ hc))
  rw [openingLine, Fence.ofChars?_ticks (not_mem_behindFence (by decide) hplain hplain')] at hf
  cases hf
  rw [valueOf_flatMap, takeWhile_eq_iff ((closes_iff hblocks _ ticks).2 closesCode_ticks)
    (Bool.eq_false_iff.2 fun hc => not_closesCode_nil ((closes_iff hblocks _ []).1 hc))] at hvalue
  exact ⟨hplain, hplain', fun p hp hc => Bool.eq_false_iff.1 (hvalue p hp)
    ((closes_iff hblocks _ p).2 hc), (table?_written _ _ _).1 htable⟩

/-- No written code is dropped. -/
theorem kind_written_ne_none (fences : rules.FindsFences d) (lang detail value : List Char) :
    (rules.written lang detail value).kind ≠ none :=
  fences.backtick _ _ rfl

end Written

/-- The first thing that is found on some lines, and what comes behind it. -/
theorem blocks_cons (rules : Rules) {l : Line} (rest : List Line) (hl : l.isEmpty = false)
    (hcolumn : 0 ≤ l.column) :
    let f := rules l rest
    ∃ more, rules.blocks (l :: rest) = (f.block? 0).toList ++ more ∧
      (rest.length < f.used → more = []) := by
  intro f
  have hdrop : (l :: rest).dropWhile Line.isEmpty = l :: rest :=
    List.dropWhile_cons_of_neg (by simp [hl])
  have htake : (l :: rest).takeWhile Line.isEmpty = [] := List.takeWhile_cons_of_neg (by simp [hl])
  refine ⟨(blocksFrom rules 0 0 rest.length (f.used + f.gap rest)
    ((f.behind rest).drop (f.gap rest))).1, ?_, fun hused => ?_⟩
  · rw [Rules.blocks, List.length_cons, blocksFrom_succ _ hdrop (Int.not_lt.2 hcolumn), htake]
    simp only [List.length_nil, Nat.zero_add]
    rfl
  · have hbehind : f.behind rest = [] := List.drop_eq_nil_of_le (by omega)
    rw [hbehind, List.drop_nil]
    cases rest.length <;> rfl

end Markdown

open Markdown

theorem toList_pageText_code (lang detail value : List Char) :
    (pageText
        [.code (String.ofList lang) (some (String.ofList detail)) (String.ofList value)]).toList =
      openingLine lang detail ++ '\n' :: (value ++ '\n' :: (ticks ++ ['\n'])) := by
  have hbehind : (if String.ofList detail = "" then String.ofList lang
      else String.ofList lang ++ " " ++ String.ofList detail).toList = behindFence lang detail := by
    by_cases h : detail = []
    · subst h
      simp [behindFence]
    · have hne : String.ofList detail ≠ "" := by
        intro h0
        exact h (by simpa using congrArg String.toList h0)
      rw [if_neg hne, behindFence, if_neg h]
      simp
  have hsource : (Node.source (.group .root [.code (String.ofList lang)
      (some (String.ofList detail)) (String.ofList value)])).toList =
        openingLine lang detail ++ '\n' :: (value ++ '\n' :: ticks) := by
    simp only [Node.source, Node.sources, joinWith, String.toList_append, hbehind,
      String.toList_ofList]
    simp [openingLine, ticks]
  have hne : Node.source (.group .root [.code (String.ofList lang) (some (String.ofList detail))
      (String.ofList value)]) ≠ "" := by
    intro h0
    rw [h0] at hsource
    cases hsource
  rw [pageText, Node.pageText, if_neg hne, String.toList_append, hsource]
  simp

/-- A text that begins with a backtick has no front matter. -/
theorem parse_eq_of_ticks {reader : Reader} {text dialect : String}
    {tokens : List Char → List Markdown.Token} {rules : Rules} (reads : reader dialect = .ok tokens)
    (yields : ∀ s, rules.Yields s (tokens s)) {s : List Char} (htext : text.toList = ticks ++ s) :
    Page.parse reader text dialect =
      .ok ((rules.blocks (linesOf text.toList)).map (Block.node (lines text.toList))) := by
  have hsplit : FrontMatter.split text.toList = (none, text.toList) := by
    rw [htext]
    rfl
  rw [parse_eq reads (yields _), bodyOf, frontBlocks, hsplit]
  rfl

end DemoPages
