import DemoPages.Proofs.Endings
import Mathlib.Data.List.TakeWhile
import Mathlib.Data.Nat.Digits.Defs

/-!
# Columns in front matter

Front matter sets the columns of a page where it says `columns:`, white space and a numeral
(`Sets`). What begins so is a setting in one way only, as no digit is white space
(`Text.not_isBlank_of_isDigit`). The search finds the first setting of a text (`digits?_eq_some`),
and of all front matter the last with a setting decides (`directive_reads`). The numeral may have no
more than `Text.maxDigits` digits, leading zeros included, whether it decides or not: a page with a
longer one cannot be read.
-/

namespace DemoPages

namespace Text

/-- No digit is white space. -/
theorem not_isBlank_of_isDigit {c : Char} (h : isDigit c = true) : isBlank c = false := by
  have hranges : ∀ r ∈ Category.decimals.toList, (0x30 ≤ r.1 ∧ r.2 ≤ 0x39) ∨
      (0x660 ≤ r.1 ∧ r.2 < 0x1680) ∨ (0x1681 ≤ r.1 ∧ r.2 < 0x2000) ∨ 0x3001 ≤ r.1 := by decide
  obtain ⟨r, hr, hlow, hhigh⟩ : ∃ r ∈ Category.decimals.toList, r.1 ≤ c.toNat ∧ c.toNat ≤ r.2 := by
    rw [isDigit, digit?, Option.isSome_map, Array.find?_isSome] at h
    obtain ⟨r, hr, hc⟩ := h
    exact ⟨r, Array.mem_toList_iff.2 hr, by simpa using hc⟩
  specialize hranges r hr
  simp only [isBlank, Bool.or_eq_false_iff, Bool.and_eq_false_iff, decide_eq_false_iff_not,
    beq_eq_false_iff_ne]
  omega

/-- A numeral denotes what its digits do in base ten. -/
theorem numeralValue_eq_ofDigits (ds : List Char) :
    numeralValue ds = Nat.ofDigits 10 (ds.map fun c => (digit? c).getD 0).reverse := by
  rw [Nat.ofDigits_eq_foldr, List.foldr_reverse, List.foldl_map, numeralValue]
  congr 1
  funext n c
  rw [Nat.cast_id, Nat.add_comm]

end Text

namespace FrontMatter

open Text

/-! ### Settings -/

/-- The text `s` begins with `columns:`, white space and the numeral `ds`. -/
def Sets (s ds : List Char) : Prop :=
  ∃ blanks rest, s = "columns:".toList ++ (blanks ++ (ds ++ rest)) ∧
    (∀ c ∈ blanks, isBlank c = true) ∧ ds ≠ [] ∧ (∀ c ∈ ds, isDigit c = true) ∧
    ∀ c ∈ rest.head?, isDigit c = false

/-- No setting of the columns begins anywhere in `s`. -/
def Silent (s : List Char) : Prop :=
  ∀ t, t <:+ s → ∀ ds, ¬ Sets t ds

/-- The first setting of the columns in `s` has the numeral `ds`. -/
def SetsFirst (s ds : List Char) : Prop :=
  ∃ t, t <:+ s ∧ Sets t ds ∧ ∀ t', t' <:+ s → t.length < t'.length → ∀ ds', ¬ Sets t' ds'

theorem after?_eq_some {word s rest : List Char} :
    after? word s = some rest ↔ s = word ++ rest := by
  induction word generalizing s with
  | nil => simp [after?, eq_comm]
  | cons w ws ih =>
    cases s with
    | nil => simp [after?]
    | cons c s =>
      by_cases hc : w = c
      · simp [after?, hc, ih]
      · simp [after?, hc, Ne.symm hc]

/-- The white space ends where the digits begin, and the digits where there are no more. -/
theorem digitsHere?_eq_some {s ds : List Char} : digitsHere? s = some ds ↔ Sets s ds := by
  constructor
  · intro h
    obtain ⟨r, hafter, hdigits⟩ := Option.bind_eq_some_iff.1 h
    have hstop := List.head?_dropWhile_not isDigit (r.dropWhile isBlank)
    split at hdigits
    · cases hdigits
    next hne =>
    obtain rfl := Option.some.inj hdigits
    refine ⟨r.takeWhile isBlank, (r.dropWhile isBlank).dropWhile isDigit, ?_,
      fun c => List.mem_takeWhile_imp, hne, fun c => List.mem_takeWhile_imp, fun c hc => ?_⟩
    · rw [List.takeWhile_append_dropWhile, List.takeWhile_append_dropWhile]
      exact after?_eq_some.1 hafter
    · rw [Option.mem_def.1 hc] at hstop
      exact hstop
  · rintro ⟨blanks, rest, rfl, hblanks, hne, hds, hrest⟩
    obtain ⟨d, ds, rfl⟩ := List.exists_cons_of_ne_nil hne
    have hd : isBlank d = false := not_isBlank_of_isDigit (hds d List.mem_cons_self)
    have hstop : rest.takeWhile isDigit = [] := by
      cases rest with
      | nil => rfl
      | cons c rest => simp [hrest c rfl]
    rw [digitsHere?, after?_eq_some.2 rfl, Option.bind_some, List.dropWhile_append_of_pos hblanks,
      List.cons_append, List.dropWhile_cons_of_neg (by simp [hd]), ← List.cons_append,
      List.takeWhile_append_of_pos hds, hstop, List.append_nil]

/-- The search is silent where there is no setting, and finds the first one elsewhere. -/
theorem digits?_spec (s : List Char) :
    match digits? s with
    | none => Silent s
    | some ds => SetsFirst s ds := by
  have hnil (ds : List Char) : ¬ Sets [] ds := by
    rintro ⟨blanks, rest, h, -⟩
    exact absurd h (by simp)
  induction s with
  | nil =>
    intro t ht ds
    rw [List.suffix_nil.1 ht]
    exact hnil ds
  | cons c s ih =>
    rw [digits?]
    cases hhere : digitsHere? (c :: s) with
    | some ds =>
      refine ⟨c :: s, List.suffix_rfl, digitsHere?_eq_some.1 hhere, fun t ht hlonger => ?_⟩
      exact absurd ht.length_le (by omega)
    | none =>
      have hnone (ds : List Char) : ¬ Sets (c :: s) ds := fun h =>
        absurd (digitsHere?_eq_some.2 h) (by simp [hhere])
      dsimp only
      cases hlater : digits? s with
      | none =>
        rw [hlater] at ih
        intro t ht
        rcases List.suffix_cons_iff.1 ht with rfl | ht
        · exact hnone
        · exact ih t ht
      | some ds =>
        rw [hlater] at ih
        obtain ⟨t, ht, hsets, hfirst⟩ := ih
        refine ⟨t, ht.trans (List.suffix_cons c s), hsets, fun t' ht' hlonger => ?_⟩
        rcases List.suffix_cons_iff.1 ht' with rfl | ht'
        · exact hnone
        · exact hfirst t' ht' hlonger

theorem SetsFirst.not_silent {s ds : List Char} (h : SetsFirst s ds) : ¬ Silent s := by
  obtain ⟨t, ht, hsets, -⟩ := h
  exact fun hsilent => hsilent t ht ds hsets

/-- A text has one first setting. -/
theorem SetsFirst.unique {s ds ds' : List Char} (h : SetsFirst s ds) (h' : SetsFirst s ds') :
    ds = ds' := by
  obtain ⟨t, ht, hsets, hfirst⟩ := h
  obtain ⟨t', ht', hsets', hfirst'⟩ := h'
  have hlength : t.length = t'.length :=
    Nat.le_antisymm (Nat.le_of_not_lt fun hlt => hfirst' t ht hlt ds hsets)
      (Nat.le_of_not_lt fun hlt => hfirst t' ht' hlt ds' hsets')
  obtain rfl := (List.suffix_of_suffix_length_le ht ht' hlength.le).eq_of_length hlength
  exact Option.some.inj ((digitsHere?_eq_some.2 hsets).symm.trans (digitsHere?_eq_some.2 hsets'))

theorem digits?_eq_some {s ds : List Char} : digits? s = some ds ↔ SetsFirst s ds := by
  have hspec := digits?_spec s
  cases hfound : digits? s with
  | none =>
    rw [hfound] at hspec
    exact ⟨nofun, fun h => absurd hspec (SetsFirst.not_silent h)⟩
  | some found =>
    rw [hfound] at hspec
    exact ⟨fun h => Option.some.inj h ▸ hspec, fun h => congrArg some (SetsFirst.unique hspec h)⟩

/-! ### Pages -/

/-- The block `b` is front matter whose first setting of the columns has the numeral `ds`. -/
def Asks (b : Node) (ds : List Char) : Prop :=
  ∃ value, b = .frontMatter value ∧ SetsFirst (value.getD "").toList ds

/-- The last block that asks for columns asks for the numeral `ds`. -/
def AsksLast (blocks : List Node) (ds : List Char) : Prop :=
  ∃ before b after, blocks = before ++ b :: after ∧ Asks b ds ∧ ∀ c ∈ after, ∀ ds', ¬ Asks c ds'

/-- The first numeral that is too long, of those that the blocks ask for, is `ds`. -/
def AsksTooMuch (blocks : List Node) (ds : List Char) : Prop :=
  ∃ before b after, blocks = before ++ b :: after ∧ Asks b ds ∧ maxDigits < ds.length ∧
    ∀ c ∈ before, ∀ ds', Asks c ds' → ds'.length ≤ maxDigits

theorem columnsFrom_cons_of_silent {b : Node} (h : ∀ ds, ¬ Asks b ds) (columns : Nat)
    (bs : List Node) : columnsFrom columns (b :: bs) = columnsFrom columns bs := by
  cases b with
  | frontMatter value =>
    have hnone : digits? (value.getD "").toList = none :=
      Option.eq_none_iff_forall_ne_some.2 fun ds hds => h ds ⟨value, rfl, digits?_eq_some.1 hds⟩
    simp only [columnsFrom, columnsOr, hnone]
  | _ => rfl

theorem columnsFrom_cons_of_asks {b : Node} {ds : List Char} (h : Asks b ds) (columns : Nat)
    (bs : List Node) : columnsFrom columns (b :: bs) =
      if maxDigits < ds.length then .error (.tooManyDigits ds.length)
      else columnsFrom (numeralValue ds) bs := by
  obtain ⟨value, rfl, hfirst⟩ := h
  by_cases hlong : maxDigits < ds.length <;>
    simp only [columnsFrom, columnsOr, digits?_eq_some.2 hfirst, readNumeral, hlong, if_true,
      if_false]

theorem Asks.unique {b : Node} {ds ds' : List Char} (h : Asks b ds) (h' : Asks b ds') :
    ds = ds' := by
  obtain ⟨value, rfl, hfirst⟩ := h
  obtain ⟨value', hvalue, hfirst'⟩ := h'
  obtain rfl := Node.frontMatter.inj hvalue
  exact hfirst.unique hfirst'

theorem AsksLast.cons {blocks : List Node} {ds : List Char} (h : AsksLast blocks ds) (b : Node) :
    AsksLast (b :: blocks) ds := by
  obtain ⟨before, c, after, rfl, hasks, hafter⟩ := h
  exact ⟨b :: before, c, after, rfl, hasks, hafter⟩

theorem AsksTooMuch.cons {blocks : List Node} {ds : List Char} {b : Node}
    (h : AsksTooMuch blocks ds) (hb : ∀ ds', Asks b ds' → ds'.length ≤ maxDigits) :
    AsksTooMuch (b :: blocks) ds := by
  obtain ⟨before, c, after, rfl, hasks, hlong, hbefore⟩ := h
  exact ⟨b :: before, c, after, rfl, hasks, hlong, List.forall_mem_cons.2 ⟨hb, hbefore⟩⟩

/-- The columns of a page, by whether a numeral is too long, and by the last block that asks. -/
theorem columnsFrom_spec (columns : Nat) (blocks : List Node) :
    match columnsFrom columns blocks with
    | .ok n =>
      (∀ b ∈ blocks, ∀ ds, Asks b ds → ds.length ≤ maxDigits) ∧
        ((∃ ds, AsksLast blocks ds ∧ n = numeralValue ds) ∨
          (∀ b ∈ blocks, ∀ ds, ¬ Asks b ds) ∧ n = columns)
    | .error f => ∃ ds, AsksTooMuch blocks ds ∧ f = .tooManyDigits ds.length := by
  induction blocks generalizing columns with
  | nil => exact ⟨by simp, Or.inr ⟨by simp, rfl⟩⟩
  | cons b bs ih =>
    by_cases hsilent : ∀ ds, ¬ Asks b ds
    · rw [columnsFrom_cons_of_silent hsilent]
      have hb : ∀ ds, Asks b ds → ds.length ≤ maxDigits := fun ds h => absurd h (hsilent ds)
      specialize ih columns
      cases hread : columnsFrom columns bs with
      | ok n =>
        rw [hread] at ih
        obtain ⟨hshort, ⟨ds, hlast, rfl⟩ | ⟨hnone, rfl⟩⟩ := ih
        · exact ⟨List.forall_mem_cons.2 ⟨hb, hshort⟩, Or.inl ⟨ds, hlast.cons b, rfl⟩⟩
        · exact ⟨List.forall_mem_cons.2 ⟨hb, hshort⟩,
            Or.inr ⟨List.forall_mem_cons.2 ⟨hsilent, hnone⟩, rfl⟩⟩
      | error f =>
        rw [hread] at ih
        obtain ⟨ds, hlong, rfl⟩ := ih
        exact ⟨ds, hlong.cons hb, rfl⟩
    · obtain ⟨ds, hasks⟩ := not_forall_not.1 hsilent
      rw [columnsFrom_cons_of_asks hasks]
      by_cases hlong : maxDigits < ds.length
      · rw [if_pos hlong]
        exact ⟨ds, ⟨[], b, bs, rfl, hasks, hlong, by simp⟩, rfl⟩
      rw [if_neg hlong]
      have hb : ∀ ds', Asks b ds' → ds'.length ≤ maxDigits := by
        intro ds' h
        rw [h.unique hasks]
        omega
      specialize ih (numeralValue ds)
      cases hread : columnsFrom (numeralValue ds) bs with
      | ok n =>
        rw [hread] at ih
        obtain ⟨hshort, ⟨ds', hlast, rfl⟩ | ⟨hnone, rfl⟩⟩ := ih
        · exact ⟨List.forall_mem_cons.2 ⟨hb, hshort⟩, Or.inl ⟨ds', hlast.cons b, rfl⟩⟩
        · exact ⟨List.forall_mem_cons.2 ⟨hb, hshort⟩,
            Or.inl ⟨ds, ⟨[], b, bs, rfl, hasks, hnone⟩, rfl⟩⟩
      | error f =>
        rw [hread] at ih
        obtain ⟨ds', hlong', rfl⟩ := ih
        exact ⟨ds', hlong'.cons hb, rfl⟩

/-- **Front matter is read unless a numeral is too long.** For any blocks, the directive is read if
and only if no front matter has a first setting with more than `Text.maxDigits` digits. Then the
blocks that are no front matter are left, in order, and there are as many columns as the numeral of
the last front matter with a setting denotes in base ten, its digits being of any script, or one
column if no front matter has one. Otherwise the reading fails at the first numeral that is too
long. -/
theorem directive_reads (blocks : List Node) :
    ((∃ r, directive blocks = .ok r) ↔
      ∀ b ∈ blocks, ∀ ds, Asks b ds → ds.length ≤ maxDigits) ∧
    (∀ kept columns, directive blocks = .ok (kept, columns) →
      kept = blocks.filter (fun b => !b.isFrontMatter) ∧
      ((∃ ds, AsksLast blocks ds ∧
          columns = Nat.ofDigits 10 (ds.map fun c => (digit? c).getD 0).reverse) ∨
        (∀ b ∈ blocks, ∀ ds, ¬ Asks b ds) ∧ columns = 1)) ∧
    ∀ f, directive blocks = .error f →
      ∃ ds, AsksTooMuch blocks ds ∧ f = .tooManyDigits ds.length := by
  have hspec := columnsFrom_spec 1 blocks
  refine ⟨⟨?_, fun hshort => ?_⟩, fun kept columns h => ?_, fun f h => ?_⟩
  · rintro ⟨⟨kept, columns⟩, h⟩
    rw [(directive_ok.1 h).1] at hspec
    exact hspec.1
  · cases hread : columnsFrom 1 blocks with
    | ok columns => exact ⟨(strip blocks, columns), directive_ok.2 ⟨hread, rfl⟩⟩
    | error f =>
      rw [hread] at hspec
      obtain ⟨ds, ⟨before, b, after, rfl, hasks, hlong, -⟩, -⟩ := hspec
      exact absurd (hshort b (by simp) ds hasks) (Nat.not_le.2 hlong)
  · obtain ⟨hread, rfl⟩ := directive_ok.1 h
    rw [hread] at hspec
    simp only [numeralValue_eq_ofDigits] at hspec
    exact ⟨rfl, hspec.2⟩
  · rw [directive_error.1 h] at hspec
    exact hspec

example :
    directive [.frontMatter (some "columns: x\ncolumns:\n ٠٣"), .frontMatter (some "title: y")] =
      .ok ([], 3) := rfl

/-- Front matter that is nothing but a setting. -/
theorem asks_of_digits {ds : List Char} (hne : ds ≠ []) (hds : ∀ c ∈ ds, isDigit c = true) :
    Asks (.frontMatter (some (String.ofList ("columns: ".toList ++ ds)))) ds := by
  have htext (cs : List Char) : ((some (String.ofList cs)).getD "").toList = cs := by
    rw [Option.getD_some, String.toList_ofList]
  have hblank : "columns: ".toList = "columns:".toList ++ [' '] := by decide
  have hsets : Sets ("columns: ".toList ++ ds) ds := by
    refine ⟨[' '], [], ?_, fun c hc => ?_, hne, hds, fun c hc => by cases hc⟩
    · rw [hblank, List.append_nil, List.append_assoc]
    · rw [List.mem_singleton.1 hc]
      decide
  refine ⟨_, rfl, ?_⟩
  rw [htext]
  exact ⟨_, List.suffix_rfl, hsets, fun t ht hlonger =>
    absurd ht.length_le (Nat.not_le.2 hlonger)⟩

/-- Zeros in front do not change the number, but the numeral is too long with them. -/
theorem directive_refuses_zeros :
    let ds := List.replicate 4300 '0' ++ ['2']
    let page := [Node.frontMatter (some (String.ofList ("columns: ".toList ++ ds)))]
    AsksLast page ds ∧ numeralValue ds = 2 ∧ directive page = .error (.tooManyDigits 4301) := by
  intro ds page
  have hdigits : ∀ c ∈ ds, isDigit c = true := by
    intro c hc
    rcases List.mem_append.1 hc with hc | hc
    · rw [List.eq_of_mem_replicate hc]
      decide
    · rw [List.mem_singleton.1 hc]
      decide
  have hasks := asks_of_digits (List.append_ne_nil_of_right_ne_nil _ (by decide)) hdigits
  have hlength : ds.length = 4301 := by
    rw [List.length_append, List.length_replicate, List.length_singleton]
  refine ⟨⟨[], _, [], rfl, hasks, fun c hc => by cases hc⟩, ?_, directive_error.2 ?_⟩
  · rw [numeralValue_eq_ofDigits, List.map_append, List.map_replicate, List.reverse_append,
      List.reverse_replicate]
    exact Nat.ofDigits_append_replicate_zero _
  · rw [columnsFrom_cons_of_asks hasks, hlength, if_pos (by decide)]

end FrontMatter

end DemoPages
