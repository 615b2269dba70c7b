import Mathlib.Data.List.DropRight
import DemoPages.Text.Blank
import DemoPages.Text.Pieces

/-!
# Texts, cut and trimmed

Where the separator stands, `split` cuts: pieces hold no separator, pieces without one that are
joined by it come apart again, and a text between separators keeps its pieces inside a longer one.
White space at the end of a text is taken away whatever stands in front of it.
-/

namespace DemoPages.Text

/-! ### Pieces -/

theorem split_eq_splitOn (sep : Char) (s : List Char) : split sep s = s.splitOn sep := by
  induction s with
  | nil => simp [split]
  | cons c s ih =>
    have hcons : (c :: s).splitOn sep = if (c == sep) = true then [] :: s.splitOn sep
        else (s.splitOn sep).modifyHead (c :: ·) := by
      simp only [List.splitOn_eq_splitOnP]
      exact List.splitOnP_cons_eq_if_modifyHead c s
    have hne : s.splitOn sep ≠ [] := ih ▸ split_ne_nil sep s
    rw [split, ih, hcons]
    by_cases h : c = sep
    · simp [h]
    · cases hs : s.splitOn sep with
      | nil => exact absurd hs hne
      | cons p ps => simp [h, consPiece]

theorem split_of_not_mem {sep : Char} {s : List Char} (h : sep ∉ s) : split sep s = [s] := by
  induction s with
  | nil => rfl
  | cons c s ih =>
    rw [List.mem_cons, not_or] at h
    rw [split, if_neg (Ne.symm h.1), ih h.2]
    rfl

theorem consPiece_append (c : Char) {ps : List (List Char)} (h : ps ≠ []) (qs : List (List Char)) :
    consPiece c (ps ++ qs) = consPiece c ps ++ qs := by
  cases ps with
  | nil => exact absurd rfl h
  | cons p ps => rfl

theorem split_append_cons (sep : Char) (s t : List Char) :
    split sep (s ++ sep :: t) = split sep s ++ split sep t := by
  induction s with
  | nil => simp [split]
  | cons c s ih =>
    rw [List.cons_append, split, split, ih]
    split
    · rfl
    · exact consPiece_append c (split_ne_nil sep s) _

theorem split_intercalate {sep : Char} {ps : List (List Char)} (hne : ps ≠ [])
    (h : ∀ p ∈ ps, sep ∉ p) : split sep ([sep].intercalate ps) = ps := by
  rw [split_eq_splitOn]
  exact List.splitOn_intercalate sep h hne

/-- What a piece holds stands in the text, and is no separator. -/
theorem mem_of_mem_split {sep c : Char} {s p : List Char} (hp : p ∈ split sep s) (hc : c ∈ p) :
    c ∈ s ∧ c ≠ sep := by
  induction s generalizing p with
  | nil =>
    rw [split, List.mem_singleton] at hp
    subst hp
    cases hc
  | cons d s ih =>
    rw [split] at hp
    split at hp
    · rcases List.mem_cons.1 hp with rfl | hp
      · cases hc
      · have := ih hp hc
        exact ⟨List.mem_cons_of_mem _ this.1, this.2⟩
    · rename_i hd
      cases hs : split sep s with
      | nil => exact absurd hs (split_ne_nil sep s)
      | cons q qs =>
        rw [hs, consPiece] at hp
        rcases List.mem_cons.1 hp with rfl | hp
        · rcases List.mem_cons.1 hc with rfl | hc
          · exact ⟨List.mem_cons_self, hd⟩
          · have := ih (hs ▸ List.mem_cons_self) hc
            exact ⟨List.mem_cons_of_mem _ this.1, this.2⟩
        · have := ih (hs ▸ List.mem_cons_of_mem _ hp) hc
          exact ⟨List.mem_cons_of_mem _ this.1, this.2⟩

theorem mem_of_mem_intercalate {α : Type} {x : α} {sep : List α} {ps : List (List α)}
    (h : x ∈ sep.intercalate ps) : x ∈ sep ∨ ∃ p ∈ ps, x ∈ p := by
  induction ps with
  | nil => simp at h
  | cons p ps ih =>
    cases ps with
    | nil => exact Or.inr ⟨p, List.mem_singleton.2 rfl, by simpa using h⟩
    | cons q qs =>
      rw [List.intercalate_cons_cons, List.mem_append, List.mem_append] at h
      rcases h with (h | h) | h
      · exact Or.inr ⟨p, List.mem_cons_self, h⟩
      · exact Or.inl h
      · exact (ih h).imp_right fun ⟨r, hr, hx⟩ => ⟨r, List.mem_cons_of_mem p hr, hx⟩

theorem mem_intercalate {α : Type} {x : α} (sep : List α) {p : List α} {ps : List (List α)}
    (hp : p ∈ ps) (hx : x ∈ p) : x ∈ sep.intercalate ps := by
  induction ps with
  | nil => cases hp
  | cons r ps ih =>
    cases ps with
    | nil => simpa [List.mem_singleton.1 hp] using hx
    | cons q qs =>
      rw [List.intercalate_cons_cons, List.mem_append, List.mem_append]
      rcases List.mem_cons.1 hp with rfl | hp
      · exact Or.inl (Or.inl hx)
      · exact Or.inr (ih hp)

/-- What stands in the text and is no separator is in a piece. -/
theorem exists_mem_split {sep c : Char} {s : List Char} (hc : c ∈ s) (hne : c ≠ sep) :
    ∃ p ∈ split sep s, c ∈ p := by
  rw [← intercalate_split sep s] at hc
  exact (mem_of_mem_intercalate hc).resolve_left fun h => hne (List.mem_singleton.1 h)

theorem split_map {sep : Char} {f : Char → Char} {s : List Char}
    (h : ∀ c ∈ s, f c = sep ↔ c = sep) : split sep (s.map f) = (split sep s).map (List.map f) := by
  induction s with
  | nil => rfl
  | cons c s ih =>
    have hc := h c List.mem_cons_self
    rw [List.map_cons, split, split, ih fun d hd => h d (List.mem_cons_of_mem _ hd)]
    by_cases hsep : c = sep
    · rw [if_pos (hc.2 hsep), if_pos hsep]
      rfl
    · rw [if_neg fun h' => hsep (hc.1 h'), if_neg hsep]
      cases hs : split sep s with
      | nil => exact absurd hs (split_ne_nil sep s)
      | cons p ps => rfl

/-- Is the text cut at its start, or behind a separator? -/
def EndsAt (sep : Char) (s : List Char) : Prop := s = [] ∨ ∃ t, s = t ++ [sep]

/-- Is the text cut at its end, or in front of a separator? -/
def BeginsAt (sep : Char) (s : List Char) : Prop := s = [] ∨ ∃ t, s = sep :: t

/-- Between two cuts, a text keeps its pieces. -/
theorem mem_split_append {sep : Char} {front s back p : List Char} (hfront : EndsAt sep front)
    (hback : BeginsAt sep back) (hp : p ∈ split sep s) : p ∈ split sep (front ++ s ++ back) := by
  have hinner : p ∈ split sep (front ++ s) := by
    rcases hfront with rfl | ⟨t, rfl⟩
    · exact hp
    · rw [List.append_assoc, List.singleton_append, split_append_cons]
      exact List.mem_append_right _ hp
  rcases hback with rfl | ⟨t, rfl⟩
  · rwa [List.append_nil]
  · rw [split_append_cons]
    exact List.mem_append_left _ hinner

theorem joinWith_cons (sep s : String) {r : List String} (h : r ≠ []) :
    joinWith sep (s :: r) = s ++ sep ++ joinWith sep r := by
  cases r with
  | nil => exact absurd rfl h
  | cons t r => rfl

theorem toList_joinWith (sep : String) (ss : List String) :
    (joinWith sep ss).toList = sep.toList.intercalate (ss.map String.toList) := by
  induction ss with
  | nil => rfl
  | cons s r ih =>
    cases r with
    | nil => simp [joinWith]
    | cons t r =>
      rw [joinWith, String.toList_append, String.toList_append, ih, List.map_cons, List.map_cons,
        List.map_cons, List.intercalate_cons_cons, List.append_assoc]

theorem cut_of_not_mem {sep : Char} {s : List Char} (h : sep ∉ s) : cut sep s = (s, none) := by
  induction s with
  | nil => rfl
  | cons c s ih =>
    rw [List.mem_cons, not_or] at h
    rw [cut, if_neg (Ne.symm h.1), ih h.2]

theorem cut_append_cons {sep : Char} {s : List Char} (h : sep ∉ s) (t : List Char) :
    cut sep (s ++ sep :: t) = (s, some t) := by
  induction s with
  | nil => simp [cut]
  | cons c s ih =>
    rw [List.mem_cons, not_or] at h
    rw [List.cons_append, cut, if_neg (Ne.symm h.1), ih h.2]

theorem not_mem_cut (sep : Char) (s : List Char) : sep ∉ (cut sep s).1 := by
  induction s with
  | nil => exact List.not_mem_nil
  | cons c s ih =>
    rw [cut]
    split
    case isTrue => exact List.not_mem_nil
    case isFalse h => exact List.not_mem_cons_of_ne_of_not_mem (Ne.symm h) ih

/-! ### White space at the ends -/

theorem trimEnd_eq_rdropWhile (s : List Char) : trimEnd s = s.rdropWhile isBlank := rfl

theorem trimEnd_append_of_blank (s : List Char) {t : List Char} (h : ∀ c ∈ t, isBlank c = true) :
    trimEnd (s ++ t) = trimEnd s := by
  have hdrop : t.reverse.dropWhile isBlank = [] :=
    List.dropWhile_eq_nil_iff.2 fun c hc => h c (List.mem_reverse.1 hc)
  rw [trimEnd, List.reverse_append, List.dropWhile_append, hdrop]
  rfl

theorem trimEnd_append_of_not_blank (s : List Char) {t : List Char} {c : Char} (hc : c ∈ t)
    (h : isBlank c = false) : trimEnd (s ++ t) = s ++ trimEnd t := by
  have hdrop : t.reverse.dropWhile isBlank ≠ [] := by
    intro hnil
    have := List.dropWhile_eq_nil_iff.1 hnil c (List.mem_reverse.2 hc)
    rw [h] at this
    cases this
  rw [trimEnd, trimEnd, List.reverse_append, List.dropWhile_append, if_neg (by simpa using hdrop)]
  simp

/-- Does a text neither begin nor end with white space? -/
structure Trimmed (s : List Char) : Prop where
  start : trimStart s = s
  stop : trimEnd s = s

theorem trim_of_trimmed {s : List Char} (h : Trimmed s) : trim s = s := by
  rw [trim, h.start, h.stop]

theorem trimmed_trim (s : List Char) : Trimmed (trim s) where
  stop := by
    rw [trim, trimEnd_eq_rdropWhile]
    exact List.rdropWhile_idempotent isBlank _
  start := by
    have hstart : trimStart (trimStart s) = trimStart s := List.dropWhile_idempotent isBlank s
    rw [trimStart, List.dropWhile_eq_self_iff] at hstart ⊢
    intro hl
    obtain ⟨t, ht⟩ : trim s <+: trimStart s := List.rdropWhile_prefix isBlank _
    have hlong : 0 < (trimStart s).length := by
      rw [← ht, List.length_append]
      omega
    have hhead := hstart hlong
    simpa only [← ht, List.getElem_append_left hl] using hhead

theorem Trimmed.head {c : Char} {s : List Char} (h : Trimmed (c :: s)) : isBlank c = false := by
  have := h.start
  by_contra hc
  rw [Bool.not_eq_false] at hc
  rw [trimStart, List.dropWhile_cons_of_pos hc] at this
  have := congrArg List.length this
  have hle := (List.dropWhile_suffix (p := isBlank) (l := s)).length_le
  rw [List.length_cons] at this
  omega

theorem Trimmed.not_blank_tail {s t : List Char} (h : Trimmed (s ++ t)) (hne : t ≠ []) :
    ∃ c ∈ t, isBlank c = false := by
  by_contra hall
  have hblank : ∀ c ∈ t, isBlank c = true := by
    intro c hc
    by_contra hc'
    exact hall ⟨c, hc, by simpa using hc'⟩
  have hstop := h.stop
  rw [trimEnd_append_of_blank s hblank] at hstop
  have hle : (trimEnd s).length ≤ s.length := (List.rdropWhile_prefix isBlank s).length_le
  rw [hstop, List.length_append] at hle
  have := List.length_pos_of_ne_nil hne
  omega

theorem exists_not_blank_of_trim {s : List Char} (h : trim s ≠ []) :
    ∃ c ∈ s, isBlank c = false := by
  by_contra hnone
  have hblank : ∀ c ∈ s, isBlank c = true := by
    intro c hc
    by_contra hc'
    exact hnone ⟨c, hc, by simpa using hc'⟩
  refine h ?_
  rw [trim, trimStart, List.dropWhile_eq_nil_iff.2 hblank]
  rfl

theorem trim_ne_nil {s : List Char} {c : Char} (hc : c ∈ s) (h : isBlank c = false) :
    trim s ≠ [] := by
  intro hnil
  have hstart : ∀ d ∈ trimStart s, isBlank d = true := List.rdropWhile_eq_nil_iff.1 hnil
  have hsplit := List.takeWhile_append_dropWhile (p := isBlank) (l := s)
  rw [← hsplit, List.mem_append] at hc
  have hblank : isBlank c = true :=
    hc.elim (fun hc => List.all_eq_true.1 List.all_takeWhile c hc) (hstart c)
  rw [h] at hblank
  cases hblank

theorem trim_subset (s : List Char) : trim s ⊆ s :=
  List.Subset.trans (List.rdropWhile_prefix isBlank _).subset (List.dropWhile_suffix isBlank).subset

end DemoPages.Text
