import DemoPages.Component.Artifact
import DemoPages.Settings

/-!
# What a component's name tells

The name of a component is its beginning, eight digits for its page, the letter `I` and the index.
Read from its end it comes apart in one way only, since no numeral holds an `I` and the eight digits
are eight: components with one name belong to pages with the same digits
(`eq_of_componentName_eq`). Behind the name, the extension is what follows the last dot
(`name_eq_of_append_extension_eq`).
-/

namespace DemoPages

/-! ### Lists that come apart at a separator -/

/-- Two lists that end in the same mark and something without it come apart there. -/
theorem append_cons_inj_of_not_mem {α : Type} {c : α} {xs xs' ys ys' : List α}
    (hys : c ∉ ys) (hys' : c ∉ ys') (h : xs ++ c :: ys = xs' ++ c :: ys') :
    xs = xs' ∧ ys = ys' := by
  rcases List.append_eq_append_iff.1 h with ⟨zs, rfl, hzs⟩ | ⟨zs, rfl, hzs⟩
  · cases zs with
    | nil => simpa using hzs
    | cons z zs =>
      injection hzs with _ htail
      exact absurd (by rw [htail]; simp) hys
  · cases zs with
    | nil => simpa [eq_comm] using hzs
    | cons z zs =>
      injection hzs with _ htail
      exact absurd (by rw [htail]; simp) hys'

/-! ### Digits -/

theorem Text.length_hex (width n : Nat) : (Text.hex width n).length = width := by
  induction width generalizing n with
  | zero => rfl
  | succ width ih => simp [Text.hex, ih]

theorem Text.mem_hex {c : Char} {width n : Nat} (h : c ∈ Text.hex width n) :
    ∃ d < 16, c = Text.hexDigit d := by
  induction width generalizing n with
  | zero => cases h
  | succ width ih =>
    rcases List.mem_append.1 h with h | h
    · exact ih h
    · exact ⟨n % 16, Nat.mod_lt n (by decide), List.mem_singleton.1 h⟩

theorem Text.isAlphanum_of_mem_hex {c : Char} {width n : Nat} (h : c ∈ Text.hex width n) :
    c.isAlphanum = true := by
  obtain ⟨d, hd, rfl⟩ := Text.mem_hex h
  have hdigits : ∀ d < 16, (Text.hexDigit d).isAlphanum = true := by decide
  exact hdigits d hd

/-- A numeral holds nothing but digits and a minus sign. -/
theorem Text.mem_decimal {c : Char} {i : Int} (h : c ∈ (Text.decimal i).toList) :
    c.isDigit = true ∨ c = '-' := by
  cases i with
  | ofNat n =>
    have hc : c ∈ n.repr.toList := h
    rw [Nat.toList_repr] at hc
    exact Or.inl (Nat.isDigit_of_mem_toDigits (by decide) (by decide) hc)
  | negSucc n =>
    have hc : c ∈ ("-" ++ (n + 1).repr).toList := h
    rw [String.toList_append, List.mem_append, Nat.toList_repr] at hc
    rcases hc with hc | hc
    · exact Or.inr (by simpa using hc)
    · exact Or.inl (Nat.isDigit_of_mem_toDigits (by decide) (by decide) hc)

theorem Text.repr_inj {m n : Nat} (h : m.repr = n.repr) : m = n := by
  have hdigits := congrArg String.toList h
  rw [Nat.toList_repr, Nat.toList_repr] at hdigits
  rw [← Nat.ofDigitChars_ten_toDigits (n := m), hdigits, Nat.ofDigitChars_ten_toDigits]

theorem Text.minus_not_mem_repr (n : Nat) : '-' ∉ n.repr.toList := by
  rw [Nat.toList_repr]
  exact fun h => absurd (Nat.isDigit_of_mem_toDigits (by decide) (by decide) h) (by decide)

/-- A numeral tells its number: the minus sign tells whether it is negative, and the digits how
large it is. -/
theorem Text.decimal_inj {i j : Int} (h : decimal i = decimal j) : i = j := by
  cases i with
  | ofNat m =>
    cases j with
    | ofNat n => exact congrArg Int.ofNat (repr_inj h)
    | negSucc n =>
      have hm : m.repr = "-" ++ (n + 1).repr := h
      exact absurd (by rw [hm]; simp) (minus_not_mem_repr m)
  | negSucc m =>
    cases j with
    | ofNat n =>
      have hn : "-" ++ (m + 1).repr = n.repr := h
      exact absurd (by rw [← hn]; simp) (minus_not_mem_repr n)
    | negSucc n =>
      have hnumeral : "-" ++ (m + 1).repr = "-" ++ (n + 1).repr := h
      rw [String.append_right_inj] at hnumeral
      exact congrArg Int.negSucc (Nat.succ.inj (repr_inj hnumeral))

namespace Digest

theorem length_hex (s : State) : s.hex.length = 32 := by
  have hword (w : UInt32) :
      ((littleEndian 4 w.toNat).flatMap fun b => Text.hex 2 b.toNat).length = 8 := by
    simp [littleEndian, Text.length_hex]
  simp [State.hex, List.flatMap_append, hword]

theorem isAlphanum_of_mem_hex {s : State} {c : Char} (h : c ∈ s.hex) : c.isAlphanum = true := by
  obtain ⟨b, -, hb⟩ := List.mem_flatMap.1 h
  exact Text.isAlphanum_of_mem_hex hb

/-- The eight digits that stand for a page in the names of its components. -/
def mark (file : String) : List Char := (md5 file).toList.take 8

theorem length_mark (file : String) : (mark file).length = 8 := by
  simp [mark, md5, length_hex]

theorem isAlphanum_of_mem_mark {file : String} {c : Char} (h : c ∈ mark file) :
    c.isAlphanum = true := by
  have hmem := List.mem_of_mem_take h
  rw [md5, String.toList_ofList] at hmem
  exact isAlphanum_of_mem_hex hmem

theorem slash_not_mem_mark (file : String) : '/' ∉ mark file := fun h =>
  absurd (isAlphanum_of_mem_mark h) (by decide)

end Digest

/-! ### Names -/

theorem toList_componentName (file : String) (index : Int) (namePrefix : String) :
    (componentName file index namePrefix).toList =
      namePrefix.toList ++ Digest.mark file ++ 'I' :: (Text.decimal index).toList := by
  simp [componentName, Digest.mark]

theorem I_not_mem_decimal (i : Int) : 'I' ∉ (Text.decimal i).toList := by
  intro h
  rcases Text.mem_decimal h with h | h
  · exact absurd h (by decide)
  · exact absurd h (by decide)

/-- Components of one name have one beginning, one index and the same digits for their pages. -/
theorem eq_of_componentName_eq {file file' : String} {i j : Int} {p q : String}
    (h : componentName file i p = componentName file' j q) :
    p = q ∧ Digest.mark file = Digest.mark file' ∧ Text.decimal i = Text.decimal j := by
  have hlist := congrArg String.toList h
  rw [toList_componentName, toList_componentName] at hlist
  obtain ⟨hfront, hindex⟩ :=
    append_cons_inj_of_not_mem (I_not_mem_decimal i) (I_not_mem_decimal j) hlist
  obtain ⟨hstart, hmark⟩ :=
    List.append_inj' hfront (by rw [Digest.length_mark, Digest.length_mark])
  exact ⟨String.toList_inj.1 hstart, hmark, String.toList_inj.1 hindex⟩

/-- A name tells its index. -/
theorem index_eq_of_componentName_eq {file file' : String} {i j : Nat} {p q : String}
    (h : componentName file i p = componentName file' j q) : i = j :=
  Int.ofNat.inj (Text.decimal_inj (eq_of_componentName_eq h).2.2)

/-- Behind its beginning, a name holds nothing but letters, digits and a minus sign. -/
theorem mem_componentName {file : String} {i : Int} {p : String} {c : Char}
    (h : c ∈ (componentName file i p).toList) :
    c ∈ p.toList ∨ c.isAlphanum = true ∨ c = '-' := by
  rw [toList_componentName] at h
  rcases List.mem_append.1 h with h | h
  · rcases List.mem_append.1 h with h | h
    · exact Or.inl h
    · exact Or.inr (Or.inl (Digest.isAlphanum_of_mem_mark h))
  · rcases List.mem_cons.1 h with rfl | h
    · exact Or.inr (Or.inl (by decide))
    · rcases Text.mem_decimal h with h | h
      · exact Or.inr (Or.inl (by simp [Char.isAlphanum, h]))
      · exact Or.inr (Or.inr h)

theorem slash_not_mem_componentName {file : String} {i : Int} {p : String}
    (hp : '/' ∉ p.toList) : '/' ∉ (componentName file i p).toList := by
  intro h
  rcases mem_componentName h with h | h | h
  · exact hp h
  · exact absurd h (by decide)
  · exact absurd h (by decide)

/-! ### Extensions -/

theorem isExtensionChar_dot : Text.isExtensionChar '.' = false := by decide +kernel

theorem isExtensionChar_slash : Text.isExtensionChar '/' = false := by decide +kernel

/-- An extension is a dot and characters that are neither dots nor slashes. -/
theorem toList_of_isExtension {s : String} (h : Settings.isExtension s = true) :
    ∃ cs, s.toList = '.' :: cs ∧ '.' ∉ cs ∧ '/' ∉ cs := by
  unfold Settings.isExtension at h
  split at h
  · rename_i c cs hs
    have hmem := List.all_eq_true.1 h
    refine ⟨c :: cs, hs, fun hdot => ?_, fun hslash => ?_⟩
    · exact Bool.false_ne_true (isExtensionChar_dot.symm.trans (hmem '.' hdot))
    · exact Bool.false_ne_true (isExtensionChar_slash.symm.trans (hmem '/' hslash))
  · cases h

/-- The file of a component has a name that leads no way but its own. -/
theorem isSegment_componentFile {file : String} {i : Int} {p x : String} (hp : '/' ∉ p.toList)
    (hx : Settings.isExtension x = true) :
    Path.isSegment (componentName file i p ++ x) = true ∧ componentName file i p ++ x ≠ ".." ∧
      '/' ∉ (componentName file i p ++ x).toList := by
  obtain ⟨cs, hcs, -, hslash⟩ := toList_of_isExtension hx
  have hI : 'I' ∈ (componentName file i p ++ x).toList := by
    rw [String.toList_append, toList_componentName]
    simp
  have hne : ∀ s : String, 'I' ∉ s.toList → componentName file i p ++ x ≠ s := by
    rintro s hs rfl
    exact hs hI
  refine ⟨?_, hne ".." (by decide), ?_⟩
  · simp only [Path.isSegment, Bool.and_eq_true, decide_eq_true_eq]
    exact ⟨hne "" (by decide), hne "." (by decide)⟩
  · rw [String.toList_append, hcs, List.mem_append, List.mem_cons, not_or, not_or]
    exact ⟨slash_not_mem_componentName hp, by decide, hslash⟩

/-- No file of a component has a character of number zero in its name, but for its beginning. -/
theorem null_not_mem_componentFile {file : String} {i : Int} {p x : String}
    (hp : '\x00' ∉ p.toList) (hx : Settings.isExtension x = true) :
    '\x00' ∉ (componentName file i p ++ x).toList := by
  have hextension : '\x00' ∉ x.toList := by
    unfold Settings.isExtension at hx
    split at hx
    · rename_i c cs hs
      rw [hs, List.mem_cons, not_or]
      refine ⟨by decide, fun hnull => ?_⟩
      have hword := List.all_eq_true.1 hx _ hnull
      revert hword
      decide +kernel
    · cases hx
  rw [String.toList_append, List.mem_append, not_or]
  refine ⟨fun hname => ?_, hextension⟩
  rcases mem_componentName hname with h | h | h
  · exact hp h
  · exact absurd h (by decide)
  · exact absurd h (by decide)

/-- Files of one name hold components of one name, whatever their extensions are. -/
theorem name_eq_of_append_extension_eq {name name' x x' : String}
    (hx : Settings.isExtension x = true) (hx' : Settings.isExtension x' = true)
    (h : name ++ x = name' ++ x') : name = name' := by
  obtain ⟨cs, hcs, hdot, -⟩ := toList_of_isExtension hx
  obtain ⟨cs', hcs', hdot', -⟩ := toList_of_isExtension hx'
  have hlist := congrArg String.toList h
  rw [String.toList_append, String.toList_append, hcs, hcs'] at hlist
  exact String.toList_inj.1 (append_cons_inj_of_not_mem hdot hdot' hlist).1

end DemoPages
