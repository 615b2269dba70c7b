import DemoPages.Proofs.Sources

/-!
# Places that tell their page

Whatever the settings are, the file of a component ends with the digits of its page, the letter `I`,
an index and an extension (`Extractor.Made.marked`). So components of pages with different digits
lie at different places (`Marked.mark_eq`), and where the extension is not that of a page, a
component does not lie where a page does (`Marked.isPage_eq_false`).
-/

namespace DemoPages

/-! ### The last piece of a name -/

/-- What holds no separator stays in the last piece. -/
theorem Text.exists_split_append {sep : Char} (s : List Char) {t : List Char} (h : sep ∉ t) :
    ∃ ps p, split sep (s ++ t) = ps ++ [p ++ t] := by
  induction s with
  | nil => exact ⟨[], [], split_of_not_mem h⟩
  | cons c s ih =>
    obtain ⟨ps, p, hsplit⟩ := ih
    rw [List.cons_append, split, hsplit]
    split
    · exact ⟨[] :: ps, p, rfl⟩
    · by_cases hps : ps = []
      · subst hps
        exact ⟨[], c :: p, rfl⟩
      · exact ⟨consPiece c ps, p, consPiece_append c hps _⟩

/-- A name read beside a file ends with its last piece. -/
theorem Place.beside_ends_with_last (here : Place) (file : String) {name last : String}
    {ps : List String} (hpieces : Path.pieces name = ps ++ [last])
    (hsegment : Path.isSegment last = true) (hdots : last ≠ "..") :
    ∃ dir, beside here file name = dir ++ [last] := by
  simp only [beside, hpieces, List.filter_append, List.filter_cons_of_pos hsegment,
    List.filter_nil, ← List.append_assoc]
  exact ⟨_, settle_concat _ hdots⟩

/-- The suffix of a name is what begins with its last dot. -/
theorem Path.suffixOf_append {s t : List Char} (hs : s ≠ []) (ht : t ≠ []) (hdot : '.' ∉ t) :
    suffixOf (s ++ '.' :: t) = '.' :: t := by
  have hafter : (s ++ '.' :: t).reverse.takeWhile (· ≠ '.') = t.reverse := by
    rw [List.reverse_append, List.reverse_cons, List.append_assoc,
      List.takeWhile_append_of_pos fun c hc => ?_]
    · simp
    · have hne : c ≠ '.' := by
        rintro rfl
        exact hdot (List.mem_reverse.1 hc)
      simpa using hne
  have hlength := List.length_pos_of_ne_nil hs
  unfold suffixOf
  simp only [hafter, List.reverse_reverse, List.length_append, List.length_cons,
    List.length_reverse, List.reverse_eq_nil_iff]
  refine if_neg ?_
  rintro (hnil | hshort | hlong)
  · exact ht hnil
  · omega
  · omega

/-! ### Marked places -/

/-- Is it the extension of a file that is no page? -/
def IsPlain (x : String) : Prop := Settings.isExtension x = true ∧ x ≠ ".md" ∧ x ≠ ".mdx"

/-- Does a place end with the digits of a page, an index and a plain extension? -/
def Marked (file : String) (q : Place) : Prop :=
  ∃ dir front index x,
    q = dir ++ [String.ofList (front ++ Digest.mark file ++ 'I' :: index ++ x.toList)] ∧
    'I' ∉ index ∧ IsPlain x

theorem ne_nil_of_isExtension {x : String} {cs : List Char} (hx : Settings.isExtension x = true)
    (h : x.toList = '.' :: cs) : cs ≠ [] := by
  rintro rfl
  unfold Settings.isExtension at hx
  rw [h] at hx
  cases hx

theorem Marked.mark_eq {file file' : String} {q : Place} (h : Marked file q) (h' : Marked file' q) :
    Digest.mark file = Digest.mark file' := by
  obtain ⟨dir, front, index, x, rfl, hI, hx, -⟩ := h
  obtain ⟨dir', front', index', x', heq, hI', hx', -⟩ := h'
  obtain ⟨cs, hcs, hdot, -⟩ := toList_of_isExtension hx
  obtain ⟨cs', hcs', hdot', -⟩ := toList_of_isExtension hx'
  have htails := (List.append_inj' heq (by rw [List.length_singleton, List.length_singleton])).2
  have hlast := String.ofList_inj.1 (List.cons.inj htails).1
  rw [hcs, hcs'] at hlast
  -- Read from its end, the name comes apart at the last dot and at the last letter.
  obtain ⟨hname, -⟩ := append_cons_inj_of_not_mem hdot hdot' hlast
  obtain ⟨hmark, -⟩ := append_cons_inj_of_not_mem hI hI' hname
  exact (List.append_inj' hmark (by rw [Digest.length_mark, Digest.length_mark])).2

/-- Where a component may lie, no page does. -/
theorem Marked.isPage_eq_false {file : String} {q : Place} (h : Marked file q) :
    Site.isPage (Place.toPath q) = false := by
  obtain ⟨dir, front, index, x, rfl, -, hx, hmd, hmdx⟩ := h
  obtain ⟨cs, hcs, hdot, -⟩ := toList_of_isExtension hx
  have hsuffix : Path.suffix (Place.toPath (dir ++
      [String.ofList (front ++ Digest.mark file ++ 'I' :: index ++ x.toList)])) = x := by
    unfold Path.suffix Path.name
    rw [Place.toPath]
    simp only [List.getLastD_concat, String.toList_ofList, hcs]
    rw [Path.suffixOf_append (by simp) (ne_nil_of_isExtension hx hcs) hdot, ← hcs,
      String.ofList_toList]
  unfold Site.isPage
  rw [hsuffix]
  simp [hmd, hmdx]

/-- The last piece of the name of a component's file ends with the digits of the page, the index and
the extension. -/
theorem exists_pieces_componentFile (file namePrefix : String) (index : Int) {x : String}
    (hx : Settings.isExtension x = true) :
    ∃ ps last front,
      Path.pieces (componentName file index namePrefix ++ x) = ps ++ [last] ∧
      last.toList = front ++ Digest.mark file ++ 'I' :: (Text.decimal index).toList ++ x.toList ∧
      '/' ∉ last.toList := by
  obtain ⟨cs, hcs, -, hslash⟩ := toList_of_isExtension hx
  obtain ⟨tail, htail⟩ : ∃ tail, tail = Digest.mark file ++ 'I' :: (Text.decimal index).toList ++
      x.toList := ⟨_, rfl⟩
  have hnoSlash : '/' ∉ tail := by
    rw [htail, hcs]
    simp only [List.mem_append, List.mem_cons, not_or]
    refine ⟨⟨Digest.slash_not_mem_mark _, by decide, fun h => ?_⟩, by decide, hslash⟩
    rcases Text.mem_decimal h with h | h <;> exact absurd h (by decide)
  have hfile : (componentName file index namePrefix ++ x).toList = namePrefix.toList ++ tail := by
    rw [String.toList_append, toList_componentName, htail]
    simp only [List.append_assoc, List.cons_append]
  obtain ⟨ps, front, hsplit⟩ := Text.exists_split_append namePrefix.toList hnoSlash
  refine ⟨ps.map String.ofList, String.ofList (front ++ tail), front, ?_, ?_, fun hmem => ?_⟩
  · rw [Path.pieces, hfile, hsplit, List.map_append]
    rfl
  · rw [String.toList_ofList, htail]
    simp only [List.append_assoc]
  · have hlast : front ++ tail ∈ Text.split '/' (namePrefix.toList ++ tail) := by
      rw [hsplit]
      exact List.mem_append_right ps List.mem_cons_self
    rw [String.toList_ofList] at hmem
    exact (Text.mem_of_mem_split hlast hmem).2 rfl

/-- The file of a component ends with the digits of its page, its index and the extension, unless it
lies in place of the output directory. -/
theorem Extractor.Made.place_cases {e : Extractor} {here here' : Place} {a : Artifact}
    {output : Path} {q : Place} (h : e.Made here a)
    (hx : Settings.isExtension e.options.extension = true)
    (hq : Store.target here' output a = .ok q) :
    q = Place.resolve here' output ∨ ∃ (index : Nat) (dir : Place) (front : List Char),
      a.name = e.nameAt index ∧ q = dir ++ [String.ofList (front ++ Digest.mark e.file ++
        'I' :: (Text.decimal index).toList ++ e.options.extension.toList)] := by
  obtain ⟨⟨index, hname⟩, hpath⟩ := h
  obtain ⟨ps, last, front, hpieces, hlast, hslash⟩ :=
    exists_pieces_componentFile e.file e.options.namePrefix index hx
  have hne : ∀ s : String, 'I' ∉ s.toList → last ≠ s := by
    rintro s hs rfl
    rw [hlast] at hs
    simp at hs
  have hsegment : Path.isSegment last = true := by
    simp only [Path.isSegment, Bool.and_eq_true, decide_eq_true_eq]
    exact ⟨hne "" (by decide), hne "." (by decide)⟩
  have hdots := hne ".." (by decide)
  obtain ⟨dir, hbeside⟩ := Place.beside_ends_with_last here e.file hpieces hsegment hdots
  rw [hname] at hpath
  refine (Store.target_ends_with_last hslash hsegment hdots hbeside hpath hq).imp_right ?_
  rintro ⟨dir, rfl⟩
  exact ⟨index, dir, front, hname, by rw [← hlast, String.ofList_toList]⟩

/-- **The file of a component is marked by its page**, unless it lies in place of the output
directory. -/
theorem Extractor.Made.marked {e : Extractor} {here here' : Place} {a : Artifact} {output : Path}
    {q : Place} (h : e.Made here a) (hx : IsPlain e.options.extension)
    (hq : Store.target here' output a = .ok q) :
    q = Place.resolve here' output ∨ Marked e.file q := by
  refine (h.place_cases hx.1 hq).imp_right ?_
  rintro ⟨index, dir, front, -, rfl⟩
  exact ⟨dir, front, _, _, rfl, I_not_mem_decimal index, hx⟩

/-- Components of one page that lie at one place have one name, unless it is the output
directory. -/
theorem Extractor.Made.name_eq {e : Extractor} {here here' : Place} {a b : Artifact} {output : Path}
    {q : Place} (ha : e.Made here a) (hb : e.Made here b)
    (hx : Settings.isExtension e.options.extension = true) (hbase : q ≠ Place.resolve here' output)
    (hqa : Store.target here' output a = .ok q) (hqb : Store.target here' output b = .ok q) :
    a.name = b.name := by
  obtain ⟨i, dir, front, hname, hq⟩ := (ha.place_cases hx hqa).resolve_left hbase
  obtain ⟨j, dir', front', hname', hq'⟩ := (hb.place_cases hx hqb).resolve_left hbase
  have htails := (List.append_inj' (hq.symm.trans hq')
    (by rw [List.length_singleton, List.length_singleton])).2
  have hlast := List.append_cancel_right (String.ofList_inj.1 (List.cons.inj htails).1)
  obtain ⟨-, hindex⟩ :=
    append_cons_inj_of_not_mem (I_not_mem_decimal i) (I_not_mem_decimal j) hlast
  rw [hname, hname', nameAt, nameAt, componentName, componentName, String.toList_inj.1 hindex]

end DemoPages
