import DemoPages.Proofs.Bystanders
import DemoPages.Proofs.Marks
import DemoPages.Proofs.Stops
import Mathlib.Data.List.Sort

/-!
# What is found at a directory

A directory is searched at any depth for entries with the name of a page (`isPage_iff` says which
names these are), whether they are files or directories (`mem_discover`). They come in the strict
order of their segments, so none comes twice (`pairwise_discover`). A run over the directory depends
on what is found there, on the places where it writes, and on nothing else (`Matters`, `alike_run`);
but a directory among what is found keeps it from ending well.
-/

namespace DemoPages

open Effect

instance (d : Disk) (p : Place) : Decidable (d.Found p) :=
  inferInstanceAs (Decidable (d.locate (Place.toPath p) = .ok p))

/-- Do the entries of a disk form a tree? They have names, no two of them lie at the same place, and
only directories lead to them. -/
structure Disk.IsTree (d : Disk) : Prop where
  named : d.Named
  distinct : d.entries.keys.Nodup
  found : ∀ q ∈ d.entries.keys, d.Found q

theorem Disk.IsTree.found_of_look? {d : Disk} (tree : d.IsTree) {q : Place} {e : Disk.Entry}
    (h : d.look? q = some e) : d.Found q := by
  by_cases hq : q = []
  · subst hq
    rfl
  · rw [Disk.look?, if_neg hq] at h
    exact tree.found q (Keyed.mem_keys.2 ⟨e, h⟩)

/-! ### Names of pages -/

namespace Path

/-- A name with a suffix has something in front of it. -/
theorem exists_of_suffixOf {name after : List Char} (h : suffixOf name = '.' :: after) :
    ∃ stem, stem ≠ [] ∧ name = stem ++ '.' :: after := by
  unfold suffixOf at h
  dsimp only at h
  split at h
  · cases h
  · rename_i hcases
    obtain ⟨-, rfl⟩ := List.cons.inj h
    rw [not_or, not_or] at hcases
    obtain ⟨-, hbefore, -⟩ := hcases
    have hname := List.takeWhile_append_dropWhile (p := (· ≠ '.')) (l := name.reverse)
    have hstop := List.head?_dropWhile_not (· ≠ '.') name.reverse
    have hlength := congrArg List.length hname
    rw [List.length_append, List.length_reverse] at hlength
    generalize name.reverse.takeWhile (· ≠ '.') = after at *
    generalize name.reverse.dropWhile (· ≠ '.') = rest at *
    cases rest with
    | nil => simp at hlength; omega
    | cons c rest =>
      obtain rfl : c = '.' := by simpa using hstop
      refine ⟨rest.reverse, ?_, ?_⟩
      · rintro hnil
        rw [List.reverse_eq_nil_iff.1 hnil] at hlength
        simp at hlength
        omega
      · rw [← List.reverse_reverse name, ← hname]
        simp

theorem suffix_eq_iff {p : Path} {ext : List Char} (hne : ext ≠ []) (hdot : '.' ∉ ext) :
    p.suffix = String.ofList ('.' :: ext) ↔
      ∃ stem, stem ≠ "" ∧ p.name = stem ++ String.ofList ('.' :: ext) := by
  unfold suffix
  rw [String.ofList_inj]
  constructor
  · intro h
    obtain ⟨stem, hstem, hname⟩ := exists_of_suffixOf h
    refine ⟨String.ofList stem, fun h => hstem (by simpa using congrArg String.toList h), ?_⟩
    rw [← String.ofList_append, ← hname, String.ofList_toList]
  · rintro ⟨stem, hstem, hname⟩
    rw [hname, String.toList_append, String.toList_ofList]
    exact suffixOf_append (fun h => hstem (String.toList_eq_nil_iff.1 h)) hne hdot

end Path

namespace Site

theorem isPage_iff {p : Path} :
    isPage p = true ↔
      ∃ stem ext, stem ≠ "" ∧ (ext = ".md" ∨ ext = ".mdx") ∧ p.name = stem ++ ext := by
  have hmd := @Path.suffix_eq_iff p ['m', 'd'] (by decide) (by decide)
  have hmdx := @Path.suffix_eq_iff p ['m', 'd', 'x'] (by decide) (by decide)
  rw [isPage, Bool.or_eq_true, beq_iff_eq, beq_iff_eq]
  refine ⟨?_, ?_⟩
  · rintro (h | h)
    · obtain ⟨stem, hstem, hname⟩ := hmd.1 h
      exact ⟨stem, _, hstem, Or.inl rfl, hname⟩
    · obtain ⟨stem, hstem, hname⟩ := hmdx.1 h
      exact ⟨stem, _, hstem, Or.inr rfl, hname⟩
  · rintro ⟨stem, ext, hstem, rfl | rfl, hname⟩
    · exact Or.inl (hmd.2 ⟨stem, hstem, hname⟩)
    · exact Or.inr (hmdx.2 ⟨stem, hstem, hname⟩)

/-! ### What is found, and in which order -/

section Found

variable {d : Disk} {p : Path} {P : Place}

theorem isPageBelow_iff {q : Place} :
    isPageBelow P q = true ↔ ∃ dirs stem ext, stem ≠ "" ∧ (ext = ".md" ∨ ext = ".mdx") ∧
      q = P ++ (dirs ++ [stem ++ ext]) := by
  rw [isPageBelow, Bool.and_eq_true, Bool.and_eq_true, decide_eq_true_eq,
    List.isPrefixOf_iff_prefix, isPage_iff]
  constructor
  · rintro ⟨⟨⟨rest, rfl⟩, hlonger⟩, stem, ext, hstem, hext, hname⟩
    have hrest : rest ≠ [] := by
      rintro rfl
      simp at hlonger
    obtain ⟨dirs, last, rfl⟩ := (List.eq_nil_or_concat' rest).resolve_left hrest
    have hlast : (P ++ (dirs ++ [last])).getLastD "" = stem ++ ext := hname
    rw [← List.append_assoc, List.getLastD_concat] at hlast
    exact ⟨dirs, stem, ext, hstem, hext, by rw [hlast]⟩
  · rintro ⟨dirs, stem, ext, hstem, hext, rfl⟩
    refine ⟨⟨⟨_, rfl⟩, by simp⟩, stem, ext, hstem, hext, ?_⟩
    show (P ++ (dirs ++ [stem ++ ext])).getLastD "" = stem ++ ext
    rw [← List.append_assoc, List.getLastD_concat]

/-- What is found at a directory are the entries below it that have the name of a page. -/
theorem mem_discover (hlocate : d.locate p = .ok P) (hP : d.look? P = some .directory) {p' : Path} :
    p' ∈ discover d p ↔ ∃ dirs stem ext e, stem ≠ "" ∧ (ext = ".md" ∨ ext = ".mdx") ∧
      d.look? (P ++ (dirs ++ [stem ++ ext])) = some e ∧
      p' = { p with segments := p.segments ++ (dirs ++ [stem ++ ext]) } := by
  constructor
  · intro h
    rw [discover_eq hlocate, hP] at h
    obtain ⟨q, hq, rfl⟩ := List.mem_map.1 (List.mem_mergeSort.1 h)
    obtain ⟨hkey, hbelow⟩ := List.mem_filter.1 hq
    obtain ⟨e, he⟩ := Keyed.mem_keys.1 hkey
    obtain ⟨dirs, stem, ext, hstem, hext, rfl⟩ := isPageBelow_iff.1 hbelow
    refine ⟨dirs, stem, ext, e, hstem, hext, ?_, by rw [List.drop_left]⟩
    rw [Disk.look?, if_neg (by simp), he]
  · rintro ⟨dirs, stem, ext, e, hstem, hext, he, rfl⟩
    have hmem := mem_discover_below hlocate hP
      (isPageBelow_iff.2 ⟨dirs, stem, ext, hstem, hext, rfl⟩) he
    rwa [List.drop_left] at hmem

/-- The order of the segments is strict: nothing is found twice. -/
theorem pairwise_discover (distinct : d.entries.keys.Nodup) (hlocate : d.locate p = .ok P)
    (hP : d.look? P = some .directory) :
    (discover d p).Pairwise fun a b => a.segments < b.segments := by
  rw [discover_eq hlocate, hP]
  dsimp only
  -- Two places below the directory are told apart by what leads there.
  have hnodup : (((d.entries.keys.filter (isPageBelow P)).map fun q =>
      { p with segments := p.segments ++ q.drop P.length }).map Path.segments).Nodup := by
    rw [List.map_map]
    refine List.Nodup.map_on (fun q hq q' hq' h => ?_) (distinct.filter _)
    obtain ⟨dirs, stem, ext, -, -, rfl⟩ := isPageBelow_iff.1 (List.mem_filter.1 hq).2
    obtain ⟨dirs', stem', ext', -, -, rfl⟩ := isPageBelow_iff.1 (List.mem_filter.1 hq').2
    simpa using h
  generalize (d.entries.keys.filter (isPageBelow P)).map _ = found at hnodup
  have hle : ∀ a b : Path, (!b.segments.lex a.segments) = true ↔ a.segments ≤ b.segments := by
    intro a b
    rw [Bool.not_eq_true', ← Bool.not_eq_true, List.lex_eq_true_iff_lt, Std.not_lt]
  have hsorted : (found.mergeSort fun a b => !b.segments.lex a.segments).Pairwise
      fun a b => (!b.segments.lex a.segments) = true := by
    refine List.pairwise_mergeSort (fun a b c h h' => ?_) (fun a b => ?_) found
    · exact (hle a c).2 (Std.le_trans ((hle a b).1 h) ((hle b c).1 h'))
    · rw [Bool.or_eq_true, hle, hle]
      exact Std.le_total
  have hdistinct := ((List.mergeSort_perm found fun a b => !b.segments.lex a.segments).map
    Path.segments).nodup_iff.2 hnodup
  refine (hsorted.and (List.pairwise_map.1 hdistinct)).imp fun h => ?_
  exact Std.lt_of_le_of_ne ((hle _ _).1 h.1) h.2

/-- Where the same lies at the places below that have names of pages, the same is found. -/
theorem discover_eq_of_look? {d' : Disk} (distinct : d.entries.keys.Nodup)
    (distinct' : d'.entries.keys.Nodup) (hlocate : d.locate p = .ok P)
    (hlocate' : d'.locate p = .ok P) (hP : d.look? P = some .directory)
    (hP' : d'.look? P = some .directory)
    (hlook : ∀ q, isPageBelow P q = true → d'.look? q = d.look? q) :
    discover d' p = discover d p := by
  have irrefl : Std.Irrefl fun a b : Path => a.segments < b.segments := ⟨fun _ => Std.lt_irrefl⟩
  have antisymm : Std.Antisymm fun a b : Path => a.segments < b.segments :=
    ⟨fun _ _ h h' => absurd (Std.lt_trans h h') Std.lt_irrefl⟩
  refine (pairwise_discover distinct' hlocate' hP').eq_of_mem_iff
    (pairwise_discover distinct hlocate hP) fun p' => ?_
  rw [mem_discover hlocate' hP', mem_discover hlocate hP]
  constructor
  · rintro ⟨dirs, stem, ext, e, hstem, hext, he, rfl⟩
    rw [hlook _ (isPageBelow_iff.2 ⟨dirs, stem, ext, hstem, hext, rfl⟩)] at he
    exact ⟨dirs, stem, ext, e, hstem, hext, he, rfl⟩
  · rintro ⟨dirs, stem, ext, e, hstem, hext, he, rfl⟩
    rw [← hlook _ (isPageBelow_iff.2 ⟨dirs, stem, ext, hstem, hext, rfl⟩)] at he
    exact ⟨dirs, stem, ext, e, hstem, hext, he, rfl⟩

/-- A path leads on to what lies below. -/
theorem locate_below (tree : d.IsTree) (hlocate : d.locate p = .ok P) {rest : Place}
    {e : Disk.Entry} (he : d.look? (P ++ rest) = some e) :
    d.locate { p with segments := p.segments ++ rest } = .ok (P ++ rest) ∧
      d.find? { p with segments := p.segments ++ rest } = some e := by
  have hdots : ".." ∉ P := by
    rw [Disk.locate_ok tree.named.dots_not_mem_here hlocate]
    exact Place.dots_not_mem_settle _
  have hon := Disk.locate_append hdots hlocate (tree.found_of_look? he)
  exact ⟨hon, by rw [Disk.find?, hon]; exact he⟩

/-- The path of what is found leads there. -/
theorem locate_of_mem_discover (tree : d.IsTree) (hlocate : d.locate p = .ok P)
    (hP : d.look? P = some .directory) {p' : Path} (h : p' ∈ discover d p) :
    ∃ e, d.locate p' = .ok (Place.resolve d.here p') ∧
      d.look? (Place.resolve d.here p') = some e ∧ d.find? p' = some e := by
  obtain ⟨dirs, stem, ext, e, -, -, he, rfl⟩ := (mem_discover hlocate hP).1 h
  obtain ⟨hon, hfind⟩ := locate_below tree hlocate he
  have hplace := Disk.locate_ok tree.named.dots_not_mem_here hon
  exact ⟨e, hplace ▸ hon, hplace ▸ he, hfind⟩

/-- All that is found are files if and only if no directory below has the name of a page. -/
theorem isFile_of_mem_discover_iff (tree : d.IsTree) (hlocate : d.locate p = .ok P)
    (hP : d.look? P = some .directory) :
    (∀ p' ∈ discover d p, d.isFile p' = true) ↔
      ∀ dirs stem ext, stem ≠ "" → ext = ".md" ∨ ext = ".mdx" →
        d.look? (P ++ (dirs ++ [stem ++ ext])) ≠ some .directory := by
  constructor
  · intro hall dirs stem ext hstem hext hdir
    have hfile := hall _ ((mem_discover hlocate hP).2 ⟨dirs, stem, ext, _, hstem, hext, hdir, rfl⟩)
    rw [Disk.isFile, (locate_below tree hlocate hdir).2] at hfile
    cases hfile
  · intro hnone p' hp'
    obtain ⟨dirs, stem, ext, e, hstem, hext, he, rfl⟩ := (mem_discover hlocate hP).1 hp'
    rw [Disk.isFile, (locate_below tree hlocate he).2]
    cases e with
    | directory => exact absurd he (hnone dirs stem ext hstem hext)
    | file bytes => rfl

end Found

/-! ### Reading what is found -/

section Read

variable {d : Disk} {p : Path} {q : Place}

theorem read_directory (hlocate : d.locate p = .ok q) (hq : d.look? q = some .directory)
    (reader : Markdown.Reader) (dialect : String) :
    Page.read reader p dialect d = .error (.disk ⟨.isDirectory, p.toString⟩) := by
  simp only [Page.read, Disk.readBytes, hlocate, hq]

/-- A file is read in a dialect that there is, unless its bytes are no text. -/
theorem read_file {bytes : List UInt8} {reader : Markdown.Reader} {dialect : String}
    {tokens : List Char → List Markdown.Token} (hlocate : d.locate p = .ok q)
    (hq : d.look? q = some (.file bytes)) (hdialect : reader dialect = .ok tokens) :
    (∃ blocks, Page.read reader p dialect d = .ok blocks) ∨
      ∃ g, Text.Utf8.decode bytes = .error g ∧
        Page.read reader p dialect d = .error (.undecodable g) := by
  simp only [Page.read, Disk.readBytes, hlocate, hq, Page.decode]
  cases hdecode : Text.Utf8.decode bytes with
  | error g => exact Or.inr ⟨g, rfl, rfl⟩
  | ok text =>
    left
    simp only [Except.map]
    cases hparse : Page.parse reader (String.ofList (Text.unifyLineEnds text.toList)) dialect with
    | ok blocks => exact ⟨blocks, rfl⟩
    | error f => exact absurd (hdialect.symm.trans (parse_error.1 hparse)) (by simp)

end Read

/-! ### Runs -/

section Run

variable {tools : Tools} {s : Settings} {root : Place} {st st' : State} {ps : List Path}
  {rs : List Result}

/-- A run that ends well passes over no directory. -/
theorem not_directory_of_pages_ok (hdots : ".." ∉ st.depot.disk.here)
    (h : pages tools s root ps st = .ok rs st') {p : Path} (hp : p ∈ ps) :
    st.depot.disk.look? (Place.resolve st.depot.disk.here p) ≠ some .directory := by
  induction ps generalizing st rs with
  | nil => cases hp
  | cons q qs ih =>
    obtain ⟨r, t, rs', hpage, hpages, rfl⟩ := pages_cons_ok.1 h
    rcases List.mem_cons.1 hp with rfl | hp
    · obtain ⟨-, blocks, -, -, -, -, hread, -⟩ := (page_ok rfl).1 hpage
      have hplace : ".." ∉ Place.resolve st.depot.disk.here p := Place.dots_not_mem_settle _
      obtain ⟨-, bytes, hbytes⟩ := read_ok hplace hread
      rw [hbytes]
      exact fun h => by cases h
    · have hchange := (change_page_reaches hdots rfl rfl hpage).1
      have hrest := ih (hchange.not_mem_here hdots) hpages hp
      rw [hchange.here] at hrest
      exact fun hdir => hrest (hchange.directories _ hdir)

end Run

/-- The places that a run over the directory at `P` depends on: those below that have the name of a
page, what leads to the pages that are found, and where the run may write, with what leads there. -/
def Matters (s : Settings) (d : Disk) (p : Path) (P : Place) (output : Option Path) (q : Place) :
    Prop :=
  isPageBelow P q = true ∨ (∃ p' ∈ discover d p, q <+: Place.resolve d.here p') ∨
    Paves s d.here output q

/-- **A directory is searched for names of pages, not for files.** On a disk whose entries form a
tree, without symbolic links, what is found at a directory are the entries below it, at any depth
and of either kind, whose names end with `.md` or `.mdx` behind at least one character, in the
strict order of their segments. So it is just the files of these names if and only if no directory
below has such a name. A file that is found is read, in a dialect that the reader knows, unless its
bytes are no text; a directory that is found is not read, and no run over the whole ends well. If a
run fails, it names something that was found; and what lies at places that do not matter to it makes
no difference. -/
theorem discover_directory {d : Disk} {p : Path} {P : Place} (tree : d.IsTree)
    (hlocate : d.locate p = .ok P) (hP : d.look? P = some .directory) :
    (∀ p', p' ∈ discover d p ↔ ∃ dirs stem ext e, stem ≠ "" ∧ (ext = ".md" ∨ ext = ".mdx") ∧
      d.look? (P ++ (dirs ++ [stem ++ ext])) = some e ∧
      p' = { p with segments := p.segments ++ (dirs ++ [stem ++ ext]) }) ∧
    (discover d p).Pairwise (fun a b => a.segments < b.segments) ∧
    ((∀ p' ∈ discover d p, d.isFile p' = true) ↔
      ∀ dirs stem ext, stem ≠ "" → ext = ".md" ∨ ext = ".mdx" →
        d.look? (P ++ (dirs ++ [stem ++ ext])) ≠ some .directory) ∧
    (∀ p' ∈ discover d p,
      (d.find? p' = some .directory ∧
        ∀ reader dialect,
          Page.read reader p' dialect d = .error (.disk ⟨.isDirectory, p'.toString⟩)) ∨
      ∃ bytes, d.find? p' = some (.file bytes) ∧
        ∀ (reader : Markdown.Reader) dialect tokens, reader dialect = .ok tokens →
          (∃ blocks, Page.read reader p' dialect d = .ok blocks) ∨
            ∃ g, Text.Utf8.decode bytes = .error g ∧
              Page.read reader p' dialect d = .error (.undecodable g)) ∧
    ∀ (tools : Tools) (s : Settings) (path : String) (st : State), .ofString path = p →
      st.depot.disk = d →
      ((∃ p' ∈ discover d p, d.find? p' = some .directory) →
        ∀ rs st', run tools s path st ≠ .ok rs st') ∧
      (∀ root f st', Site.root s d = .ok root → run tools s path st = .error f st' →
        ∃ p' ∈ discover d p, ∃ cause, f = .page p'.toString cause) ∧
      ∀ st₂ : State, st₂.depot.disk.entries.keys.Nodup → st₂.depot.disk.locate p = .ok P →
        st₂.depot.disk.look? P = some .directory →
        st.Agree (Matters s d p P st.depot.store.output) d.here st.depot.store.output st₂ →
          Alike (State.Agree (Matters s d p P st.depot.store.output) d.here st.depot.store.output)
            (run tools s path st) (run tools s path st₂) := by
  have hdots := tree.named.dots_not_mem_here
  have hfound : ∀ p' ∈ discover d p, ∃ e, d.locate p' = .ok (Place.resolve d.here p') ∧
      d.look? (Place.resolve d.here p') = some e ∧ d.find? p' = some e :=
    fun p' hp' => locate_of_mem_discover tree hlocate hP hp'
  refine ⟨fun p' => mem_discover hlocate hP, pairwise_discover tree.distinct hlocate hP,
    isFile_of_mem_discover_iff tree hlocate hP, fun p' hp' => ?_, ?_⟩
  · obtain ⟨e, hat, hlook, hfind⟩ := hfound p' hp'
    cases e with
    | directory => exact Or.inl ⟨hfind, read_directory hat hlook⟩
    | file bytes => exact Or.inr ⟨bytes, hfind, fun reader dialect tokens => read_file hat hlook⟩
  · rintro tools s path st rfl rfl
    refine ⟨?_, fun root f st' hroot hrun => ?_, fun st₂ distinct hlocate' hP' agree => ?_⟩
    · rintro ⟨p', hp', hdir⟩ rs st' hrun
      obtain ⟨root, -, hpages⟩ := run_ok.1 hrun
      obtain ⟨e, hat, hlook, hfind⟩ := hfound p' hp'
      obtain rfl := Option.some.inj (hfind.symm.trans hdir)
      exact not_directory_of_pages_ok hdots hpages hp' hlook
    · rw [run_of_root hroot] at hrun
      obtain ⟨before, p', after, rs, t, cause, hps, -, -, hfault⟩ := pages_error.1 hrun
      exact ⟨p', by simp [hps], cause, hfault⟩
    · refine alike_run agree hdots (fun q hq => Or.inr (Or.inr hq)) ?_ fun p' hp' r hr =>
        Or.inr (Or.inl ⟨p', hp', hr⟩)
      exact discover_eq_of_look? tree.distinct distinct hlocate hlocate' hP hP' fun q hq =>
        agree.depot.disk.look q (Or.inl hq)

/-- A file beside the directory makes no difference to a run. -/
theorem discover_directory_docs :
    let disk : Disk := ⟨[], ⟨[(["docs"], .directory),
      (["docs", "a.md"], .file (Text.Percent.utf8 "# A\n".toList)), (["docs", ".md"], .file [])]⟩⟩
    let st : State := { depot := { disk } }
    let st₂ : State := { depot := { disk := disk.set ["notes"] (.file []) } }
    (∀ p ∈ discover disk (.ofString "docs"), disk.isFile p = true) ∧
      (∃ blocks, Page.read Markdown.reader (.ofString "docs/a.md") "gfm-like" disk = .ok blocks) ∧
      .ofString "docs/.md" ∉ discover disk (.ofString "docs") ∧
      ∃ R, Alike R (run .own {} "docs" st) (run .own {} "docs" st₂) := by
  intro disk st st₂
  have tree : disk.IsTree := ⟨⟨by decide, by decide⟩, by decide, by decide⟩
  obtain ⟨hmem, -, hfiles, hread, hrun⟩ :=
    discover_directory (p := .ofString "docs") (P := ["docs"]) tree rfl rfl
  have hplain : ∀ q ∈ disk.entries.keys, isPageBelow ["docs"] q = true →
      disk.look? q ≠ some .directory := by decide +kernel
  have hall : ∀ p ∈ discover disk (.ofString "docs"), disk.isFile p = true := by
    refine hfiles.2 fun dirs stem ext hstem hext hdir => ?_
    have hbelow : isPageBelow ["docs"] (["docs"] ++ (dirs ++ [stem ++ ext])) = true :=
      isPageBelow_iff.2 ⟨dirs, stem, ext, hstem, hext, rfl⟩
    refine hplain _ ?_ hbelow hdir
    rw [Disk.look?, if_neg (by simp)] at hdir
    exact Keyed.mem_keys.2 ⟨_, hdir⟩
  have ha : Path.ofString "docs/a.md" ∈ discover disk (.ofString "docs") :=
    (hmem _).2 ⟨[], "a", ".md", _, by decide, Or.inl rfl, rfl, rfl⟩
  refine ⟨hall, ?_, fun h => ?_, _, (hrun .own {} "docs" st rfl rfl).2.2 st₂ (by decide +kernel)
    (by decide +kernel) (by decide +kernel) ⟨rfl, rfl, rfl, rfl, rfl, fun q hq => ?_⟩⟩
  · rcases hread _ ha with ⟨hdir, -⟩ | ⟨bytes, hfile, hreads⟩
    · exact absurd hdir (by decide +kernel)
    · have hbytes : disk.find? (.ofString "docs/a.md") =
          some (.file (Text.Percent.utf8 "# A\n".toList)) := by decide +kernel
      obtain rfl := Disk.Entry.file.inj (Option.some.inj (hbytes.symm.trans hfile))
      rcases hreads Markdown.reader "gfm-like" _ rfl with hok | ⟨g, hdecode, -⟩
      · exact hok
      · have htext : Text.Utf8.decode (Text.Percent.utf8 "# A\n".toList) = .ok "# A\n" := by
          decide +kernel
        cases htext.symm.trans hdecode
  · exact absurd (source_of_mem_discover tree.named rfl h).2.2 (by decide +kernel)
  · refine Disk.look?_set_of_ne disk ?_ _
    rintro rfl
    rcases hq with hbelow | ⟨p', hp', hleads⟩ | ⟨r, hr, hleads⟩ | ⟨n, hn⟩
    · exact absurd hbelow (by decide +kernel)
    · have hunder := (source_of_mem_discover (p := .ofString "docs") (P := ["docs"]) tree.named rfl
        hp').1
      rcases List.prefix_or_prefix_of_prefix hleads hunder with h | h <;> exact absurd h (by decide)
    · have hunder : ["dist"] <+: r := by
        rcases hr with h | ⟨dir, hdir, -⟩
        · exact h
        · cases hdir
      rcases List.prefix_or_prefix_of_prefix hleads hunder with h | h <;> exact absurd h (by decide)
    · have hunder : ["notes"] <+: ["dist"] :=
        hn ▸ station_prefix_base (s := {}) (by decide) (by decide +kernel) n
      exact absurd hunder (by decide)

/-- A directory that is named as a page is found, and no run over it ends well. -/
theorem discover_finds_directory :
    let disk : Disk := ⟨[], ⟨[(["docs"], .directory), (["docs", "x.md"], .directory),
      (["docs", "x.md", "y.txt"], .file (Text.Percent.utf8 "y".toList))]⟩⟩
    .ofString "docs/x.md" ∈ discover disk (.ofString "docs") ∧
      disk.isFile (.ofString "docs/x.md") = false ∧
      succeeds (run .own {} "docs" { depot := { disk } }) = false := by
  decide +kernel

end Site

end DemoPages
