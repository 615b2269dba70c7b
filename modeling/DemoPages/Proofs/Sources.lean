import DemoPages.Proofs.Runs

/-!
# What a run reads

The pages at a path are found again, and as they were, after a run that writes elsewhere
(`sources_kept`). A run that writes below its own path, or above it, may find other pages there
afterwards or write over them (`sources_spoiled`), and so would one whose way to the output
directory makes a directory there that is named as a page.
-/

namespace DemoPages

open Effect

namespace Site

/-! ### Finding the same pages -/

section Discover

variable {d d' : Disk} {p : Path} {P : Place}

/-- Is it a place below another one that has the suffix of a page? -/
def isPageBelow (P q : Place) : Bool :=
  P.isPrefixOf q && P.length < q.length && isPage (Place.toPath q)

theorem isPage_below {q : Place} (h : P.length < q.length) :
    isPage { p with segments := p.segments ++ q.drop P.length } = isPage (Place.toPath q) := by
  have hname : Path.name { p with segments := p.segments ++ q.drop P.length } =
      Path.name (Place.toPath q) := by
    have hne : q.drop P.length ≠ [] := by
      rw [Ne, List.drop_eq_nil_iff]
      omega
    show (p.segments ++ q.drop P.length).getLastD "" = q.getLastD ""
    rw [List.getLastD_eq_getLast?, List.getLastD_eq_getLast?, List.getLast?_append_of_ne_nil _ hne,
      List.getLast?_drop, if_neg (by omega)]
  unfold isPage Path.suffix
  rw [hname]

/-- The pages at a path, from what lies there. -/
theorem discover_eq (hlocate : d.locate p = .ok P) :
    discover d p =
      match d.look? P with
      | some (.file _) => [p].filter isPage
      | some .directory => ((d.entries.keys.filter (isPageBelow P)).map fun q =>
          { p with segments := p.segments ++ q.drop P.length }).mergeSort
            fun a b => !b.segments.lex a.segments
      | none => [] := by
  have hfind : d.find? p = d.look? P := by rw [Disk.find?, hlocate]
  rw [discover, Disk.isFile, hfind, Disk.below, hlocate]
  cases hlook : d.look? P with
  | none => simp [hlook]
  | some e =>
    cases e with
    | file bytes => simp
    | directory =>
      simp only [hlook, if_true, Bool.false_eq_true, if_false, List.filter_map, List.filter_filter]
      congr 2
      refine List.filter_congr fun q _ => ?_
      unfold isPageBelow
      by_cases hlong : P.length < q.length
      · rw [Function.comp_apply, isPage_below hlong, Bool.and_comm]
      · simp [hlong]

/-- What lies below the path and has the suffix of a page is found as one. -/
theorem mem_discover_below {q : Place} {e : Disk.Entry} (hlocate : d.locate p = .ok P)
    (hP : d.look? P = some .directory) (hbelow : isPageBelow P q = true)
    (hq : d.look? q = some e) :
    { p with segments := p.segments ++ q.drop P.length } ∈ discover d p := by
  have hne : q ≠ [] := by
    rintro rfl
    simp [isPageBelow] at hbelow
  rw [discover_eq hlocate, hP]
  refine List.mem_mergeSort.2 (List.mem_map.2 ⟨q, List.mem_filter.2 ⟨?_, hbelow⟩, rfl⟩)
  rw [Disk.look?, if_neg hne] at hq
  exact Keyed.mem_keys.2 ⟨_, hq⟩

theorem exists_of_discover_ne_nil (h : discover d p ≠ []) :
    ∃ P e, d.locate p = .ok P ∧ d.look? P = some e := by
  cases hlocate : d.locate p with
  | error cause =>
    refine absurd ?_ h
    rw [discover, Disk.isFile, Disk.find?, Disk.below, hlocate]
    simp
  | ok P =>
    rw [discover_eq hlocate] at h
    cases hlook : d.look? P with
    | none =>
      rw [hlook] at h
      exact absurd rfl h
    | some e => exact ⟨P, e, rfl, hlook⟩

/-- Where the same lies at a place, and the same pages below it, the same pages are found. -/
theorem discover_congr {d' : Disk} (hlocate : d.locate p = .ok P) (hlocate' : d'.locate p = .ok P)
    (hlook : d'.look? P = d.look? P)
    (hkeys : d'.entries.keys.filter (isPageBelow P) = d.entries.keys.filter (isPageBelow P)) :
    discover d' p = discover d p := by
  rw [discover_eq hlocate, discover_eq hlocate', hlook, hkeys]

end Discover

end Site

/-! ### Sources -/

/-- Is it the name of something on a disk? -/
def IsName (s : String) : Prop := Path.isSegment s = true ∧ s ≠ ".." ∧ '/' ∉ s.toList

instance (s : String) : Decidable (IsName s) := inferInstanceAs (Decidable (_ ∧ _))

/-- Do all places on a disk have names? -/
structure Disk.Named (d : Disk) : Prop where
  here : ∀ s ∈ d.here, IsName s
  places : ∀ q ∈ d.entries.keys, ∀ s ∈ q, IsName s

theorem Disk.Named.dots_not_mem_here {d : Disk} (h : d.Named) : ".." ∉ d.here := fun hmem =>
  (h.here _ hmem).2.1 rfl

theorem Disk.Named.of_look? {d : Disk} (h : d.Named) {q : Place} {e : Disk.Entry}
    (he : d.look? q = some e) : ∀ s ∈ q, IsName s := by
  by_cases hq : q = []
  · subst hq
    simp
  · rw [Disk.look?, if_neg hq] at he
    exact h.places q (Keyed.mem_keys.2 ⟨e, he⟩)

namespace Site

section Sources

variable {d : Disk} {p : Path} {P : Place}

/-- What lies below the place of a path is what leads on from the path. -/
theorem resolve_below (hdots : ".." ∉ d.here) (hlocate : d.locate p = .ok P) {q : Place}
    (hbelow : P <+: q) (hq : ".." ∉ q) :
    Place.resolve d.here { p with segments := p.segments ++ q.drop P.length } = q := by
  obtain ⟨rest, rfl⟩ := hbelow
  show Place.settle (_ ++ (p.segments ++ (P ++ rest).drop P.length)) = _
  rw [List.drop_left, ← List.append_assoc, Place.settle_append]
  show Place.settle (Place.resolve d.here p ++ rest) = _
  rw [← Disk.locate_ok hdots hlocate, Place.settle_of_not_mem hq]

/-- Every page that is found lies at the path or below it, at a place that has names. -/
theorem source_of_mem_discover (named : d.Named) (hlocate : d.locate p = .ok P) {p' : Path}
    (h : p' ∈ discover d p) :
    P <+: Place.resolve d.here p' ∧ (∃ e, d.look? (Place.resolve d.here p') = some e) ∧
      isPage p' = true := by
  have hP := Disk.locate_ok named.dots_not_mem_here hlocate
  have hpage : isPage p' = true := by
    rw [discover] at h
    split at h
    · exact (List.mem_filter.1 h).2
    · exact (List.mem_filter.1 (List.mem_mergeSort.1 h)).2
  rw [discover_eq hlocate] at h
  cases hlook : d.look? P with
  | none =>
    rw [hlook] at h
    cases h
  | some e =>
    rw [hlook] at h
    cases e with
    | file bytes =>
      obtain rfl := List.mem_singleton.1 (List.mem_filter.1 h).1
      rw [← hP]
      exact ⟨List.prefix_rfl, ⟨_, hlook⟩, hpage⟩
    | directory =>
      obtain ⟨q, hq, rfl⟩ := List.mem_map.1 (List.mem_mergeSort.1 h)
      obtain ⟨hkey, hbelow⟩ := List.mem_filter.1 hq
      simp only [isPageBelow, Bool.and_eq_true, decide_eq_true_eq] at hbelow
      have hunder := List.isPrefixOf_iff_prefix.1 hbelow.1.1
      have hdots : ".." ∉ q := fun hmem => (named.places _ hkey _ hmem).2.1 rfl
      rw [resolve_below named.dots_not_mem_here hlocate hunder hdots]
      refine ⟨hunder, ?_, hpage⟩
      obtain ⟨e, he⟩ := Keyed.mem_keys.1 hkey
      by_cases hnil : q = []
      · exact ⟨.directory, by rw [hnil, Disk.look?_nil]⟩
      · exact ⟨e, by rw [Disk.look?, if_neg hnil, he]⟩

/-- Would the way to the output directory, as it is written, make a directory below a place that
counts as a page there? -/
def Detours (s : Settings) (d : Disk) (P : Place) : Prop :=
  ∃ n, isPageBelow P (station s d.here n) = true ∧ d.look? (station s d.here n) = none

/-- A way without double dots leads straight down to the output directory. -/
theorem station_prefix_base {s : Settings} {here : Place} (hhere : ".." ∉ here)
    (hplain : ".." ∉ (Path.ofString s.output).segments) (n : Nat) :
    station s here n <+: base s here := by
  have hstart : ".." ∉ (if (Path.ofString s.output).anchor = .here then here else []) := by
    split
    · exact hhere
    · exact List.not_mem_nil
  have hall : ".." ∉ (if (Path.ofString s.output).anchor = .here then here else []) ++
      (Path.ofString s.output).segments := by
    rw [List.mem_append, not_or]
    exact ⟨hstart, hplain⟩
  have htake := (List.prefix_append_right_inj
    (if (Path.ofString s.output).anchor = .here then here else [])).2
      (List.take_prefix n (Path.ofString s.output).segments)
  show Place.settle _ <+: Place.settle _
  rwa [Place.settle_of_not_mem hall, Place.settle_of_not_mem fun hmem => hall (htake.subset hmem)]

/-- A way without double dots makes no detour. -/
theorem not_detours {s : Settings} (hhere : ".." ∉ d.here)
    (hplain : ".." ∉ (Path.ofString s.output).segments) (apart : Place.Disjoint P (base s d.here)) :
    ¬ Detours s d P := by
  rintro ⟨n, hbelow, -⟩
  have hunder := station_prefix_base hhere hplain n
  simp only [isPageBelow, Bool.and_eq_true] at hbelow
  exact apart.1 ((List.isPrefixOf_iff_prefix.1 hbelow.1.1).trans hunder)

variable {tools : Tools} {s : Settings} {path : String} {st st' : State} {rs : List Result}

/-- What changes elsewhere leaves the pages at a path as they are. -/
theorem sources_of_change {d' : Disk} {output : Option Path} (named : d.Named)
    (apart : Place.Disjoint (Place.resolve d.here p) (base s d.here))
    (apart' : ∀ dir, output = some dir →
      Place.Disjoint (Place.resolve d.here p) (Place.resolve d.here dir))
    (straight : d.isFile p = true ∨ ¬ Detours s d (Place.resolve d.here p))
    (hfound : discover d p ≠ [])
    (hchange : Disk.Change (Reaches s d.here output) (Paves s d.here output) d d') :
    discover d' p = discover d p ∧ ∀ p' ∈ discover d p,
      d'.look? (Place.resolve d.here p') = d.look? (Place.resolve d.here p') := by
  obtain ⟨P, e, hlocate, hlook⟩ := exists_of_discover_ne_nil hfound
  have hP := Disk.locate_ok named.dots_not_mem_here hlocate
  have hfar : ∀ q, P <+: q → ¬ Reaches s d.here output q := by
    rintro q hq (hbase | ⟨dir, hdir, hstart⟩)
    · exact apart.not_under (hP ▸ hq) hbase
    · exact (apart' dir hdir).not_under (hP ▸ hq) hstart
  have hlocate' := Disk.locate_mono hchange.here hchange.directories hlocate
  have hlook' := hchange.look?_eq (hfar P List.prefix_rfl) hlook
  refine ⟨?_, fun p' hp' => ?_⟩
  · rcases straight with hfile | hstraight
    · have hdiscover : ∀ d : Disk, d.isFile p = true → discover d p = [p].filter isPage :=
        fun d h => if_pos h
      rw [hdiscover d hfile, hdiscover d']
      rw [Disk.isFile, Disk.find?, hlocate] at hfile
      rw [Disk.isFile, Disk.find?, hlocate']
      simp only [hlook, hlook'] at hfile ⊢
      exact hfile
    · refine discover_congr hlocate hlocate' (hlook'.trans hlook.symm)
        (hchange.keys _ fun q hq => ?_)
      have hbelow : P <+: q := by
        simp only [isPageBelow, Bool.and_eq_true] at hq
        exact List.isPrefixOf_iff_prefix.1 hq.1.1
      refine ⟨hfar q hbelow, ?_⟩
      rintro (⟨r, hr, hqr⟩ | ⟨n, rfl⟩) hempty
      · exact hfar r (hbelow.trans hqr) hr
      · exact hstraight ⟨n, hP ▸ hq, hempty⟩
  · obtain ⟨hbelow, ⟨e', he'⟩, -⟩ := source_of_mem_discover named hlocate hp'
    rw [he']
    exact hchange.look?_eq (hfar _ hbelow) he'

/-- **A run does not touch its sources**, on a disk without symbolic links. If neither the path nor
an output directory lies at or below the other, and the way to the output directory does not make a
page of its own, then after the run the same pages are found at the path, and the same lies at their
places. -/
theorem sources_kept (named : st.depot.disk.Named)
    (apart : Place.Disjoint (Place.resolve st.depot.disk.here (.ofString path))
      (base s st.depot.disk.here))
    (apart' : ∀ dir, st.depot.store.output = some dir → Place.Disjoint
      (Place.resolve st.depot.disk.here (.ofString path)) (Place.resolve st.depot.disk.here dir))
    (straight : ¬ Detours s st.depot.disk (Place.resolve st.depot.disk.here (.ofString path)))
    (h : run tools s path st = .ok rs st') :
    discover st'.depot.disk (.ofString path) = discover st.depot.disk (.ofString path) ∧
      ∀ p ∈ discover st.depot.disk (.ofString path),
        st'.depot.disk.look? (Place.resolve st.depot.disk.here p) =
          st.depot.disk.look? (Place.resolve st.depot.disk.here p) := by
  by_cases hnone : discover st.depot.disk (.ofString path) = []
  · -- Without pages, nothing is done.
    obtain ⟨root, -, hpages⟩ := run_ok.1 h
    rw [hnone] at hpages ⊢
    cases hpages
    exact ⟨hnone, fun p hp => by cases hp⟩
  · exact sources_of_change named apart apart' (Or.inr straight) hnone
      (change_run named.dots_not_mem_here h)

end Sources

end Site

namespace Site

/-- A run over the pages in `docs` leaves them there and as they are. -/
theorem sources_kept_docs :
    let disk : Disk := ⟨[], ⟨[(["docs"], .directory),
      (["docs", "a.md"], .file (Text.Percent.utf8 "# A\n".toList))]⟩⟩
    let st : State := { depot := { store := { output := some (.ofString "dist") }, disk } }
    ∃ rs st', run .own {} "docs" st = .ok rs st' ∧
      discover st'.depot.disk (.ofString "docs") = discover disk (.ofString "docs") ∧
      ∀ p ∈ discover disk (.ofString "docs"),
        st'.depot.disk.look? (Place.resolve [] p) = disk.look? (Place.resolve [] p) := by
  intro disk st
  obtain ⟨rs, st', hrun⟩ := ok_of_succeeds (r := run .own {} "docs" st) (by decide +kernel)
  have named : disk.Named := ⟨by decide, by decide⟩
  have apart : Place.Disjoint ["docs"] ["dist"] := by decide
  have hdir : ∀ dir, some (Path.ofString "dist") = some dir →
      Place.Disjoint ["docs"] (Place.resolve [] dir) := by
    rintro dir ⟨⟩
    exact apart
  have straight : ¬ Detours {} disk ["docs"] :=
    not_detours (by decide) (by decide) apart
  exact ⟨rs, st', hrun, @sources_kept .own {} "docs" st st' rs named apart hdir straight hrun⟩

/-- The path has to be apart from the output, in both directions, and from the store. A page that is
written below the path is found by the next run, a page at a path in the output directory may be
written over its own source, and components in a store below the path may have names of pages. -/
theorem sources_spoiled :
    let disk (text : String) : Disk := ⟨[], ⟨[(["docs"], .directory),
      (["docs", "a.md"], .file (Text.Percent.utf8 text.toList))]⟩⟩
    let start (text output : String) : State :=
      { depot := { store := { output := some (.ofString output) }, disk := disk text } }
    let prose := "# A\n"
    let demo := "```vue\n<a/>\n```\n"
    (∃ rs st', run .own {} "." (start prose "dist") = .ok rs st' ∧
      discover st'.depot.disk (.ofString ".") ≠ discover (disk prose) (.ofString ".")) ∧
    (∃ rs st', run .own { output := "." } "docs" (start prose ".") = .ok rs st' ∧
      st'.depot.disk.look? ["docs", "a.md"] ≠ (disk prose).look? ["docs", "a.md"]) ∧
    (∃ rs st', run .own { extension := ".md" } "docs" (start demo "docs") = .ok rs st' ∧
      discover st'.depot.disk (.ofString "docs") ≠ discover (disk demo) (.ofString "docs")) := by
  intro disk start prose demo
  refine ⟨?_, ?_, ?_⟩
  · -- The written page is found.
    obtain ⟨rs, st', hrun⟩ := ok_of_succeeds (r := run .own {} "." (start prose "dist"))
      (by decide +kernel)
    have hbefore : discover (disk prose) (.ofString ".") = [{ segments := ["docs", "a.md"] }] := by
      decide +kernel
    have hafter :
        (final (run .own {} "." (start prose "dist"))).depot.disk.locate (.ofString ".") = .ok [] ∧
        ((final (run .own {} "." (start prose "dist"))).depot.disk.look?
          ["dist", "docs", "a.md"]).isSome := by
      decide +kernel
    rw [hrun, final_ok] at hafter
    obtain ⟨hlocate, hwritten⟩ := hafter
    obtain ⟨e, he⟩ := Option.isSome_iff_exists.1 hwritten
    refine ⟨rs, st', hrun, fun hsame => ?_⟩
    have hfound := mem_discover_below hlocate (Disk.look?_nil _) (by decide +kernel) he
    rw [hsame, hbefore] at hfound
    exact absurd hfound (by decide)
  · -- The page is written over its source.
    obtain ⟨rs, st', hrun⟩ := ok_of_succeeds
      (r := run .own { output := "." } "docs" (start prose ".")) (by decide +kernel)
    have hafter : (final (run .own { output := "." } "docs" (start prose "."))).depot.disk.look?
        ["docs", "a.md"] ≠ (disk prose).look? ["docs", "a.md"] := by
      decide +kernel
    rw [hrun, final_ok] at hafter
    exact ⟨rs, st', hrun, hafter⟩
  · -- The component is found.
    obtain ⟨rs, st', hrun⟩ := ok_of_succeeds
      (r := run .own { extension := ".md" } "docs" (start demo "docs")) (by decide +kernel)
    have hbefore : discover (disk demo) (.ofString "docs") =
        [{ segments := ["docs", "a.md"] }] := by
      decide +kernel
    have hafter :
        (final (run .own { extension := ".md" } "docs" (start demo "docs"))).depot.disk.locate
          (.ofString "docs") = .ok ["docs"] ∧
        (final (run .own { extension := ".md" } "docs" (start demo "docs"))).depot.disk.look?
          ["docs"] = some .directory ∧
        ((final (run .own { extension := ".md" } "docs" (start demo "docs"))).depot.disk.look?
          ["docs", "docs", "VueCode0f805578I0.md"]).isSome := by
      decide +kernel
    rw [hrun, final_ok] at hafter
    obtain ⟨hlocate, hdocs, hwritten⟩ := hafter
    obtain ⟨e, he⟩ := Option.isSome_iff_exists.1 hwritten
    refine ⟨rs, st', hrun, fun hsame => ?_⟩
    have hfound := mem_discover_below hlocate hdocs (by decide +kernel) he
    rw [hsame, hbefore] at hfound
    exact absurd hfound (by decide)

end Site

end DemoPages
