import DemoPages.Proofs.Neighbours

/-!
# Running again

A run is a sequence of builds, one for each page that it finds (`pages_built`). It leaves all that
it built (`Builds.settled`), so the same builds can be done again and change nothing
(`Builds.rebuild`). A run that is repeated finds the same pages, and so does the same again, unless
the first one has made a directory that counts as a page (`run_again`).
-/

namespace DemoPages

open Effect

theorem Store.ext {a b : Store} (houtput : a.output = b.output)
    (hartifacts : a.artifacts = b.artifacts) : a = b := by
  cases a
  cases b
  cases houtput
  cases hartifacts
  rfl

namespace Site

/-! ### All pages -/

section Pages

variable {tools : Tools} {s : Settings} {root here P : Place} {F : String → Prop} {u u' : State}

/-- Pages are built one after the other, from one state to another. -/
inductive Builds : List (Build tools s root here) → State → State → Prop
  | nil {u : State} : Builds [] u u
  | cons {b : Build tools s root here} {bs : List (Build tools s root here)} {u v w : State}
    (first : b.Done u v) (rest : Builds bs v w) : Builds (b :: bs) u w

theorem pages_built (plain : IsPlain s.extension) (hdots : ".." ∉ here)
    (under : Underway s here (fun _ => True) u) {ps : List Path} {rs : List Result} :
    pages tools s root ps u = .ok rs u' ↔ ∃ bs : List (Build tools s root here),
      bs.map Build.path = ps ∧ rs = bs.map Build.result ∧ Builds bs u u' := by
  induction ps generalizing u rs with
  | nil =>
    constructor
    · intro h
      cases h
      exact ⟨[], rfl, rfl, .nil⟩
    · rintro ⟨bs, hmap, rfl, hbuilds⟩
      obtain rfl := List.map_eq_nil_iff.1 hmap
      cases hbuilds
      rfl
  | cons p ps ih =>
    rw [pages_cons_ok]
    constructor
    · rintro ⟨r, v, rs', hpage, hpages, rfl⟩
      obtain ⟨b, rfl, rfl, hdone⟩ := (page_built hdots under.here under.output).1 hpage
      obtain ⟨-, under'⟩ := hdone.change plain hdots under trivial
      obtain ⟨bs, rfl, rfl, hbuilds⟩ := (ih under').1 hpages
      exact ⟨b :: bs, rfl, rfl, .cons hdone hbuilds⟩
    · rintro ⟨bs, hmap, rfl, hbuilds⟩
      obtain ⟨b, bs, rfl, rfl, rfl⟩ := List.map_eq_cons_iff.1 hmap
      cases hbuilds with
      | cons first rest =>
        obtain ⟨-, under'⟩ := first.change plain hdots under trivial
        exact ⟨b.result, _, _, (page_built hdots under.here under.output).2 ⟨b, rfl, rfl, first⟩,
          (ih under').2 ⟨bs, rfl, rfl, rest⟩, rfl⟩

namespace Builds

variable {bs : List (Build tools s root here)}

/-- Files stay registered, and pages that are built are. -/
theorem known (h : Builds bs u u') :
    (∀ file ∈ u.registry.names.keys, file ∈ u'.registry.names.keys) ∧
      ∀ b ∈ bs, b.file ∈ u'.registry.names.keys := by
  induction h with
  | nil => simp
  | @cons b bs u v w first rest ih =>
    have hput : ∀ file, file = b.file ∨ file ∈ u.registry.names.keys →
        file ∈ v.registry.names.keys := by
      intro file hfile
      rw [first.names, Keyed.mem_keys]
      by_cases hsame : file = b.file
      · exact ⟨b.names, hsame ▸ Keyed.get?_put_self _ _ _⟩
      · rw [Keyed.get?_put_of_ne _ _ hsame]
        exact Keyed.mem_keys.1 (hfile.resolve_left hsame)
    refine ⟨fun file hfile => ih.1 file (hput file (Or.inr hfile)), fun b' hb' => ?_⟩
    rcases List.mem_cons.1 hb' with rfl | hmem
    · exact ih.1 _ (hput _ (Or.inl rfl))
    · exact ih.2 b' hmem

section Keep

variable (plain : IsPlain s.extension) (hdots : ".." ∉ here)
  (told : ∀ f g, F f → F g → Digest.mark f = Digest.mark g → f = g)

include plain hdots

theorem underway (h : Builds bs u u') (under : Underway s here F u) (hfiles : ∀ b ∈ bs, F b.file) :
    Underway s here F u' := by
  induction h with
  | nil => exact under
  | @cons b bs u v w first rest ih =>
    obtain ⟨-, under'⟩ := first.change plain hdots under (hfiles b List.mem_cons_self)
    exact ih under' fun b' hb' => hfiles b' (List.mem_cons_of_mem _ hb')

include told

open Classical in
/-- The store after some builds holds what they renew. -/
theorem entries_eq (h : Builds bs u u') (under : Underway s here F u)
    (hfiles : ∀ b ∈ bs, F b.file) :
    u'.depot.store.artifacts.entries =
      bs.foldl (renew (fun (b : Build tools s root here) name => decide (Belongs b.file name))
        Build.entries) u.depot.store.artifacts.entries := by
  induction h with
  | nil => rfl
  | @cons b bs u v w first rest ih =>
    have hfile := hfiles b List.mem_cons_self
    obtain ⟨-, under'⟩ := first.change plain hdots under hfile
    rw [List.foldl_cons, ← first.entries_eq under told hfile]
    exact ih under' fun b' hb' => hfiles b' (List.mem_cons_of_mem _ hb')

/-- The same builds once more leave the components in their order. -/
theorem artifacts_again {u'' : State} (h : Builds bs u u') (h' : Builds bs u' u'')
    (under : Underway s here F u) (hfiles : ∀ b ∈ bs, F b.file) :
    u''.depot.store.artifacts = u'.depot.store.artifacts := by
  classical
  have hfirst := h.entries_eq plain hdots told under hfiles
  have hagain := h'.entries_eq plain hdots told (h.underway plain hdots under hfiles) hfiles
  rw [hfirst, foldl_renew_idem, ← hfirst] at hagain
  · exact congrArg Keyed.mk hagain
  · intro b _ e he
    simpa using Build.belongs_of_mem_entries he

variable (apart : Place.Disjoint P (base s here))

include apart

/-- Some builds leave alone what was built of a page. -/
theorem keep (h : Builds bs u u') (under : Underway s here F u) (hfiles : ∀ b ∈ bs, F b.file)
    (sourced : ∀ b ∈ bs, Sourced here P b.path) {b : Build tools s root here} (hb : b.Settled u)
    (hfile : F b.file) (hsourced : Sourced here P b.path) : b.Settled u' := by
  induction h with
  | nil => exact hb
  | @cons b' bs u v w first rest ih =>
    have hfile' := hfiles b' List.mem_cons_self
    obtain ⟨-, under'⟩ := first.change plain hdots under hfile'
    refine ih under' (fun b'' hb'' => hfiles b'' (List.mem_cons_of_mem _ hb''))
      (fun b'' hb'' => sourced b'' (List.mem_cons_of_mem _ hb'')) ?_
    exact hb.keep hdots plain apart under told hfile hfile' hsourced
      (sourced b' List.mem_cons_self) first

/-- After some builds, the state has what was built of every page. -/
theorem settled (h : Builds bs u u') (under : Underway s here F u) (hfiles : ∀ b ∈ bs, F b.file)
    (sourced : ∀ b ∈ bs, Sourced here P b.path) : ∀ b ∈ bs, b.Settled u' := by
  induction h with
  | nil => simp
  | @cons b bs u v w first rest ih =>
    have hfile := hfiles b List.mem_cons_self
    have hsourced := sourced b List.mem_cons_self
    have hfiles' : ∀ b' ∈ bs, F b'.file := fun b' hb' => hfiles b' (List.mem_cons_of_mem _ hb')
    have hsourced' : ∀ b' ∈ bs, Sourced here P b'.path := fun b' hb' =>
      sourced b' (List.mem_cons_of_mem _ hb')
    obtain ⟨hchange, under'⟩ := first.change plain hdots under hfile
    intro b' hb'
    rcases List.mem_cons.1 hb' with rfl | hmem
    · obtain ⟨-, bytes, hbytes⟩ := read_ok b'.dots_not_mem_source first.read
      have hfar : ¬ b'.Touches b'.source := fun htouch => apart.not_under hsourced.below htouch.1
      have hsource := (hchange.look?_eq hfar hbytes).trans hbytes.symm
      have hb := first.settled hdots under'.here hchange.directories hsource
      exact rest.keep plain hdots told apart under' hfiles' hsourced' hb hfile hsourced
    · exact ih under' hfiles' hsourced' b' hmem

end Keep

/-- **What was built of some pages can be built again**, and nothing changes. -/
theorem rebuild (hdots : ".." ∉ here) (hhere : u.depot.disk.here = here)
    (houtput : u.depot.store.output = some (.ofString s.output)) (h : ∀ b ∈ bs, b.Settled u) :
    ∃ u', Builds bs u u' ∧ u.Same u' := by
  induction bs generalizing u with
  | nil => exact ⟨u, .nil, .refl u⟩
  | cons b bs ih =>
    obtain ⟨v, hdone, hsame⟩ := (h b List.mem_cons_self).rebuild hdots hhere houtput
    obtain ⟨w, hbuilds, hsame'⟩ := ih (hsame.here.trans hhere) (hsame.output.trans houtput)
      fun b' hb' => hsame.settled (h b' (List.mem_cons_of_mem _ hb'))
    exact ⟨w, .cons hdone hbuilds, hsame.trans hsame'⟩

end Builds

end Pages

/-! ### Pages that are directories -/

section Directories

variable {tools : Tools} {s : Settings} {root P : Place} {path : String} {u u' : State}
  {rs : List Result}

/-- Where a directory counts as a page, a run fails. -/
theorem look?_of_pages {ps : List Path} (hdots : ".." ∉ u.depot.disk.here)
    (h : pages tools s root ps u = .ok rs u') :
    ∀ p ∈ ps, u.depot.disk.look? (Place.resolve u.depot.disk.here p) ≠ some .directory := by
  induction ps generalizing u rs with
  | nil => simp
  | cons p ps ih =>
    obtain ⟨r, v, rs', hpage, hpages, rfl⟩ := pages_cons_ok.1 h
    obtain ⟨hchange, -⟩ := change_page_reaches hdots rfl rfl hpage
    intro p' hp' hdir
    rcases List.mem_cons.1 hp' with rfl | hmem
    · obtain ⟨-, blocks, -, -, -, -, hread, -⟩ := (page_ok rfl).1 hpage
      obtain ⟨-, bytes, hbytes⟩ := read_ok (Place.dots_not_mem_settle _) hread
      cases hdir.symm.trans hbytes
    · refine ih (hchange.not_mem_here hdots) hpages p' hmem ?_
      rw [hchange.here]
      exact hchange.directories _ hdir

end Directories

/-! ### The whole run -/

section Run

variable {tools : Tools} {s : Settings} {path : String} {st st' : State} {rs : List Result}

/-- A run comes to builds, and all that it built is there. -/
theorem run_settled (reached : Reached st) (named : st.depot.disk.Named)
    (plain : IsPlain s.extension) (houtput : st.depot.store.output = some (.ofString s.output))
    (apart : Place.Disjoint (Place.resolve st.depot.disk.here (.ofString path))
      (base s st.depot.disk.here))
    (h : run tools s path st = .ok rs st')
    (told : ∀ f ∈ st'.registry.names.keys, ∀ g ∈ st'.registry.names.keys,
      Digest.mark f = Digest.mark g → f = g) :
    ∃ root, ∃ bs : List (Build tools s root st.depot.disk.here),
      Site.root s st.depot.disk = .ok root ∧
      bs.map Build.path = discover st.depot.disk (.ofString path) ∧ rs = bs.map Build.result ∧
      Builds bs st st' ∧ (∀ b ∈ bs, b.file ∈ st'.registry.names.keys) ∧
      Underway s st.depot.disk.here (· ∈ st'.registry.names.keys) st ∧
      Underway s st.depot.disk.here (· ∈ st'.registry.names.keys) st' ∧
      ∀ b ∈ bs, b.Settled st' := by
  obtain ⟨root, hroot, hpages⟩ := run_ok.1 h
  have hdots := named.dots_not_mem_here
  have under : ∀ F : String → Prop, (∀ file ∈ st.registry.names.keys, F file) →
      Underway s st.depot.disk.here F st := fun F hF => ⟨rfl, houtput, reached.isTraced, hF⟩
  obtain ⟨bs, hmap, rfl, hbuilds⟩ := (pages_built plain hdots (under _ fun _ _ => trivial)).1 hpages
  obtain ⟨hkeys, hfiles⟩ := hbuilds.known
  have under₁ := under (· ∈ st'.registry.names.keys) hkeys
  have sourced : ∀ b ∈ bs, Sourced st.depot.disk.here
      (Place.resolve st.depot.disk.here (.ofString path)) b.path := by
    intro b hb
    have hmem : b.path ∈ discover st.depot.disk (.ofString path) := hmap ▸ List.mem_map_of_mem hb
    obtain ⟨P, -, hlocate, -⟩ := exists_of_discover_ne_nil (List.ne_nil_of_mem hmem)
    obtain ⟨hbelow, ⟨e, he⟩, hpage⟩ := source_of_mem_discover named hlocate hmem
    rw [Disk.locate_ok hdots hlocate] at hbelow
    exact ⟨hpage, hbelow, named.of_look? he⟩
  exact ⟨root, bs, hroot, hmap, rfl, hbuilds, hfiles, under₁,
    hbuilds.underway plain hdots under₁ hfiles,
    hbuilds.settled plain hdots (fun f g hf hg => told f hf g hg) apart under₁ hfiles sourced⟩

/-- After a run that makes a page of its own on the way to the output directory, this page is
found. -/
theorem detour_found {root : Place} {b : Build tools s root st.depot.disk.here}
    (named : st.depot.disk.Named)
    (apart : Place.Disjoint (Place.resolve st.depot.disk.here (.ofString path))
      (base s st.depot.disk.here))
    (hchange : Disk.Change (Reaches s st.depot.disk.here (some (.ofString s.output)))
      (Paves s st.depot.disk.here (some (.ofString s.output))) st.depot.disk st'.depot.disk)
    (hfound : discover st.depot.disk (.ofString path) ≠ [])
    (hdirectory : st.depot.disk.isFile (.ofString path) = false)
    (hdetour : Detours s st.depot.disk (Place.resolve st.depot.disk.here (.ofString path)))
    (hb : b.Settled st') :
    ∃ p ∈ discover st'.depot.disk (.ofString path),
      st'.depot.disk.look? (Place.resolve st'.depot.disk.here p) = some .directory := by
  have hdots := named.dots_not_mem_here
  obtain ⟨P, e, hlocate, hlook⟩ := exists_of_discover_ne_nil hfound
  have hP : st.depot.disk.look? P = some .directory := by
    rw [Disk.isFile, Disk.find?, hlocate] at hdirectory
    cases e with
    | directory => exact hlook
    | file bytes => simp [hlook] at hdirectory
  rw [← Disk.locate_ok hdots hlocate] at apart hdetour
  obtain ⟨n, hbelow, -⟩ := hdetour
  have hunder : P <+: station s st.depot.disk.here n := by
    simp only [isPageBelow, Bool.and_eq_true] at hbelow
    exact List.isPrefixOf_iff_prefix.1 hbelow.1.1
  -- The station is no end of the way, since the output directory lies elsewhere.
  have hn : (Path.ofString s.output).segments.drop n ≠ [] := by
    intro hnil
    have hbase : station s st.depot.disk.here n = base s st.depot.disk.here := by
      rw [station, List.take_of_length_le (List.drop_eq_nil_iff.1 hnil)]
      rfl
    exact apart.1 (hbase ▸ hunder)
  have hstation := hb.station_directory hdots hchange.here (List.append_ne_nil_of_left_ne_nil hn _)
  have hlocate' := Disk.locate_mono hchange.here hchange.directories hlocate
  refine ⟨_, mem_discover_below hlocate' (hchange.directories P hP) hbelow hstation, ?_⟩
  have hhere : ".." ∉ st'.depot.disk.here := hchange.not_mem_here hdots
  rw [resolve_below hhere hlocate' hunder (Place.dots_not_mem_settle _)]
  exact hstation

/-- **A run can be run again.** On a disk without symbolic links, as all are here, let a run end
well that begins with what earlier runs left, writes its pages and its components to one directory,
away from its path, and gives its components an extension that is not that of a page; and let the
digits tell all pages apart. Then it runs again with the same results, and leaves the disk, the
registry and the store, with its components in their order, as they are: if and only if it finds no
page, or its path is a file, or its way to the output directory does not make a directory that
counts as a page at the path. -/
theorem run_again (reached : Reached st) (named : st.depot.disk.Named)
    (plain : IsPlain s.extension) (houtput : st.depot.store.output = some (.ofString s.output))
    (apart : Place.Disjoint (Place.resolve st.depot.disk.here (.ofString path))
      (base s st.depot.disk.here))
    (h : run tools s path st = .ok rs st')
    (told : ∀ f ∈ st'.registry.names.keys, ∀ g ∈ st'.registry.names.keys,
      Digest.mark f = Digest.mark g → f = g) :
    (∃ st'', run tools s path st' = .ok rs st'' ∧
      (∀ q, st''.depot.disk.look? q = st'.depot.disk.look? q) ∧
      st''.registry.names = st'.registry.names ∧ st''.depot.store = st'.depot.store) ↔
    rs = [] ∨ st.depot.disk.isFile (.ofString path) = true ∨
      ¬ Detours s st.depot.disk (Place.resolve st.depot.disk.here (.ofString path)) := by
  have hdots := named.dots_not_mem_here
  have hchange := change_run hdots h
  obtain ⟨root, bs, hroot, hmap, rfl, hbuilds, hfiles, under, under', settled⟩ :=
    run_settled reached named plain houtput apart h told
  rw [houtput] at hchange
  constructor
  · rintro ⟨st'', hrun, -⟩
    by_contra hnot
    simp only [not_or, not_not, Bool.not_eq_true] at hnot
    obtain ⟨hpages, hdirectory, hdetour⟩ := hnot
    obtain ⟨b, hb⟩ := List.exists_mem_of_ne_nil bs (by simpa using hpages)
    have hfound : discover st.depot.disk (.ofString path) ≠ [] :=
      List.ne_nil_of_mem (hmap ▸ List.mem_map_of_mem hb)
    obtain ⟨p, hp, hdir⟩ :=
      detour_found named apart hchange hfound hdirectory hdetour (settled b hb)
    obtain ⟨root', -, hpages'⟩ := run_ok.1 hrun
    exact look?_of_pages (hchange.not_mem_here hdots) hpages' p hp hdir
  · intro hstraight
    have hdiscover : discover st'.depot.disk (.ofString path) = bs.map Build.path := by
      by_cases hbs : bs = []
      · subst hbs
        cases hbuilds
        exact hmap.symm
      · have hfound : discover st.depot.disk (.ofString path) ≠ [] := by
          rw [← hmap]
          simpa using hbs
        have hapart : ∀ dir, some (Path.ofString s.output) = some dir → Place.Disjoint
            (Place.resolve st.depot.disk.here (.ofString path))
            (Place.resolve st.depot.disk.here dir) := by
          rintro dir ⟨⟩
          exact apart
        have hclear := hstraight.resolve_left (by simpa using hbs)
        exact (sources_of_change named apart hapart hclear hfound hchange).1.trans hmap.symm
    obtain ⟨st'', hbuilds', hsame⟩ := Builds.rebuild hdots under'.here under'.output settled
    have hroot' : Site.root s st'.depot.disk = .ok root := by
      rw [← hroot, Site.root, Site.root, hchange.here]
    have hpages : pages tools s root (bs.map Build.path) st' = .ok (bs.map Build.result) st'' :=
      (pages_built plain hdots ⟨under'.here, under'.output, under'.traced, fun _ _ => trivial⟩).2
        ⟨bs, rfl, rfl, hbuilds'⟩
    refine ⟨st'', run_ok.2 ⟨root, hroot', hdiscover.symm ▸ hpages⟩, hsame.look, hsame.names, ?_⟩
    have hartifacts := hbuilds.artifacts_again plain hdots (fun f g hf hg => told f hf g hg)
      hbuilds' under hfiles
    exact Store.ext hsame.output hartifacts

end Run

/-- A page with a demo is built again as it was. -/
theorem run_again_docs :
    let disk : Disk := ⟨[], ⟨[(["docs"], .directory),
      (["docs", "a.md"], .file (Text.Percent.utf8 "```vue\n<a/>\n```\n".toList))]⟩⟩
    let st : State := { depot := { store := { output := some (.ofString "dist") }, disk } }
    ∃ rs st' st'', run .own {} "docs" st = .ok rs st' ∧
      st'.depot.store.names = ["VueCode0f805578I0"] ∧ run .own {} "docs" st' = .ok rs st'' ∧
      (∀ q, st''.depot.disk.look? q = st'.depot.disk.look? q) ∧
      st''.registry.names = st'.registry.names ∧ st''.depot.store = st'.depot.store := by
  intro disk st
  obtain ⟨rs, st', hrun⟩ := ok_of_succeeds (r := run .own {} "docs" st) (by decide +kernel)
  have hafter : (final (run .own {} "docs" st)).registry.names.keys = ["/docs/a.md"] ∧
      (final (run .own {} "docs" st)).depot.store.names = ["VueCode0f805578I0"] := by decide +kernel
  rw [hrun, final_ok] at hafter
  have named : disk.Named := ⟨by decide, by decide⟩
  have plain : IsPlain ".vue" := ⟨by decide +kernel, by decide, by decide⟩
  have apart : Place.Disjoint ["docs"] ["dist"] := by decide
  have straight : ¬ Detours {} disk ["docs"] := not_detours (by decide) (by decide) apart
  have told : ∀ f ∈ st'.registry.names.keys, ∀ g ∈ st'.registry.names.keys,
      Digest.mark f = Digest.mark g → f = g := by
    rw [hafter.1]
    simp
  obtain ⟨st'', hagain⟩ := (@run_again .own {} "docs" st st' rs (.start _ _) named plain rfl apart
    hrun told).2 (Or.inr (Or.inr straight))
  exact ⟨rs, st', st'', hrun, hafter.2, hagain⟩

/-- Where the way to the output directory makes a directory that counts as a page, the run cannot be
run again. -/
theorem run_again_detour :
    let disk : Disk := ⟨[], ⟨[(["docs"], .directory),
      (["docs", "a.md"], .file (Text.Percent.utf8 "# A\n".toList))]⟩⟩
    let s : Settings := { output := "docs/x.md/../../dist" }
    let st : State := { depot := { store := { output := some (.ofString s.output) }, disk } }
    Reached st ∧ disk.Named ∧ IsPlain s.extension ∧
      Place.Disjoint (Place.resolve [] (.ofString "docs")) (base s []) ∧
      ∃ rs st', run .own s "docs" st = .ok rs st' ∧ st'.registry.names.keys = ["/docs/a.md"] ∧
        ∀ rs' st'', run .own s "docs" st' ≠ .ok rs' st'' := by
  intro disk s st
  have plain : IsPlain ".vue" := ⟨by decide +kernel, by decide, by decide⟩
  refine ⟨.start _ _, ⟨by decide, by decide⟩, plain, by decide, ?_⟩
  obtain ⟨rs, st', hrun⟩ := ok_of_succeeds (r := run .own s "docs" st) (by decide +kernel)
  have hafter : (final (run .own s "docs" st)).registry.names.keys = ["/docs/a.md"] ∧
      (final (run .own s "docs" st)).depot.disk.here = [] ∧
      (final (run .own s "docs" st)).depot.disk.locate (.ofString "docs") = .ok ["docs"] ∧
      (final (run .own s "docs" st)).depot.disk.look? ["docs"] = some .directory ∧
      (final (run .own s "docs" st)).depot.disk.look? ["docs", "x.md"] = some .directory := by
    decide +kernel
  rw [hrun, final_ok] at hafter
  obtain ⟨hkeys, hhere, hlocate, hdocs, hmade⟩ := hafter
  refine ⟨rs, st', hrun, hkeys, fun rs' st'' hagain => ?_⟩
  obtain ⟨root, -, hpages⟩ := run_ok.1 hagain
  have hfound := mem_discover_below hlocate hdocs (q := ["docs", "x.md"])
    (by decide +kernel) hmade
  refine look?_of_pages (by simp [hhere]) hpages _ hfound ?_
  rw [hhere]
  exact hmade

end Site

end DemoPages
