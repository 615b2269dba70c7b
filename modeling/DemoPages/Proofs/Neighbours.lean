import DemoPages.Proofs.Builds

/-!
# Pages do not disturb each other

A build changes the files of its own components, past and present, and the file of its own page
(`Done.change`). If the digits tell its page from another, what was built of the other one stays
(`Settled.keep`); and in the store, it renews what belongs to its own page (`Done.entries_eq`).
-/

namespace DemoPages

open Effect

/-! ### Places and names -/

theorem Marked.congr {file file' : String} (h : Digest.mark file = Digest.mark file') {q : Place}
    (hq : Marked file q) : Marked file' q := by
  unfold Marked at hq ⊢
  rwa [← h]

/-- Places that have names are told apart by their texts. -/
theorem Place.toString_inj {p q : Place} (hp : ∀ s ∈ p, IsName s) (hq : ∀ s ∈ q, IsName s)
    (h : Place.toString p = Place.toString q) : p = q := by
  have hbody : Text.joinWith "/" p = Text.joinWith "/" q := by
    have hlist := congrArg String.toList h
    simp only [Place.toString, String.toList_append] at hlist
    exact String.toList_inj.1 (List.append_cancel_left hlist)
  have hempty : ∀ r : Place, (∀ s ∈ r, IsName s) → Text.joinWith "/" r = "" → r = [] := by
    intro r hr hjoin
    by_contra hne
    have hpieces := Path.pieces_joinWith hne fun s hs => (hr s hs).2.2
    rw [hjoin] at hpieces
    have hmem : "" ∈ r := by
      rw [← hpieces]
      decide
    exact absurd (hr "" hmem).1 (by decide)
  by_cases hpe : p = []
  · subst hpe
    exact (hempty q hq hbody.symm).symm
  · by_cases hqe : q = []
    · subst hqe
      exact hempty p hp hbody
    · rw [← Path.pieces_joinWith hpe fun s hs => (hp s hs).2.2, hbody,
        Path.pieces_joinWith hqe fun s hs => (hq s hs).2.2]

namespace Site

/-- The place of a page has the name of its path. -/
theorem isPage_resolve {here : Place} {p : Path} (h : isPage p = true) :
    isPage (Place.toPath (Place.resolve here p)) = true := by
  rcases List.eq_nil_or_concat p.segments with hnil | ⟨xs, x, hsegments⟩
  · have hname : p.name = "" := by rw [Path.name, hnil]; rfl
    rw [isPage, Path.suffix, hname] at h
    exact absurd h (by decide)
  · rw [List.concat_eq_append] at hsegments
    have hname : p.name = x := by rw [Path.name, hsegments, List.getLastD_concat]
    have hdots : x ≠ ".." := by
      rintro rfl
      rw [isPage, Path.suffix, hname] at h
      exact absurd h (by decide)
    have hplace : Path.name (Place.toPath (Place.resolve here p)) = x := by
      rw [Place.resolve, hsegments, ← List.append_assoc, Place.settle_concat _ hdots, Path.name]
      exact List.getLastD_concat
    rw [isPage, Path.suffix, hname] at h
    rwa [isPage, Path.suffix, hplace]

/-- A path of a page at or below `P`, the place of which has names. -/
structure Sourced (here P : Place) (p : Path) : Prop where
  page : isPage p = true
  below : P <+: Place.resolve here p
  named : ∀ x ∈ Place.resolve here p, IsName x

/-- A run that goes on: it reads paths from `here`, the store writes to the output directory of the
settings, and components are traced to the files in `F`. -/
structure Underway (s : Settings) (here : Place) (F : String → Prop) (u : State) : Prop where
  here : u.depot.disk.here = here
  output : u.depot.store.output = some (.ofString s.output)
  traced : u.IsTraced
  known : ∀ file ∈ u.registry.names.keys, F file

namespace Build

variable {tools : Tools} {s : Settings} {root here P : Place} {F : String → Prop}
  {b b' : Build tools s root here}
  {u u' : State}

theorem belongs_of_mem_names {name : String} (h : name ∈ b.names) : Belongs b.file name := by
  obtain ⟨a, ha, rfl⟩ := List.mem_map.1 h
  have hmade : b.extractor.Made here a := Extractor.made_of_mem_componentsFrom 0 _ ha
  exact hmade.belongs

/-- May a build change what lies here? -/
def Touches (b : Build tools s root here) (q : Place) : Prop :=
  base s here <+: q ∧ (q = base s here ∨ q = b.place ∨ Marked b.file q)

theorem Done.names (h : b.Done u u') : u'.registry.names = u.registry.names.put b.file b.names := by
  obtain ⟨kept, registered, made, disk, -, -, -, -, rfl⟩ := h.steps
  rfl

/-- What a build changes. -/
theorem Done.change (plain : IsPlain s.extension) (hdots : ".." ∉ here)
    (under : Underway s here F u) (hfile : F b.file) (h : b.Done u u') :
    Disk.Change b.Touches (fun _ => True) u.depot.disk u'.depot.disk ∧ Underway s here F u' := by
  have hpage : page tools s root b.path u = .ok b.result u' :=
    (page_built hdots under.here under.output).2 ⟨b, rfl, rfl, h⟩
  have hsource : Place.resolve u.depot.disk.here b.path = b.source := by rw [under.here]; rfl
  obtain ⟨hchange, houtput⟩ : Disk.Change b.Touches (fun _ => True) u.depot.disk u'.depot.disk ∧
      u'.depot.store.output = u.depot.store.output := by
    refine change_page hsource (under.here ▸ hdots) ?_ ?_ ?_ (fun _ _ => trivial) (fun _ => trivial)
      hpage
    · intro name hname a ha output hout q hq
      rw [under.output, Option.some_inj] at hout
      subst hout
      rw [under.here] at hq
      obtain ⟨rfl, e, here', hmade, hplain⟩ := under.traced.made name a ha
      have hmark := hmade.belongs.mark_eq (under.traced.named b.file a.name hname)
      refine ⟨(Store.target_ok hq).2, ?_⟩
      rcases hmade.marked hplain hq with hbase | hmarked
      · exact Or.inl hbase
      · exact Or.inr (Or.inr (hmarked.congr hmark))
    · intro a hmade output hout q hq
      rw [under.output, Option.some_inj] at hout
      subst hout
      rw [under.here] at hq
      refine ⟨⟨(Store.target_ok hq).2, ?_⟩, fun _ _ => trivial⟩
      rcases hmade.marked plain hq with hbase | hmarked
      · exact Or.inl hbase
      · exact Or.inr (Or.inr hmarked)
    · rw [under.here]
      exact ⟨List.prefix_append _ _, Or.inr (Or.inl rfl)⟩
  have htraced : (final (page tools s root b.path u)).IsTraced :=
    traced_page plain b.path under.traced
  rw [hpage, final_ok] at htraced
  refine ⟨hchange, hchange.here.trans under.here, houtput.trans under.output, htraced, ?_⟩
  intro file hmem
  rw [h.names, Keyed.mem_keys] at hmem
  obtain ⟨names, hnames⟩ := hmem
  by_cases hsame : file = b.file
  · exact hsame ▸ hfile
  · rw [Keyed.get?_put_of_ne _ _ hsame] at hnames
    exact under.known file (Keyed.mem_keys.2 ⟨names, hnames⟩)

theorem Valid.drop_ne_nil (valid : b.Valid) (hroot : b.source ≠ root) :
    b.source.drop root.length ≠ [] := by
  obtain ⟨rest, hrest⟩ := valid.below
  intro hnil
  rw [← hrest, List.drop_left] at hnil
  rw [hnil, List.append_nil] at hrest
  exact hroot hrest.symm

theorem Valid.place_ne_base (valid : b.Valid) (hroot : b.source ≠ root) :
    b.place ≠ base s here := by
  intro h
  exact valid.drop_ne_nil hroot (List.append_right_eq_self.1 h)

/-- A page that lies below the root is written to the place of a page. -/
theorem Valid.isPage_place (valid : b.Valid) (hroot : b.source ≠ root)
    (sourced : Sourced here P b.path) : isPage (Place.toPath b.place) = true := by
  have hlength : root.length < b.source.length := by
    have hne := valid.drop_ne_nil hroot
    rw [Ne, List.drop_eq_nil_iff] at hne
    omega
  have hbelow := isPage_below (p := Place.toPath (base s here)) hlength
  exact hbelow.trans (isPage_resolve sourced.page)

theorem station_length : station s here (Path.ofString s.output).segments.length = base s here := by
  rw [station, List.take_length]
  rfl

/-- The way to a page leads through directories: the stations of the output directory. -/
theorem Settled.station_directory (h : b.Settled u) (hdots : ".." ∉ here)
    (hhere : u.depot.disk.here = here) {n : Nat}
    (hn : (Path.ofString s.output).segments.drop n ++ b.source.drop root.length ≠ []) :
    u.depot.disk.look? (station s here n) = some .directory := by
  subst hhere
  refine Disk.look?_of_locate_append hdots hn (q := b.place) ?_
  have hsegments : b.target.segments = (Path.ofString s.output).segments.take n ++
      ((Path.ofString s.output).segments.drop n ++ b.source.drop root.length) := by
    rw [← List.append_assoc, List.take_append_drop]
    rfl
  rw [← hsegments]
  exact h.located

/-- The way to a page that lies below the root leads through the output directory. -/
theorem Settled.base_directory (h : b.Settled u) (hdots : ".." ∉ here)
    (hhere : u.depot.disk.here = here) (hroot : b.source ≠ root) :
    u.depot.disk.look? (base s here) = some .directory := by
  rw [← station_length]
  exact h.station_directory hdots hhere
    (List.append_ne_nil_of_right_ne_nil _ (h.valid.drop_ne_nil hroot))

/-- Two pages are registered as one file only if they lie at one place. -/
theorem source_eq_of_file_eq (sourced : Sourced here P b.path) (sourced' : Sourced here P b'.path)
    (h : b.file = b'.file) : b.source = b'.source :=
  Place.toString_inj sourced.named sourced'.named h

/-- Of two pages that are built, none lies at the root. -/
theorem source_ne_root
    (hread : Page.read tools.reader b.source.toPath s.dialect u.depot.disk = .ok b.blocks)
    (hread' : Page.read tools.reader b'.source.toPath s.dialect u.depot.disk = .ok b'.blocks)
    (valid' : b'.Valid) (hne : b.source ≠ b'.source) : b.source ≠ root := by
  intro hroot
  obtain ⟨-, bytes, hfile⟩ := read_ok b.dots_not_mem_source hread
  obtain ⟨hfound, -⟩ := read_ok b'.dots_not_mem_source hread'
  have hunder : b.source <+: b'.source := by
    rw [hroot]
    exact valid'.below
  have hdir := hfound.directory_of_prefix b'.dots_not_mem_source hunder hne
  rw [hfile] at hdir
  cases hdir

/-- Where a page and its components lie, a build of another page changes nothing. -/
theorem Settled.not_touches (h : b.Settled u) (hdots : ".." ∉ here)
    (hhere : u.depot.disk.here = here) (plain : IsPlain s.extension)
    (apart : Place.Disjoint P (base s here)) (sourced : Sourced here P b.path)
    (sourced' : Sourced here P b'.path) (h' : b'.Done u u')
    (hmark : Digest.mark b.file ≠ Digest.mark b'.file) :
    ¬ b'.Touches b.source ∧ ¬ b'.Touches b.place ∧ ∀ ap ∈ b.files, ¬ b'.Touches ap.2 := by
  have hne : b.source ≠ b'.source := by
    intro heq
    exact hmark (congrArg (fun p => Digest.mark (Place.toString p)) heq)
  have hroot := source_ne_root h.read h'.read h'.valid hne
  have hroot' := source_ne_root h'.read h.read h.valid (Ne.symm hne)
  have hpage := h.valid.isPage_place hroot sourced
  have hpage' := h'.valid.isPage_place hroot' sourced'
  refine ⟨fun htouch => ?_, fun htouch => ?_, fun ap hap htouch => ?_⟩
  · exact apart.not_under sourced.below htouch.1
  · rcases htouch.2 with hbase | hplace | hmarked
    · exact h.valid.place_ne_base hroot hbase
    · have hrest := List.append_cancel_left hplace
      obtain ⟨rest, hrest₁⟩ := h.valid.below
      obtain ⟨rest', hrest₂⟩ := h'.valid.below
      rw [← hrest₁, ← hrest₂, List.drop_left, List.drop_left] at hrest
      exact hne (by rw [← hrest₁, ← hrest₂, hrest])
    · rw [hmarked.isPage_eq_false] at hpage
      cases hpage
  · obtain ⟨ha, htarget⟩ := h.valid.target hap
    have hmade : b.extractor.Made here ap.1 := Extractor.made_of_mem_componentsFrom 0 _ ha
    have hnotBase : ap.2 ≠ base s here := by
      intro hbase
      have hdir := h.base_directory hdots hhere hroot
      rw [← hbase] at hdir
      exact h.not_directory hap hdir
    have hmarked : Marked b.file ap.2 := (hmade.marked plain htarget).resolve_left hnotBase
    rcases htouch.2 with hbase | hplace | hmarked'
    · exact hnotBase hbase
    · rw [← hplace, hmarked.isPage_eq_false] at hpage'
      cases hpage'
    · exact hmark (hmarked.mark_eq hmarked')

/-- A build of a page that lies at the same place comes to the same. -/
theorem Done.eq_of_source_eq (hdots : ".." ∉ here) (hhere : u.depot.disk.here = here)
    (houtput : u.depot.store.output = some (.ofString s.output)) {u'' : State} (h : b.Done u u')
    (h' : b'.Done u u'') (hsource : b'.source = b.source) : u'' = u' := by
  have hpage := (page_built hdots hhere houtput).2 ⟨b, rfl, rfl, h⟩
  have hpage' := (page_built hdots hhere houtput).2 ⟨b', rfl, rfl, h'⟩
  have hresolve : Place.resolve u.depot.disk.here b.path = b.source := by rw [hhere]; rfl
  have hresolve' : Place.resolve u.depot.disk.here b'.path = b.source := by
    rw [hhere]
    exact hsource
  obtain ⟨hroot, blocks, blocks', built, made, disk, hread, hextract, hmake, hwrite, rfl, -⟩ :=
    (page_ok hresolve').1 hpage'
  have hagain := (page_ok (p := b.path) hresolve).2
    ⟨hroot, blocks, blocks', built, made, disk, hread, hextract, hmake, hwrite, rfl, rfl⟩
  rw [hpage] at hagain
  exact (EStateM.Result.ok.inj hagain).2.symm

/-- **A build of another page leaves alone what was built of a page**, and so does another build of
the same page. -/
theorem Settled.keep (h : b.Settled u) (hdots : ".." ∉ here) (plain : IsPlain s.extension)
    (apart : Place.Disjoint P (base s here)) (under : Underway s here F u)
    (told : ∀ f g, F f → F g → Digest.mark f = Digest.mark g → f = g) (hfile : F b.file)
    (hfile' : F b'.file) (sourced : Sourced here P b.path) (sourced' : Sourced here P b'.path)
    (h' : b'.Done u u') : b.Settled u' := by
  by_cases hsource : b'.source = b.source
  · obtain ⟨u'', hdone, hsame⟩ := h.rebuild hdots under.here under.output
    rw [hdone.eq_of_source_eq hdots under.here under.output h' hsource]
    exact hsame.settled h
  · have hne : b.file ≠ b'.file := fun heq =>
      hsource (source_eq_of_file_eq sourced sourced' heq).symm
    have hmark : Digest.mark b.file ≠ Digest.mark b'.file := fun heq =>
      hne (told _ _ hfile hfile' heq)
    obtain ⟨hchange, -⟩ := h'.change plain hdots under hfile'
    obtain ⟨hread, hplace, hfiles⟩ :=
      h.not_touches hdots under.here plain apart sourced sourced' h' hmark
    have hforeign : ∀ name ∈ b.names, ¬ Belongs b'.file name := fun name hname hmem =>
      hmark ((belongs_of_mem_names hname).mark_eq hmem)
    refine h.mono hchange.here hchange.directories ?_ (fun name hname => ?_) ?_
    · rintro q (rfl | rfl | ⟨ap, hap, rfl⟩)
      · obtain ⟨-, bytes, hbytes⟩ := read_ok b.dots_not_mem_source h.read
        exact (hchange.look?_eq hread hbytes).trans hbytes.symm
      · exact (hchange.look?_eq hplace h.written).trans h.written.symm
      · obtain ⟨bytes, hbytes⟩ := h.exists_file hap
        exact (hchange.look?_eq (hfiles ap hap) hbytes).trans hbytes.symm
    · obtain ⟨kept, hkept, hstore⟩ := h'.store
      have hnew : name ∉ b'.names := fun hmem => hforeign name hname (belongs_of_mem_names hmem)
      have hold : name ∉ u.registry.get b'.file := fun hmem =>
        hforeign name hname (under.traced.named b'.file name hmem)
      rw [hstore, Depot.get?_keep_of_not_mem hnew, hkept, Store.get?_without, if_neg hold]
    · rw [h'.names, Keyed.get?_put_of_ne _ _ hne]

/-- What stands in the store for the components of a page. -/
def entries (b : Build tools s root here) : List (String × Artifact) :=
  (b.components.foldl (fun m a => m.put a.name a) ({} : Keyed String Artifact)).entries

open Classical in
/-- A build renews what belongs to its page. -/
theorem Done.entries_eq (h : b.Done u u') (under : Underway s here F u)
    (told : ∀ f g, F f → F g → Digest.mark f = Digest.mark g → f = g) (hfile : F b.file) :
    u'.depot.store.artifacts.entries =
      renew (fun (b : Build tools s root here) name => decide (Belongs b.file name)) entries
        u.depot.store.artifacts.entries b := by
  obtain ⟨kept, hkept, hstore⟩ := h.store
  have hown : ∀ name ∈ u.depot.store.names,
      (name ∈ u.registry.get b.file ↔ Belongs b.file name) := by
    intro name hname
    refine ⟨fun hmem => under.traced.named b.file name hmem, fun hbelongs => ?_⟩
    obtain ⟨file, hmem⟩ := under.traced.accounted name hname
    have hknown : F file := by
      refine under.known file (Keyed.mem_keys.2 ?_)
      cases hnames : u.registry.names.get? file with
      | none =>
        rw [Registry.get, hnames] at hmem
        cases hmem
      | some names => exact ⟨names, rfl⟩
    have hmark := (under.traced.named file name hmem).mark_eq hbelongs
    rwa [told _ _ hknown hfile hmark] at hmem
  have hleft : kept.store.artifacts.entries =
      u.depot.store.artifacts.entries.filter fun e => !decide (Belongs b.file e.1) := by
    rw [hkept]
    show (List.foldl Keyed.erase _ _).entries = _
    rw [Keyed.entries_foldl_erase]
    refine List.filter_congr fun e he => ?_
    have hkey : e.1 ∈ u.depot.store.names := List.mem_map_of_mem he
    simp [hown e.1 hkey]
  have hfresh : ∀ a ∈ b.components, a.name ∉ kept.store.artifacts.entries.map Prod.fst := by
    intro a ha hmem
    obtain ⟨e, he, heq⟩ := List.mem_map.1 hmem
    rw [hleft] at he
    have hnot := (List.mem_filter.1 he).2
    rw [heq] at hnot
    have hbelongs : Belongs b.file a.name := belongs_of_mem_names (List.mem_map_of_mem ha)
    simp [hbelongs] at hnot
  have happend := Keyed.foldl_put_append Artifact.name id hfresh []
  rw [List.append_nil] at happend
  rw [hstore, renew, ← hleft]
  exact happend

theorem belongs_of_mem_entries {e : String × Artifact} (h : e ∈ b.entries) :
    Belongs b.file e.1 := by
  have hkey : e.1 ∈ Keyed.keys (b.components.foldl (fun m a => m.put a.name a)
      ({} : Keyed String Artifact)) := List.mem_map_of_mem h
  obtain ⟨a, ha⟩ := Keyed.mem_keys.1 hkey
  have hget := Keyed.get?_foldl_put Artifact.name id b.components ({} : Keyed String Artifact) e.1
  simp only [id] at hget
  rw [hget, Keyed.get?_empty, Option.or_none, Option.map_eq_some_iff] at ha
  obtain ⟨last, hlast, -⟩ := ha
  have hname : last.name = e.1 := by simpa using List.find?_some hlast
  rw [← hname]
  exact belongs_of_mem_names
    (List.mem_map_of_mem (List.mem_reverse.1 (List.mem_of_find?_eq_some hlast)))

end Build

end Site

end DemoPages
