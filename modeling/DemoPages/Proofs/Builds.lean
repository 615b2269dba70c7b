import DemoPages.Proofs.Order
import DemoPages.Proofs.Repeats
import DemoPages.Proofs.Runs
import DemoPages.Proofs.Traces

/-!
# What a page is built from

A page that is built and written is built from its blocks, its columns and the places of its
components (`page_built`). What it leaves (`Build.Done.settled`) is all it takes to build it again:
then its components are removed, written again at the same places, and the page is written over
itself, which comes to nothing (`Build.Settled.rebuild`).
-/

namespace DemoPages

open Effect FrontMatter

theorem Place.toString_ne_empty (p : Place) : p.toString ≠ "" := by
  intro h
  have hlist := congrArg String.toList h
  simp [Place.toString] at hlist

namespace Site

/-- The blocks that a pass leaves, in a layout of some columns. -/
def laidOut (e : Extractor) (here : Place) (blocks : List Node) (columns : Nat) : List Node :=
  Layout.columns (.markup (preamble (e.components here (strip blocks))) ::
    e.rewrite [] (strip blocks)) columns e.options.layout

/-- How a pass ends well. -/
theorem extract_ok {e : Extractor} (hfile : e.file ≠ "") {blocks blocks' : List Node}
    {st st' : State} :
    extract e blocks st = .ok blocks' st' ↔ ∃ columns kept registered,
      Pass.Ready e ((visit e blocks).start st.shared) columns ∧
      Depot.removeBy .sound (st.registry.get e.file) st.depot = .ok () kept ∧
      Depot.registerBy .sound (e.components st.depot.disk.here (strip blocks)) kept =
        .ok () registered ∧
      blocks' = laidOut e st.depot.disk.here blocks columns ∧
      st' = ⟨(st.registry.set e.file ((e.components st.depot.disk.here (strip blocks)).map
        Artifact.name)).free e.file, registered⟩ := by
  have ending := Pass.run_ending st.depot.disk.here .depot e ((visit e blocks).start st.shared)
  cases hrun : (visit e blocks).run st.depot.disk.here .depot st.shared with
  | error f t =>
    change Pass.run _ _ e _ = _ at hrun
    rw [hrun] at ending
    rw [extract_of_error hrun]
    refine iff_of_false (fun h => by cases h) ?_
    rintro ⟨columns, kept, registered, ready, removes, registers, -, -⟩
    cases ending with
    | columns unread => cases ready.read.symm.trans unread
    | unnamed read file => exact hfile file
    | highlighter read gives =>
      obtain ⟨text, shows⟩ := ready.shows _ _ gives.nth
      cases shows.symm.trans gives.fails
    | remove ready' removes' => cases removes.symm.trans removes'
    | register ready' removes' registers' =>
      obtain ⟨-, rfl⟩ := EStateM.Result.ok.inj (removes.symm.trans removes')
      cases registers.symm.trans registers'
  | ok _ t =>
    change Pass.run _ _ e _ = _ at hrun
    rw [hrun] at ending
    rw [extract_of_ok hrun]
    cases ending with
    | @done columns kept registered ready removes registers =>
      constructor
      · intro h
        cases h
        exact ⟨columns, kept, registered, ready, removes, registers, rfl, rfl⟩
      · rintro ⟨columns', kept', registered', ready', removes', registers', rfl, rfl⟩
        obtain ⟨-, rfl⟩ := EStateM.Result.ok.inj (removes.symm.trans removes')
        obtain ⟨-, rfl⟩ := EStateM.Result.ok.inj (registers.symm.trans registers')
        obtain rfl := Except.ok.inj (ready.read.symm.trans ready'.read)
        rfl

/-! ### Builds -/

/-- What a page is built from: its path, its blocks, the number of its columns, and the places of
its components. -/
structure Build (tools : Tools) (s : Settings) (root here : Place) where
  path : Path
  blocks : List Node
  columns : Nat
  places : List Place

namespace Build

variable {tools : Tools} {s : Settings} {root here : Place} (b : Build tools s root here)

/-- Where the page is read. -/
def source : Place := Place.resolve here b.path

/-- What the page is registered as. -/
def file : String := b.source.toString

/-- How demos are taken out of the page. -/
def extractor : Extractor := Site.extractor tools s root b.source

/-- The components of the page. -/
def components : List Artifact := b.extractor.components here (strip b.blocks)

/-- The names of the components. -/
def names : List String := b.components.map Artifact.name

/-- The components and where their files lie. -/
def files : List (Artifact × Place) := b.components.zip b.places

/-- Where the page is written, as a path. -/
def target : Path := written s root b.source

/-- Where the page is written. -/
def place : Place := base s here ++ b.source.drop root.length

/-- What is written. -/
def text : String := pageText (laidOut b.extractor here b.blocks b.columns)

/-- What the run tells of the page. -/
def result : Result := ⟨b.path, b.target, b.names⟩

/-- The page lies below the root, its components can be computed, and their places lie in the output
directory. -/
structure Valid : Prop where
  below : root <+: b.source
  ready : Pass.Ready b.extractor ({ blocks := b.blocks, kept := () } : Pass.State Unit) b.columns
  targets : Store.targets here (.ofString s.output) b.components = .ok b.places

/-- The page is built, from one state to another. -/
structure Done (st st' : State) : Prop where
  valid : b.Valid
  read : Page.read tools.reader b.source.toPath s.dialect st.depot.disk = .ok b.blocks
  steps : ∃ kept registered made disk,
    Depot.removeBy .sound (st.registry.get b.file) st.depot = .ok () kept ∧
    Depot.writeAll .sound b.files (kept.keep b.components) = .ok () registered ∧
    Disk.ensureDirectories b.target.parent registered.disk = .ok () made ∧
    Disk.writeText b.target b.text made = .ok () disk ∧
    st' = ⟨(st.registry.set b.file b.names).free b.file, { registered with disk }⟩

theorem file_ne_empty : b.file ≠ "" := Place.toString_ne_empty _

end Build

variable {tools : Tools} {s : Settings} {root here : Place} {st st' : State}

/-- A page that is built is built from something. -/
theorem page_built (hdots : ".." ∉ here) (hhere : st.depot.disk.here = here)
    (houtput : st.depot.store.output = some (.ofString s.output)) {p : Path} {r : Result} :
    page tools s root p st = .ok r st' ↔
      ∃ b : Build tools s root here, b.path = p ∧ r = b.result ∧ b.Done st st' := by
  subst hhere
  have hkept : ∀ {names kept}, Depot.removeBy .sound names st.depot = .ok () kept →
      kept.disk.here = st.depot.disk.here ∧ kept.store.output = some (.ofString s.output) := by
    intro names kept hremove
    have hchange : Disk.Change (fun _ => True) (fun _ => True) st.depot.disk
        (final (Depot.removeBy .sound names st.depot)).disk :=
      Depot.change_removeBy names hdots fun _ _ _ _ _ _ _ _ => trivial
    rw [hremove, final_ok] at hchange
    rw [Depot.store_removeBy_ok hremove]
    exact ⟨hchange.here, houtput⟩
  rw [page_ok rfl]
  constructor
  · rintro ⟨hbelow, blocks, blocks', built, made, disk, hread, hextract, hmake, hwrite, rfl, rfl⟩
    have hfile : (Site.extractor tools s root (Place.resolve st.depot.disk.here p)).file ≠ "" :=
      Place.toString_ne_empty _
    obtain ⟨columns, kept, registered, ready, hremove, hregister, rfl, rfl⟩ :=
      (extract_ok hfile).1 hextract
    obtain ⟨hhere, hout⟩ := hkept hremove
    obtain ⟨places, htargets, hwriteAll⟩ := (Depot.registerBy_eq_ok hout).1 hregister
    rw [hhere] at htargets
    refine ⟨⟨p, blocks, columns, places⟩, rfl, ?_, ⟨hbelow, ⟨ready.read, ready.named, ready.shows⟩,
      htargets⟩, hread, kept, registered, made, disk, hremove, hwriteAll, hmake, hwrite, rfl⟩
    exact congrArg (Result.mk p _) (Registry.get_set_self _ _ _)
  · rintro ⟨b, rfl, rfl, valid, hread, kept, registered, made, disk, hremove, hwriteAll, hmake,
      hwrite, rfl⟩
    obtain ⟨hhere, hout⟩ := hkept hremove
    have hregister : Depot.registerBy .sound b.components kept = .ok () registered :=
      (Depot.registerBy_eq_ok hout).2 ⟨b.places, hhere.symm ▸ valid.targets, hwriteAll⟩
    have hextract : extract b.extractor b.blocks st = .ok
        (laidOut b.extractor st.depot.disk.here b.blocks b.columns)
        ⟨(st.registry.set b.file b.names).free b.file, registered⟩ :=
      (extract_ok b.file_ne_empty).2 ⟨b.columns, kept, registered,
        ⟨valid.ready.read, valid.ready.named, valid.ready.shows⟩, hremove, hregister, rfl, rfl⟩
    refine ⟨valid.below, b.blocks, _, _, made, disk, hread, hextract, hmake, hwrite, rfl, ?_⟩
    exact congrArg (Result.mk b.path _) (Registry.get_set_self _ _ _).symm

/-! ### What a build leaves -/

/-- A page that was read lies in a file that can be found. -/
theorem read_ok {reader : Markdown.Reader} {p : Place} {dialect : String} {d : Disk}
    {blocks : List Node} (hdots : ".." ∉ p) (h : Page.read reader p.toPath dialect d = .ok blocks) :
    d.Found p ∧ ∃ bytes, d.look? p = some (.file bytes) := by
  unfold Page.read Disk.readBytes at h
  cases hlocate : d.locate p.toPath with
  | error cause => simp [hlocate] at h
  | ok q =>
    obtain ⟨rfl, hfound⟩ := Disk.found_of_locate hdots hlocate
    refine ⟨hfound, ?_⟩
    cases hlook : d.look? q with
    | none => simp [hlocate, hlook] at h
    | some e =>
      cases e with
      | directory => simp [hlocate, hlook] at h
      | file bytes => exact ⟨bytes, rfl⟩

/-- A page whose file stays is read again. -/
theorem read_mono {reader : Markdown.Reader} {p : Place} {dialect : String} {d d' : Disk}
    {blocks : List Node} (hdots : ".." ∉ p)
    (hdirs : ∀ q, d.look? q = some .directory → d'.look? q = some .directory)
    (hlook : d'.look? p = d.look? p) (h : Page.read reader p.toPath dialect d = .ok blocks) :
    Page.read reader p.toPath dialect d' = .ok blocks := by
  obtain ⟨hfound, bytes, hbytes⟩ := read_ok hdots h
  have hfound' : d'.locate p.toPath = .ok p := hfound.mono hdirs
  have hfound : d.locate p.toPath = .ok p := hfound
  unfold Page.read Disk.readBytes at h ⊢
  simp only [hfound, hbytes] at h
  simp only [hfound', hlook, hbytes]
  exact h

namespace Build

variable (b : Build tools s root here) {u u' : State}

theorem dots_not_mem_source : ".." ∉ b.source := Place.dots_not_mem_settle _

/-- The state has what was built of the page: its names are recorded, the store has the last
component of each name, and the files of the components and of the page lie where they are written.
A file of a component holds the code that was written there last, unless the page came to lie
there. -/
structure Settled (u : State) : Prop where
  valid : b.Valid
  read : Page.read tools.reader b.source.toPath s.dialect u.depot.disk = .ok b.blocks
  recorded : u.registry.names.get? b.file = some b.names
  stored : ∀ name ∈ b.names,
    u.depot.store.get? name = b.components.reverse.find? fun a => a.name = name
  found : ∀ ap ∈ b.files, u.depot.disk.Found ap.2
  shelved : ∀ q ap, (b.files.reverse.find? fun ap => ap.2 = q) = some ap → q ≠ b.place →
    u.depot.disk.look? q = some (.file (Text.Percent.utf8 ap.1.code.toList))
  way : u.depot.disk.isDirectory b.target.parent = true
  located : u.depot.disk.locate b.target = .ok b.place
  written : u.depot.disk.look? b.place = some (.file (Text.Percent.utf8 b.text.toList))

variable {b}

theorem exists_find?_of_mem_files {ap : Artifact × Place} (h : ap ∈ b.files) :
    ∃ last, (b.files.reverse.find? fun ap' => ap'.2 = ap.2) = some last := by
  cases hfind : b.files.reverse.find? fun ap' => ap'.2 = ap.2 with
  | none => exact absurd (List.find?_eq_none.1 hfind ap (List.mem_reverse.2 h)) (by simp)
  | some last => exact ⟨last, rfl⟩

/-- Where a component lies, there is a file. -/
theorem Settled.exists_file (h : b.Settled u) {ap : Artifact × Place} (hap : ap ∈ b.files) :
    ∃ bytes, u.depot.disk.look? ap.2 = some (.file bytes) := by
  by_cases hplace : ap.2 = b.place
  · exact ⟨_, hplace ▸ h.written⟩
  · obtain ⟨last, hlast⟩ := exists_find?_of_mem_files hap
    exact ⟨_, h.shelved _ _ hlast hplace⟩

/-- What was built of a page stays while its entry, its components and its files stay. -/
theorem Settled.mono (h : b.Settled u) (hhere : u'.depot.disk.here = u.depot.disk.here)
    (hdirs : ∀ q, u.depot.disk.look? q = some .directory → u'.depot.disk.look? q = some .directory)
    (hlook : ∀ q, q = b.source ∨ q = b.place ∨ (∃ ap ∈ b.files, ap.2 = q) →
      u'.depot.disk.look? q = u.depot.disk.look? q)
    (hstored : ∀ name ∈ b.names, u'.depot.store.get? name = u.depot.store.get? name)
    (hrecorded : u'.registry.names.get? b.file = u.registry.names.get? b.file) : b.Settled u' where
  valid := h.valid
  read := read_mono b.dots_not_mem_source hdirs (hlook _ (Or.inl rfl)) h.read
  recorded := hrecorded.trans h.recorded
  stored name hname := (hstored name hname).trans (h.stored name hname)
  found ap hap := (h.found ap hap).mono hdirs
  shelved q ap hfind hq := by
    have hap := List.mem_reverse.1 (List.mem_of_find?_eq_some hfind)
    have hplace : ap.2 = q := by simpa using List.find?_some hfind
    rw [hlook q (Or.inr (Or.inr ⟨ap, hap, hplace⟩))]
    exact h.shelved q ap hfind hq
  way := Disk.isDirectory_mono hhere hdirs h.way
  located := Disk.locate_mono hhere hdirs h.located
  written := (hlook _ (Or.inr (Or.inl rfl))).trans h.written

/-- The places of valid components, which lie in the output directory. -/
theorem Valid.target (valid : b.Valid) {ap : Artifact × Place} (hap : ap ∈ b.files) :
    ap.1 ∈ b.components ∧ Store.target here (.ofString s.output) ap.1 = .ok ap.2 := by
  obtain ⟨hmap, htarget⟩ := Store.targets_ok valid.targets
  refine ⟨?_, htarget ap hap⟩
  rw [← hmap]
  exact List.mem_map_of_mem hap

theorem Valid.dots_not_mem (valid : b.Valid) {ap : Artifact × Place} (hap : ap ∈ b.files) :
    ".." ∉ ap.2 := Store.dots_not_mem_target (valid.target hap).2

/-- The store after a build: without the components recorded before, and with the new ones. -/
theorem Done.store (h : b.Done st st') : ∃ kept : Depot,
    kept.store = st.depot.store.without (st.registry.get b.file) ∧
      st'.depot.store = (kept.keep b.components).store := by
  obtain ⟨kept, registered, made, disk, hremove, hwriteAll, hmake, hwrite, rfl⟩ := h.steps
  have hstore := Depot.store_writeAll .sound b.files (kept.keep b.components)
  rw [hwriteAll, final_ok] at hstore
  exact ⟨kept, Depot.store_removeBy_ok hremove, hstore⟩

/-- After a build, the state has what was built, if the page is not overwritten. -/
theorem Done.settled (h : b.Done st st') (hdots : ".." ∉ here) (hhere : st'.depot.disk.here = here)
    (hdirs : ∀ q, st.depot.disk.look? q = some .directory →
      st'.depot.disk.look? q = some .directory)
    (hsource : st'.depot.disk.look? b.source = st.depot.disk.look? b.source) : b.Settled st' := by
  obtain ⟨kept', hkept', hstore⟩ := h.store
  obtain ⟨kept, registered, made, disk, hremove, hwriteAll, hmake, hwrite, rfl⟩ := h.steps
  have hdotsAll : ∀ ap ∈ b.files, ".." ∉ ap.2 := fun ap => h.valid.dots_not_mem
  obtain ⟨q, hlocate, hentry, rfl⟩ := Disk.writeText_eq_ok.1 hwrite
  -- What is written goes to the place of the page.
  have hmadeHere : made.here = here := hhere
  have hq : q = b.place := by
    rw [Disk.locate_ok (hmadeHere ▸ hdots) hlocate, hmadeHere]
    exact resolve_written here b.dots_not_mem_source
  subst hq
  have hne : b.place ≠ [] := by
    rintro hnil
    rw [hnil] at hentry
    exact hentry (Disk.look?_nil made)
  have hset := Disk.directories_set hentry (.file (Text.Percent.utf8 b.text.toList))
  have hframe : Disk.Frame (fun _ => False) registered.disk
      (final (Disk.ensureDirectories b.target.parent registered.disk)) :=
    Disk.frame_ensureDirectories b.target.parent registered.disk
  rw [hmake, final_ok] at hframe
  refine ⟨h.valid, read_mono b.dots_not_mem_source hdirs hsource h.read,
    Keyed.get?_put_self _ _ _, fun name hname => ?_, fun ap hap => ?_, fun q ap hfind hq => ?_,
    Disk.isDirectory_mono (d := made) rfl hset (Disk.isDirectory_of_ensureDirectories hmake),
    Disk.locate_mono (d := made) rfl hset hlocate, Disk.look?_set_self made hne _⟩
  · obtain ⟨a, ha, rfl⟩ := List.mem_map.1 hname
    obtain ⟨last, -, -, hfind, hget⟩ := Depot.get?_keep_of_mem (d := kept') ha
    rw [hstore, hget, hfind]
  · exact ((Depot.found_of_writeAll hdotsAll hwriteAll ap hap).mono hframe.directories).mono hset
  · have hbytes := Depot.bytes?_writeAll Disk.Device.orderly_sound hdotsAll hwriteAll hfind
    rw [← hframe.others q fun h => h] at hbytes
    exact (Disk.look?_set_of_ne made hq _).trans (Disk.bytes?_eq_some.1 hbytes)

end Build

/-! ### Building again -/

/-- The states hold the same entries and components, and the same lies on their disks. -/
structure State.Same (u u' : State) : Prop where
  here : u'.depot.disk.here = u.depot.disk.here
  look : ∀ q, u'.depot.disk.look? q = u.depot.disk.look? q
  output : u'.depot.store.output = u.depot.store.output
  stored : ∀ name, u'.depot.store.get? name = u.depot.store.get? name
  names : u'.registry.names = u.registry.names

namespace State.Same

variable {u u' u'' : State}

theorem refl (u : State) : u.Same u := ⟨rfl, fun _ => rfl, rfl, fun _ => rfl, rfl⟩

theorem trans (h : u.Same u') (h' : u'.Same u'') : u.Same u'' where
  here := h'.here.trans h.here
  look q := (h'.look q).trans (h.look q)
  output := h'.output.trans h.output
  stored name := (h'.stored name).trans (h.stored name)
  names := h'.names.trans h.names

theorem settled (h : u.Same u') {b : Build tools s root here} (hb : b.Settled u) : b.Settled u' :=
  hb.mono h.here (fun q hq => (h.look q).trans hq) (fun q _ => h.look q)
    (fun name _ => h.stored name) (by rw [h.names])

end State.Same

namespace Build

variable {b : Build tools s root here} {u : State}

/-- Where the files of the components lie. -/
def IsShelf (b : Build tools s root here) (q : Place) : Prop := ∃ ap ∈ b.files, ap.2 = q

/-- Without the components, only their files are gone. -/
structure Cleared (b : Build tools s root here) (u : State) (disk : Disk) : Prop where
  change : Disk.Change b.IsShelf (fun _ => False) u.depot.disk disk
  noDirectory : ∀ q, u.depot.disk.look? q ≠ some .directory → disk.look? q ≠ some .directory

theorem Settled.not_directory (h : b.Settled u) {ap : Artifact × Place} (hap : ap ∈ b.files) :
    u.depot.disk.look? ap.2 ≠ some .directory := by
  obtain ⟨bytes, hbytes⟩ := h.exists_file hap
  simp [hbytes]

theorem Settled.place_not_directory (h : b.Settled u) :
    u.depot.disk.look? b.place ≠ some .directory := by
  simp [h.written]

/-- What was built of a page can be removed. -/
theorem Settled.remove (h : b.Settled u) (hdots : ".." ∉ here) (hhere : u.depot.disk.here = here)
    (houtput : u.depot.store.output = some (.ofString s.output)) :
    ∃ kept, Depot.removeBy .sound b.names u.depot = .ok () kept ∧ b.Cleared u kept.disk := by
  subst hhere
  have hfile : ∀ name ∈ b.names, ∀ a, u.depot.store.get? name = some a →
      ∃ ap ∈ b.files, ap.1 = a := by
    intro name hname a ha
    rw [h.stored name hname] at ha
    have hmem := List.mem_reverse.1 (List.mem_of_find?_eq_some ha)
    rw [← (Store.targets_ok h.valid.targets).1] at hmem
    obtain ⟨ap, hap, rfl⟩ := List.mem_map.1 hmem
    exact ⟨ap, hap, rfl⟩
  obtain ⟨kept, hremove, hstill⟩ : ∃ kept, Depot.removeBy .sound b.names u.depot = .ok () kept ∧
      ∀ q, u.depot.disk.look? q ≠ some .directory → kept.disk.look? q ≠ some .directory := by
    refine Depot.removeBy_ok houtput fun name hname a ha => ?_
    obtain ⟨ap, hap, rfl⟩ := hfile name hname a ha
    exact ⟨ap.2, (h.valid.target hap).2, h.found ap hap, h.not_directory hap⟩
  have hchange : Disk.Change b.IsShelf (fun _ => False) u.depot.disk
      (final (Depot.removeBy .sound b.names u.depot)).disk := by
    refine Depot.change_removeBy b.names hdots fun name hname a ha output hout q hq => ?_
    obtain ⟨ap, hap, rfl⟩ := hfile name hname a ha
    rw [houtput, Option.some_inj] at hout
    subst hout
    rw [(h.valid.target hap).2] at hq
    exact ⟨ap, hap, Except.ok.inj hq⟩
  rw [hremove, final_ok] at hchange
  exact ⟨kept, hremove, hchange, hstill⟩

/-- What lies at a place once the components are written again. -/
theorem Cleared.look?_shelve {disk : Disk} (h : b.Cleared u disk) {q : Place} (hq : q ≠ []) :
    (∃ ap, (b.files.reverse.find? fun ap => ap.2 = q) = some ap ∧
      (Depot.shelve disk b.files).look? q = some (.file (Text.Percent.utf8 ap.1.code.toList))) ∨
    (Depot.shelve disk b.files).look? q = disk.look? q ∧ disk.look? q = u.depot.disk.look? q := by
  rw [Depot.look?_shelve disk b.files hq]
  cases hfind : b.files.reverse.find? fun ap => ap.2 = q with
  | some ap => exact Or.inl ⟨ap, rfl, rfl⟩
  | none =>
    refine Or.inr ⟨rfl, ?_⟩
    rcases h.change.look q with hsame | ⟨ap, hap, hplace⟩ | ⟨hmade, -⟩
    · exact hsame
    · exact absurd (List.find?_eq_none.1 hfind ap (List.mem_reverse.2 hap)) (by simpa using hplace)
    · exact hmade.elim

/-- Once the components are written again, all but the page is as it was. -/
theorem Settled.look?_shelve (h : b.Settled u) {disk : Disk} (cleared : b.Cleared u disk)
    {q : Place} (hq : q ≠ b.place) :
    (Depot.shelve disk b.files).look? q = u.depot.disk.look? q := by
  by_cases hnil : q = []
  · rw [hnil, Disk.look?_nil, Disk.look?_nil]
  · rcases cleared.look?_shelve hnil with ⟨ap, hfind, hnew⟩ | ⟨hnew, hold⟩
    · rw [hnew, h.shelved q ap hfind hq]
    · rw [hnew, hold]

/-- **What was built of a page can be built again**, and nothing changes. -/
theorem Settled.rebuild (h : b.Settled u) (hdots : ".." ∉ here) (hhere : u.depot.disk.here = here)
    (houtput : u.depot.store.output = some (.ofString s.output)) :
    ∃ u', b.Done u u' ∧ u.Same u' := by
  have hget : u.registry.get b.file = b.names := by
    rw [Registry.get, h.recorded]
    rfl
  obtain ⟨kept, hremove, cleared⟩ := h.remove hdots hhere houtput
  have hstore := Depot.store_removeBy_ok hremove
  have hdirs := cleared.change.directories
  have hwriteAll : Depot.writeAll .sound b.files (kept.keep b.components) = .ok ()
      { kept.keep b.components with disk := Depot.shelve kept.disk b.files } :=
    Depot.writeAll_ok fun ap hap =>
      ⟨(h.found ap hap).mono hdirs, cleared.noDirectory _ (h.not_directory hap)⟩
  have hshelved : (Depot.shelve kept.disk b.files).here = u.depot.disk.here :=
    (Depot.here_shelve _ _).trans cleared.change.here
  have hne : b.place ≠ [] := by
    intro hnil
    exact h.place_not_directory (hnil ▸ Disk.look?_nil _)
  have hplace : (Depot.shelve kept.disk b.files).look? b.place ≠ some .directory := by
    rcases cleared.look?_shelve hne with ⟨ap, -, hnew⟩ | ⟨hnew, hold⟩
    · simp [hnew]
    · rw [hnew, hold]
      exact h.place_not_directory
  have hdirs' : ∀ q, u.depot.disk.look? q = some .directory →
      (Depot.shelve kept.disk b.files).look? q = some .directory := by
    intro q hq
    rw [h.look?_shelve cleared, hq]
    rintro rfl
    exact h.place_not_directory hq
  refine ⟨_, ⟨h.valid, h.read, kept, _, _, _, hget ▸ hremove, hwriteAll,
    Disk.ensureDirectories_of_isDirectory (Disk.isDirectory_mono hshelved hdirs' h.way),
    Disk.writeText_eq_ok.2 ⟨b.place, Disk.locate_mono hshelved hdirs' h.located, hplace, rfl⟩, rfl⟩,
    hshelved, fun q => ?_, ?_, fun name => ?_, Keyed.put_of_get? h.recorded⟩
  · by_cases hq : q = b.place
    · subst hq
      rw [h.written]
      exact Disk.look?_set_self _ hne _
    · exact (Disk.look?_set_of_ne _ hq _).trans (h.look?_shelve cleared hq)
  · show kept.store.output = u.depot.store.output
    rw [hstore]
    rfl
  · show (kept.keep b.components).store.get? name = u.depot.store.get? name
    by_cases hname : name ∈ b.names
    · obtain ⟨a, ha, rfl⟩ := List.mem_map.1 hname
      obtain ⟨last, -, -, hfind, hkeep⟩ := Depot.get?_keep_of_mem (d := kept) ha
      rw [hkeep, h.stored _ hname, hfind]
    · rw [Depot.get?_keep_of_not_mem hname, hstore, Store.get?_without, if_neg hname]

end Build

end Site

end DemoPages
