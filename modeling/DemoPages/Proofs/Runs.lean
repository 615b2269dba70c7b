import DemoPages.Proofs.Changes
import DemoPages.Proofs.Outputs

/-!
# What a run changes

A run builds its pages one after the other: `page_ok` and `run_ok` take a run that ends well apart
into its steps. A page changes the files of its old and new components and the file it is written to
(`change_page`), so a run changes nothing but what lies in the output directories, of the settings
and of the store, and on the way there (`change_run`).
-/

namespace DemoPages

open Effect

/-- A path that is not absolute, read from another one, leads on from there. -/
theorem Place.resolve_join_of_here (here : Place) (p : Path) {q : Path} (h : q.anchor = .here) :
    Place.resolve here (p.join q) = Place.settle (Place.resolve here p ++ q.segments) := by
  rw [Path.join, if_pos h]
  show Place.settle (_ ++ (p.segments ++ q.segments)) = _
  rw [← List.append_assoc, Place.settle_append]
  rfl

/-- A way without double dots leads straight on from where a path leads. -/
theorem Place.resolve_join (here : Place) (p : Path) {way : List String} (hdots : ".." ∉ way) :
    Place.resolve here (p.join ⟨.here, way⟩) = Place.resolve here p ++ way := by
  have hrest : ".." ∉ Place.resolve here p ++ way := by
    rw [List.mem_append, not_or]
    exact ⟨Place.dots_not_mem_settle _, hdots⟩
  rw [Place.resolve_join_of_here here p rfl, Place.settle_of_not_mem hrest]

namespace Site

/-- What the passes of a run share. -/
def State.shared (st : State) : Shared Depot := ⟨st.registry, st.depot⟩

/-- The pass over the blocks of a page. -/
def visit (e : Extractor) (blocks : List Node) : Visit := { extractor := e, blocks }

section Extract

variable {e : Extractor} {blocks : List Node} {st : State} {t : Pass.State Depot}

theorem extract_of_ok (h : (visit e blocks).run st.depot.disk.here .depot st.shared = .ok () t) :
    extract e blocks st = .ok t.blocks { registry := t.registry, depot := t.kept } := by
  change Pass.run st.depot.disk.here .depot e
    { blocks, registry := st.registry, kept := st.depot } = _ at h
  rw [extract, h]

theorem extract_of_error {f : Fault}
    (h : (visit e blocks).run st.depot.disk.here .depot st.shared = .error f t) :
    extract e blocks st = .error f { registry := t.registry, depot := t.kept } := by
  change Pass.run st.depot.disk.here .depot e
    { blocks, registry := st.registry, kept := st.depot } = _ at h
  rw [extract, h]

end Extract

/-- What a run works on after a pass is what the pass leaves, however it ends. -/
theorem final_extract (e : Extractor) (blocks : List Node) (st : State) :
    (final (extract e blocks st)).shared =
      (visit e blocks).after st.depot.disk.here .depot st.shared := by
  rw [Visit.after]
  cases h : (visit e blocks).run st.depot.disk.here .depot st.shared with
  | ok _ t =>
    rw [extract_of_ok h]
    rfl
  | error f t =>
    rw [extract_of_error h]
    rfl

theorem onDisk_ok {α : Type} {act : Disk.Action α} {a : α} {st st' : State} :
    onDisk act st = .ok a st' ↔
      ∃ disk, act st.depot.disk = .ok a disk ∧
        st' = { st with depot := { st.depot with disk } } := by
  unfold onDisk Depot.onDisk
  cases h : act st.depot.disk with
  | ok b disk =>
    refine ⟨fun h' => ?_, fun ⟨disk', h', hst⟩ => ?_⟩
    · cases h'
      exact ⟨disk, rfl, rfl⟩
    · cases h'
      rw [hst]
  | error f disk => simp

/-- Where a page is written. -/
def written (s : Settings) (root source : Place) : Path :=
  (Path.ofString s.output).join ⟨.here, source.drop root.length⟩

/-- How a page is built and written, if it is. -/
theorem page_ok {s : Settings} {root source : Place} {p : Path} {st st' : State} {r : Result}
    (hsource : Place.resolve st.depot.disk.here p = source) :
    page tools s root p st = .ok r st' ↔
      root <+: source ∧ ∃ blocks blocks' built made disk,
        Page.read tools.reader source.toPath s.dialect st.depot.disk = .ok blocks ∧
        extract (extractor tools s root source) blocks st = .ok blocks' built ∧
        Disk.ensureDirectories (written s root source).parent built.depot.disk = .ok () made ∧
        Disk.writeText (written s root source) (pageText blocks') made = .ok () disk ∧
        st' = { built with depot := { built.depot with disk } } ∧
        r = ⟨p, written s root source, built.registry.get source.toString⟩ := by
  unfold page
  rw [get_bind]
  simp only [hsource]
  by_cases hroot : root <+: source
  · rw [if_pos (List.isPrefixOf_iff_prefix.2 hroot)]
    simp only [hroot, true_and]
    constructor
    · intro h
      obtain ⟨blocks, u, hstep, h⟩ := bind_ok.1 h
      obtain ⟨hread, rfl⟩ := ofExcept_ok.1 hstep
      obtain ⟨blocks', built, hextract, h⟩ := bind_ok.1 h
      obtain ⟨_, u, hstep', h⟩ := bind_ok.1 h
      obtain ⟨made, hmake, rfl⟩ := onDisk_ok.1 hstep'
      obtain ⟨_, u, hstep'', h⟩ := bind_ok.1 h
      obtain ⟨disk, hwrite, rfl⟩ := onDisk_ok.1 hstep''
      rw [get_bind] at h
      cases h
      exact ⟨blocks, blocks', built, made, disk, hread, hextract, hmake, hwrite, rfl, rfl⟩
    · rintro ⟨blocks, blocks', built, made, disk, hread, hextract, hmake, hwrite, rfl, rfl⟩
      refine bind_ok.2 ⟨blocks, st, ofExcept_ok.2 ⟨hread, rfl⟩, ?_⟩
      refine bind_ok.2 ⟨blocks', built, hextract, ?_⟩
      refine bind_ok.2 ⟨(), _, onDisk_ok.2 ⟨made, hmake, rfl⟩, ?_⟩
      refine bind_ok.2 ⟨(), _, onDisk_ok.2 ⟨disk, hwrite, rfl⟩, ?_⟩
      rw [get_bind]
      rfl
  · rw [if_neg fun h => hroot (List.isPrefixOf_iff_prefix.1 h)]
    simp only [hroot, false_and, iff_false]
    exact fun h => by cases h

/-! ### What a page changes -/

section Page

variable {files made : Place → Prop} {tools : Tools} {s : Settings} {root source : Place} {p : Path}
  {st st' : State} {r : Result}

theorem output_extract (e : Extractor) (blocks : List Node) (st : State) :
    (final (extract e blocks st)).depot.store.output = st.depot.store.output := by
  have hshared := congrArg (fun s : Shared Depot => s.kept.store.output) (final_extract e blocks st)
  exact hshared.trans ((visit e blocks).output_after st.depot.disk.here .sound st.shared)

/-- A pass changes the files of the components that it removes and registers. -/
theorem change_extract (e : Extractor) (blocks : List Node) (hhere : ".." ∉ st.depot.disk.here)
    (hold : ∀ name ∈ st.registry.get e.file, ∀ a, st.depot.store.get? name = some a →
      ∀ output, st.depot.store.output = some output →
        ∀ q, Store.target st.depot.disk.here output a = .ok q → files q)
    (hnew : ∀ a, e.Made st.depot.disk.here a → ∀ output, st.depot.store.output = some output →
      ∀ q, Store.target st.depot.disk.here output a = .ok q → files q ∧ ∀ r, r <+: q → made r) :
    Disk.Change files made st.depot.disk (final (extract e blocks st)).depot.disk := by
  have hshared := congrArg (fun s : Shared Depot => s.kept.disk) (final_extract e blocks st)
  have hcases := (visit e blocks).after_cases st.depot.disk.here .depot st.shared
  have hremoval : Disk.Change files made st.depot.disk
      (final (Depot.removeBy .sound (st.registry.get e.file) st.depot)).disk :=
    Depot.change_removeBy _ hhere hold
  have hdisk : (final (extract e blocks st)).depot.disk =
    ((visit e blocks).after st.depot.disk.here .depot st.shared).kept.disk := hshared
  rw [hdisk]
  generalize (visit e blocks).after st.depot.disk.here .depot st.shared = after at hcases
  rcases hcases with ⟨hkept, -⟩ | ⟨f, hremove, -⟩ | ⟨kept, hremove, hkept, -⟩
  · rw [hkept]
    exact Disk.Change.refl _
  · have hremoved : Depot.removeBy .sound (st.registry.get e.file) st.depot = .error f after.kept :=
      hremove
    rwa [hremoved] at hremoval
  · have hremoved : Depot.removeBy .sound (st.registry.get e.file) st.depot = .ok () kept := hremove
    rw [hremoved, final_ok] at hremoval
    have hstore := Depot.store_removeBy_ok hremoved
    have hregister : after.kept = final (Depot.registerBy .sound
      ((visit e blocks).components st.depot.disk.here) kept) := hkept
    rw [hregister]
    refine hremoval.trans (Depot.change_registerBy _ (hremoval.not_mem_here hhere) ?_)
    intro a ha output houtput q hq
    rw [hstore] at houtput
    rw [hremoval.here] at hq
    have hmade : e.Made st.depot.disk.here a :=
      Extractor.made_of_mem_componentsFrom 0 (FrontMatter.strip blocks) ha
    exact hnew a hmade output houtput q hq

/-- The place of the output directory. -/
def base (s : Settings) (here : Place) : Place := Place.resolve here (.ofString s.output)

/-- Where the way to the output directory comes by, as it is written. -/
def station (s : Settings) (here : Place) (n : Nat) : Place :=
  Place.resolve here { Path.ofString s.output with
    segments := (Path.ofString s.output).segments.take n }

theorem resolve_written (here : Place) (hdots : ".." ∉ source) :
    Place.resolve here (written s root source) = base s here ++ source.drop root.length :=
  Place.resolve_join here _ fun hmem => hdots (List.mem_of_mem_drop hmem)

/-- The way to a page that is written comes by the stations of the output directory, and then leads
down from there. -/
theorem resolve_parent_written (here : Place) (hdots : ".." ∉ source) (n : Nat) :
    let parent := (written s root source).parent
    let place := Place.resolve here { parent with segments := parent.segments.take n }
    (∃ m, place = station s here m) ∨ place <+: base s here ++ source.drop root.length := by
  intro parent place
  obtain ⟨k, hk⟩ : ∃ k, parent.segments.take n =
      ((Path.ofString s.output).segments ++ source.drop root.length).take k := by
    refine ⟨min n (((Path.ofString s.output).segments ++ source.drop root.length).length - 1), ?_⟩
    rw [← List.take_take, ← List.dropLast_eq_take]
    rfl
  have hplace : place = Place.settle
      ((if (Path.ofString s.output).anchor = .here then here else []) ++
        parent.segments.take n) := rfl
  rw [hk, List.take_append] at hplace
  by_cases hshort : k ≤ (Path.ofString s.output).segments.length
  · left
    refine ⟨k, ?_⟩
    rw [hplace, Nat.sub_eq_zero_of_le hshort, List.take_zero, List.append_nil]
    rfl
  · right
    have hrest : ".." ∉ base s here ++
        (source.drop root.length).take (k - (Path.ofString s.output).segments.length) := by
      rw [List.mem_append, not_or]
      exact ⟨Place.dots_not_mem_settle _, fun hmem => hdots
        (List.mem_of_mem_drop (List.mem_of_mem_take hmem))⟩
    have hbase : place = Place.settle (base s here ++
        (source.drop root.length).take (k - (Path.ofString s.output).segments.length)) := by
      rw [hplace, List.take_of_length_le (by omega), ← List.append_assoc, Place.settle_append]
      rfl
    rw [hbase, Place.settle_of_not_mem hrest]
    exact (List.prefix_append_right_inj _).2 (List.take_prefix _ _)

/-- What building and writing a page changes. -/
theorem change_page (hsource : Place.resolve st.depot.disk.here p = source)
    (hhere : ".." ∉ st.depot.disk.here)
    (hold : ∀ name ∈ st.registry.get source.toString, ∀ a, st.depot.store.get? name = some a →
      ∀ output, st.depot.store.output = some output →
        ∀ q, Store.target st.depot.disk.here output a = .ok q → files q)
    (hnew : ∀ a, (extractor tools s root source).Made st.depot.disk.here a →
      ∀ output, st.depot.store.output = some output →
        ∀ q, Store.target st.depot.disk.here output a = .ok q → files q ∧ ∀ r, r <+: q → made r)
    (hfile : files (base s st.depot.disk.here ++ source.drop root.length))
    (hmade : ∀ q, q <+: base s st.depot.disk.here ++ source.drop root.length → made q)
    (hstations : ∀ n, made (station s st.depot.disk.here n))
    (h : page tools s root p st = .ok r st') :
    Disk.Change files made st.depot.disk st'.depot.disk ∧
      st'.depot.store.output = st.depot.store.output := by
  obtain ⟨hroot, blocks, blocks', built, made', disk, hread, hextract, hmake, hwrite, rfl, rfl⟩ :=
    (page_ok hsource).1 h
  have hdots : ".." ∉ source := hsource ▸ Place.dots_not_mem_settle _
  have hfirst := change_extract (extractor tools s root source) blocks hhere hold hnew
  have houtput := output_extract (extractor tools s root source) blocks st
  rw [hextract, final_ok] at hfirst houtput
  refine ⟨hfirst.trans ?_, houtput⟩
  have hhere' := hfirst.not_mem_here hhere
  have hmake' : Disk.Change files made built.depot.disk
      (final (Disk.ensureDirectories (written s root source).parent built.depot.disk)) := by
    refine Disk.change_ensureDirectories _ hhere' fun n => ?_
    rw [hfirst.here]
    rcases resolve_parent_written st.depot.disk.here hdots n with ⟨m, hm⟩ | hunder
    · rw [hm]
      exact hstations m
    · exact hmade _ hunder
  rw [hmake, final_ok] at hmake'
  have hwrite' : Disk.Change files made made'
      (final (Disk.writeText (written s root source) (pageText blocks') made')) := by
    refine Disk.change_writeText _ _ fun q hq => ?_
    rw [Disk.locate_ok (hmake'.not_mem_here hhere') hq, hmake'.here, hfirst.here,
      resolve_written _ hdots]
    exact hfile
  rw [hwrite, final_ok] at hwrite'
  exact hmake'.trans hwrite'

end Page

/-! ### What a run changes -/

section Run

variable {tools : Tools} {s : Settings} {root : Place} {path : String} {st st' : State}
  {rs : List Result}

theorem naming_ok {α : Type} {p : Path} {act : Action α} {a : α} :
    naming p act st = .ok a st' ↔ act st = .ok a st' := by
  unfold naming
  cases act st <;> simp

theorem pages_cons_ok {p : Path} {ps : List Path} :
    pages tools s root (p :: ps) st = .ok rs st' ↔
      ∃ r st₁ rs', page tools s root p st = .ok r st₁ ∧ pages tools s root ps st₁ = .ok rs' st' ∧
        rs = r :: rs' := by
  rw [pages, bind_ok]
  constructor
  · rintro ⟨r, st₁, hpage, h⟩
    obtain ⟨rs', st₂, hpages, h⟩ := bind_ok.1 h
    cases h
    exact ⟨r, st₁, rs', naming_ok.1 hpage, hpages, rfl⟩
  · rintro ⟨r, st₁, rs', hpage, hpages, rfl⟩
    exact ⟨r, st₁, naming_ok.2 hpage, bind_ok.2 ⟨rs', st', hpages, rfl⟩⟩

theorem run_ok :
    run tools s path st = .ok rs st' ↔ ∃ root, Site.root s st.depot.disk = .ok root ∧
      pages tools s root (discover st.depot.disk (.ofString path)) st = .ok rs st' := by
  unfold run
  rw [get_bind, bind_ok]
  constructor
  · rintro ⟨root, u, hstep, hpages⟩
    obtain ⟨hroot, rfl⟩ := ofExcept_ok.1 hstep
    exact ⟨root, hroot, hpages⟩
  · rintro ⟨root, hroot, hpages⟩
    exact ⟨root, st, ofExcept_ok.2 ⟨hroot, rfl⟩, hpages⟩

/-- May a run write here? It may in the output directory of its settings, and in that of the
store. -/
def Reaches (s : Settings) (here : Place) (output : Option Path) (q : Place) : Prop :=
  base s here <+: q ∨ ∃ dir, output = some dir ∧ Place.resolve here dir <+: q

/-- May a run make a directory here? It may on the way to a place where it may write. -/
def Paves (s : Settings) (here : Place) (output : Option Path) (q : Place) : Prop :=
  (∃ r, Reaches s here output r ∧ q <+: r) ∨ ∃ n, q = station s here n

theorem change_page_reaches {here : Place} {output : Option Path} {p : Path} {r : Result}
    (hdots : ".." ∉ here) (hhere : st.depot.disk.here = here)
    (houtput : st.depot.store.output = output) (h : page tools s root p st = .ok r st') :
    Disk.Change (Reaches s here output) (Paves s here output) st.depot.disk st'.depot.disk ∧
      st'.depot.store.output = output := by
  subst hhere houtput
  have htarget : ∀ a dir, st.depot.store.output = some dir → ∀ q,
      Store.target st.depot.disk.here dir a = .ok q →
        Reaches s st.depot.disk.here st.depot.store.output q := fun a dir hdir q hq =>
    Or.inr ⟨dir, hdir, (Store.target_ok hq).2⟩
  have hfile : ∀ rest, Reaches s st.depot.disk.here st.depot.store.output
      (base s st.depot.disk.here ++ rest) := fun rest => Or.inl (List.prefix_append _ _)
  refine change_page rfl hdots (fun _ _ a _ => htarget a) (fun a _ dir hdir q hq => ?_)
    (hfile _) (fun q hq => Or.inl ⟨_, hfile _, hq⟩) (fun n => Or.inr ⟨n, rfl⟩) h
  exact ⟨htarget a dir hdir q hq, fun r hr => Or.inl ⟨q, htarget a dir hdir q hq, hr⟩⟩

theorem change_pages {here : Place} {output : Option Path} {ps : List Path} (hdots : ".." ∉ here)
    (hhere : st.depot.disk.here = here) (houtput : st.depot.store.output = output)
    (h : pages tools s root ps st = .ok rs st') :
    Disk.Change (Reaches s here output) (Paves s here output) st.depot.disk st'.depot.disk := by
  induction ps generalizing st rs with
  | nil =>
    cases h
    exact Disk.Change.refl _
  | cons p ps ih =>
    obtain ⟨r, st₁, rs', hpage, hpages, rfl⟩ := pages_cons_ok.1 h
    obtain ⟨hfirst, houtput'⟩ := change_page_reaches hdots hhere houtput hpage
    exact hfirst.trans (ih (hfirst.here.trans hhere) houtput' hpages)

/-- A run changes nothing but its output directories and what leads there. -/
theorem change_run (hdots : ".." ∉ st.depot.disk.here) (h : run tools s path st = .ok rs st') :
    Disk.Change (Reaches s st.depot.disk.here st.depot.store.output)
      (Paves s st.depot.disk.here st.depot.store.output) st.depot.disk st'.depot.disk := by
  obtain ⟨root, -, hpages⟩ := run_ok.1 h
  exact change_pages hdots rfl rfl hpages

end Run

end Site

end DemoPages
