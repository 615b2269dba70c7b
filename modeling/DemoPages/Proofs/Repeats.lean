import DemoPages.Proofs.Changes

/-!
# Operations that succeed

When an operation of the disk succeeds, and what it then leaves: a directory that is there is made
again without a change, a file that can be found is deleted or written. From these, removing and
registering components succeed where their files can be found (`Depot.removeBy_ok`,
`Depot.writeAll_ok`), and files that were written can be found (`Depot.found_of_writeAll`).
-/

namespace DemoPages

open Effect

namespace Disk

variable {d d' : Disk} {path : Path} {p q : Place}

/-! ### Ways -/

theorem walk_append {base : Place} {xs ys : List String} :
    d.walk base (xs ++ ys) = .ok q ↔ ∃ r, d.walk base xs = .ok r ∧ d.walk r ys = .ok q := by
  induction xs generalizing base with
  | nil => simp [walk]
  | cons x xs ih =>
    rw [List.cons_append, walk, walk]
    split
    · simp
    · simp
    · exact ih

/-- Only a directory leads on. -/
theorem look?_of_walk {base : Place} {segments : List String} (hne : segments ≠ [])
    (h : d.walk base segments = .ok q) : d.look? base = some .directory := by
  cases segments with
  | nil => exact absurd rfl hne
  | cons s rest =>
    rw [walk] at h
    split at h
    · cases h
    · cases h
    · assumption

/-- What a path leads on from is a directory. -/
theorem look?_of_locate_append (hhere : ".." ∉ d.here) {way : List String} (hne : way ≠ [])
    (h : d.locate { path with segments := path.segments ++ way } = .ok q) :
    d.look? (Place.resolve d.here path) = some .directory := by
  unfold locate at h
  split at h
  · cases h
  · obtain ⟨r, hr, hrest⟩ := walk_append.1 h
    have hplace : r = Place.resolve d.here path := walk_ok (by split <;> simp [hhere]) hr
    rw [← hplace]
    exact look?_of_walk hne hrest

theorem isDirectory_iff :
    d.isDirectory path = true ↔ ∃ q, d.locate path = .ok q ∧ d.look? q = some .directory := by
  unfold isDirectory find?
  cases hlocate : d.locate path with
  | error cause => simp
  | ok q =>
    cases hlook : d.look? q with
    | none => simp [hlook]
    | some e => cases e <;> simp [hlook]

theorem isDirectory_mono (hhere : d'.here = d.here)
    (h : ∀ p, d.look? p = some .directory → d'.look? p = some .directory)
    (hdir : d.isDirectory path = true) : d'.isDirectory path = true := by
  obtain ⟨q, hlocate, hlook⟩ := isDirectory_iff.1 hdir
  exact isDirectory_iff.2 ⟨q, locate_mono hhere h hlocate, h q hlook⟩

/-- All that lies above a place that can be found is a directory. -/
theorem Found.directory_of_prefix (hdots : ".." ∉ q) (hfound : d.Found q) (h : p <+: q)
    (hne : p ≠ q) : d.look? p = some .directory := by
  obtain ⟨rest, rfl⟩ := h
  have hrest : rest ≠ [] := by
    rintro rfl
    exact hne (List.append_nil p).symm
  unfold Found locate at hfound
  split at hfound
  · cases hfound
  · have hwalk : d.walk [] (p ++ rest) = .ok (p ++ rest) := hfound
    obtain ⟨r, hp, hr⟩ := walk_append.1 hwalk
    rw [walk_of_not_mem (fun hmem => hdots (List.mem_append_left _ hmem)) hp] at hr
    exact look?_of_walk hrest hr

theorem Found.isDirectory_dropLast (hfound : d.Found q) :
    d.isDirectory (Place.toPath q.dropLast) = true := by
  rcases List.eq_nil_or_concat q with rfl | ⟨xs, x, rfl⟩
  · exact isDirectory_iff.2 ⟨[], hfound, look?_nil d⟩
  · rw [List.concat_eq_append, List.dropLast_concat]
    rw [List.concat_eq_append] at hfound
    unfold Found locate at hfound
    split at hfound
    · cases hfound
    · rename_i hnull
      have hwalk : d.walk [] (xs ++ [x]) = .ok (xs ++ [x]) := hfound
      obtain ⟨r, hxs, hx⟩ := walk_append.1 hwalk
      refine isDirectory_iff.2 ⟨r, ?_, look?_of_walk (by simp) hx⟩
      unfold locate
      rw [if_neg fun h => hnull (List.any_eq_true.2 ?_)]
      · exact hxs
      · obtain ⟨s, hs, hnul⟩ := List.any_eq_true.1 h
        exact ⟨s, List.mem_append_left _ hs, hnul⟩

/-! ### Directories -/

/-- A directory that is there is not made again. -/
theorem ensureDirectory_of_isDirectory (h : d.isDirectory path = true) :
    ensureDirectory path d = .ok () d := by
  obtain ⟨q, hlocate, hlook⟩ := isDirectory_iff.1 h
  have hmake : makeDirectory path d = .error ⟨.present, path.toString⟩ d := by
    simp [makeDirectory, hlocate, hlook]
  simp [ensureDirectory, hmake, h]

theorem ensureDirectories_of_isDirectory (h : d.isDirectory path = true) :
    ensureDirectories path d = .ok () d := by
  unfold ensureDirectories
  cases hlength : path.segments.length with
  | zero =>
    have hpath : { path with segments := [] } = path := by
      rw [← List.eq_nil_of_length_eq_zero hlength]
    rw [ensureSegments, hpath]
    exact ensureDirectory_of_isDirectory h
  | succ n =>
    have hpath : { path with segments := path.segments.take (n + 1) } = path := by
      rw [← hlength, List.take_length]
    simp only [ensureSegments, hpath, ensureDirectory_of_isDirectory h]

theorem isDirectory_of_ensureDirectory (h : ensureDirectory path d = .ok () d') :
    d'.isDirectory path = true := by
  unfold ensureDirectory at h
  cases hmake : makeDirectory path d with
  | ok _ u =>
    rw [hmake] at h
    cases h
    have hframe : Frame (fun _ => False) d (final (makeDirectory path d)) :=
      frame_makeDirectory path d
    rw [hmake, final_ok] at hframe
    unfold makeDirectory at hmake
    split at hmake
    · cases hmake
    · rename_i q hlocate
      split at hmake
      · cases hmake
      · rename_i hnew
        have hne : q ≠ [] := by
          rintro rfl
          simp at hnew
        cases hmake
        exact isDirectory_iff.2 ⟨q, locate_mono (d := d) rfl hframe.directories hlocate,
          look?_set_self d hne _⟩
  | error f u =>
    rw [hmake] at h
    simp only at h
    split at h
    · rename_i hthere
      cases h
      exact hthere.2.2
    · cases h

/-- A directory that was made is there. -/
theorem isDirectory_of_ensureDirectories (h : ensureDirectories path d = .ok () d') :
    d'.isDirectory path = true := by
  unfold ensureDirectories at h
  cases hlength : path.segments.length with
  | zero =>
    have hpath : { path with segments := [] } = path := by
      rw [← List.eq_nil_of_length_eq_zero hlength]
    rw [hlength, ensureSegments, hpath] at h
    exact isDirectory_of_ensureDirectory h
  | succ n =>
    have hpath : { path with segments := path.segments.take (n + 1) } = path := by
      rw [← hlength, List.take_length]
    simp only [hlength, ensureSegments, hpath] at h
    cases hfirst : ensureDirectory path d with
    | ok _ u =>
      rw [hfirst] at h
      cases h
      exact isDirectory_of_ensureDirectory hfirst
    | error f u =>
      simp only [hfirst] at h
      split at h
      · obtain ⟨_, v, -, hlast⟩ := bind_ok.1 h
        exact isDirectory_of_ensureDirectory hlast
      · cases h

/-! ### Files -/

theorem writeText_eq_ok {text : String} :
    writeText path text d = .ok () d' ↔ ∃ q, d.locate path = .ok q ∧ d.look? q ≠ some .directory ∧
      d' = d.set q (.file (Text.Percent.utf8 text.toList)) := by
  unfold writeText writeBytes
  cases hlocate : d.locate path with
  | error cause => simp
  | ok q =>
    by_cases hdir : d.look? q = some .directory
    · simp [hdir]
    · simp [hdir, @eq_comm _ d']

theorem deleteFile_ok (hfound : d.Found q) (hentry : d.look? q ≠ some .directory) :
    ∃ d', deleteFile (Place.toPath q) d = .ok () d' := by
  have hlocate : d.locate (Place.toPath q) = .ok q := hfound
  unfold deleteFile
  rw [hlocate]
  cases hlook : d.look? q with
  | none => exact ⟨d, by simp [hlook]⟩
  | some e =>
    cases e with
    | directory => exact absurd hlook hentry
    | file bytes => exact ⟨d.clear q, by simp [hlook]⟩

/-- Where a file was deleted, nothing is left. -/
theorem look?_deleteFile (path : Path) (d : Disk) (p : Place) :
    (final (deleteFile path d)).look? p = d.look? p ∨
      (final (deleteFile path d)).look? p = none := by
  unfold deleteFile
  split
  · exact Or.inl rfl
  · exact Or.inl rfl
  · rename_i q _
    split
    · exact Or.inl rfl
    · exact Or.inl rfl
    · rename_i hentry
      have hne : q ≠ [] := by
        rintro rfl
        cases hentry
      by_cases hp : p = q
      · subst hp
        exact Or.inr (look?_clear_self d hne)
      · exact Or.inl (look?_clear_of_ne d hp)

theorem directories_set (hq : d.look? q ≠ some .directory) (e : Entry) :
    ∀ p, d.look? p = some .directory → (d.set q e).look? p = some .directory := by
  intro p hp
  have hne : p ≠ q := by
    rintro rfl
    exact hq hp
  rw [look?_set_of_ne d hne, hp]

end Disk

/-! ### Components -/

namespace Depot

variable {d d' : Depot} {output : Path}

theorem onDisk_of_ok {act : Disk.Action Unit} {disk : Disk} (h : act d.disk = .ok () disk) :
    onDisk act d = .ok () { d with disk } := by
  unfold onDisk
  rw [h]

/-- The files of some components can be found, and are no directories. -/
def Placed (output : Path) (names : List String) (d : Depot) : Prop :=
  ∀ name ∈ names, ∀ a, d.store.get? name = some a → ∃ q, Store.target d.disk.here output a = .ok q ∧
    d.disk.Found q ∧ d.disk.look? q ≠ some .directory

/-- Components whose files can be found are removed, and no directory comes about. -/
theorem removeBy_ok (houtput : d.store.output = some output) {names : List String}
    (placed : Placed output names d) :
    ∃ d', removeBy .sound names d = .ok () d' ∧
      ∀ q, d.disk.look? q ≠ some .directory → d'.disk.look? q ≠ some .directory := by
  induction names generalizing d with
  | nil => exact ⟨d, rfl, fun _ h => h⟩
  | cons name names ih =>
    have hstore := store_removeOne .sound name d
    obtain ⟨u, hone, hhere, hdirs, hlook⟩ : ∃ u, removeOne .sound name d = .ok () u ∧
        u.disk.here = d.disk.here ∧
        (∀ q, d.disk.look? q = some .directory → u.disk.look? q = some .directory) ∧
        ∀ q, u.disk.look? q = d.disk.look? q ∨ u.disk.look? q = none := by
      unfold removeOne
      cases hget : d.store.get? name with
      | none => exact ⟨d, rfl, rfl, fun _ h => h, fun _ => Or.inl rfl⟩
      | some a =>
        obtain ⟨q, htarget, hfound, hentry⟩ := placed name List.mem_cons_self a hget
        obtain ⟨disk, hdelete⟩ := Disk.deleteFile_ok hfound hentry
        have hframe := Disk.frame_deleteFile (Store.dots_not_mem_target htarget) d.disk
        have hlook := Disk.look?_deleteFile (Place.toPath q) d.disk
        rw [hdelete] at hframe hlook
        simp only [houtput, htarget]
        exact ⟨_, onDisk_of_ok (d := d.forget name) hdelete, hframe.here, hframe.directories, hlook⟩
    rw [hone, final_ok] at hstore
    have hentry : ∀ q, d.disk.look? q ≠ some .directory → u.disk.look? q ≠ some .directory := by
      intro q hq
      rcases hlook q with h | h
      · rwa [h]
      · simp [h]
    have placed' : Placed output names u := by
      intro name' hname' a ha
      rw [hstore, Store.get?_without] at ha
      split at ha
      · cases ha
      · obtain ⟨q, htarget, hfound, hq⟩ := placed name' (List.mem_cons_of_mem _ hname') a ha
        exact ⟨q, hhere ▸ htarget, hfound.mono hdirs, hentry q hq⟩
    obtain ⟨d', hrest, hlast⟩ := ih (by rw [hstore]; exact houtput) placed'
    exact ⟨d', (bind_of_ok hone _).trans hrest, fun q hq => hlast q (hentry q hq)⟩

/-- Components are registered if their files lie in the output directory and are written. -/
theorem registerBy_eq_ok (houtput : d.store.output = some output) {artifacts : List Artifact} :
    registerBy .sound artifacts d = .ok () d' ↔ ∃ places,
      Store.targets d.disk.here output artifacts = .ok places ∧
      writeAll .sound (artifacts.zip places) (d.keep artifacts) = .ok () d' := by
  unfold registerBy
  simp only [houtput]
  cases htargets : Store.targets d.disk.here output artifacts with
  | error f => simp
  | ok places => simp

/-- The disk with the files of some components. -/
def shelve (disk : Disk) (files : List (Artifact × Place)) : Disk :=
  files.foldl (fun disk ap => disk.set ap.2 (.file (Text.Percent.utf8 ap.1.code.toList))) disk

theorem here_shelve (disk : Disk) (files : List (Artifact × Place)) :
    (shelve disk files).here = disk.here := by
  induction files generalizing disk with
  | nil => rfl
  | cons ap rest ih => exact ih _

/-- Components are written where their files can be found. -/
theorem writeAll_ok {files : List (Artifact × Place)}
    (h : ∀ ap ∈ files, d.disk.Found ap.2 ∧ d.disk.look? ap.2 ≠ some .directory) :
    writeAll .sound files d = .ok () { d with disk := shelve d.disk files } := by
  induction files generalizing d with
  | nil => rfl
  | cons ap rest ih =>
    obtain ⟨a, place⟩ := ap
    obtain ⟨hfound, hentry⟩ := h _ List.mem_cons_self
    have hmake : Disk.ensureDirectories (Place.toPath place.dropLast) d.disk = .ok () d.disk :=
      Disk.ensureDirectories_of_isDirectory hfound.isDirectory_dropLast
    have hwrite : Disk.writeText (Place.toPath place) a.code d.disk =
        .ok () (d.disk.set place (.file (Text.Percent.utf8 a.code.toList))) :=
      Disk.writeText_eq_ok.2 ⟨place, hfound, hentry, rfl⟩
    refine bind_ok.2 ⟨(), d, onDisk_of_ok hmake, bind_ok.2 ⟨(), _, onDisk_of_ok hwrite, ih ?_⟩⟩
    intro ap hap
    obtain ⟨hfound', hentry'⟩ := h ap (List.mem_cons_of_mem _ hap)
    refine ⟨hfound'.mono (Disk.directories_set hentry _), fun hdir => ?_⟩
    by_cases hsame : ap.2 = place
    · rw [hsame, Disk.look?_set_self] at hdir
      · cases hdir
      · rintro rfl
        exact hentry (Disk.look?_nil _)
    · rw [Disk.look?_set_of_ne _ hsame] at hdir
      exact hentry' hdir

/-- What lies at a place is what was written there last. -/
theorem look?_shelve (disk : Disk) (files : List (Artifact × Place)) {q : Place} (hq : q ≠ []) :
    (shelve disk files).look? q =
      ((files.reverse.find? fun ap => ap.2 = q).map fun ap =>
        Disk.Entry.file (Text.Percent.utf8 ap.1.code.toList)).or (disk.look? q) := by
  have hentries : (shelve disk files).entries = files.foldl (fun m ap =>
      m.put ap.2 (.file (Text.Percent.utf8 ap.1.code.toList))) disk.entries :=
    (List.foldl_hom Disk.entries fun _ _ => rfl).symm
  rw [Disk.look?, if_neg hq, hentries, Disk.look?, if_neg hq]
  exact Keyed.get?_foldl_put Prod.snd
    (fun ap : Artifact × Place => Disk.Entry.file (Text.Percent.utf8 ap.1.code.toList)) files _ q

/-- Files that were written can be found. -/
theorem found_of_writeAll {files : List (Artifact × Place)} (hdots : ∀ ap ∈ files, ".." ∉ ap.2)
    (h : writeAll .sound files d = .ok () d') : ∀ ap ∈ files, d'.disk.Found ap.2 := by
  induction files generalizing d with
  | nil => simp
  | cons ap rest ih =>
    obtain ⟨a, place⟩ := ap
    obtain ⟨_, u, hmake, h⟩ := bind_ok.1 h
    obtain ⟨_, w, hwrite, hrest⟩ := bind_ok.1 h
    intro ap hap
    rcases List.mem_cons.1 hap with rfl | hap
    · have hframe : Disk.Frame (fun _ => True) w.disk (final (writeAll .sound rest w)).disk :=
        frame_writeAll Disk.Device.orderly_sound.framed
          (fun ap hap => ⟨hdots ap (List.mem_cons_of_mem _ hap), trivial⟩) w
      rw [hrest, final_ok] at hframe
      obtain ⟨hfound, -, hentry, hw⟩ :=
        Disk.writeText_ok (hdots _ List.mem_cons_self) (onDisk_ok hwrite)
      exact (hw ▸ hfound.mono (Disk.directories_set hentry _)).mono hframe.directories
    · exact ih (fun ap hap => hdots ap (List.mem_cons_of_mem _ hap)) hrest ap hap

end Depot

end DemoPages
