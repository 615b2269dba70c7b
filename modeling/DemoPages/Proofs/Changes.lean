import DemoPages.Site
import DemoPages.Proofs.Accounts
import DemoPages.Proofs.Mirrors

/-!
# How a disk changes

Operations on a disk make directories and let files come and go. A `Disk.Change` tells at which
places; nothing else on the disk changes, and neither does the order in which its places are kept.
Changes compose, so what the steps of a pass may change, the pass may change, however it ends.
-/

namespace DemoPages

open Effect

/-! ### Keys that a filter passes over -/

namespace Keyed

variable {κ α : Type} [DecidableEq κ]

/-- A value under a key that the filter drops does not show among the keys that are left. -/
theorem filter_keys_put (m : Keyed κ α) {k : κ} (v : α) {p : κ → Bool} (h : p k = false) :
    (m.put k v).keys.filter p = m.keys.filter p := by
  obtain ⟨es⟩ := m
  show ((putIn k v es).map Prod.fst).filter p = (es.map Prod.fst).filter p
  induction es with
  | nil => simp [putIn, h]
  | cons e es ih =>
    by_cases he : e.1 = k
    · simp [putIn, he]
    · rw [putIn, if_neg he, List.map_cons, List.filter_cons, ih, List.map_cons, List.filter_cons]

theorem filter_keys_erase (m : Keyed κ α) {k : κ} {p : κ → Bool} (h : p k = false) :
    (m.erase k).keys.filter p = m.keys.filter p := by
  rw [keys_erase, List.filter_filter]
  refine List.filter_congr fun q _ => ?_
  by_cases hq : q = k
  · simp [hq, h]
  · simp [hq]

end Keyed

/-! ### Where a path leads -/

namespace Place

theorem settle_append (xs ys : List String) : settle (xs ++ ys) = settle (settle xs ++ ys) := by
  have hsettled := settle_of_not_mem (dots_not_mem_settle xs)
  unfold settle at hsettled ⊢
  rw [List.foldl_append, List.foldl_append, hsettled]

/-- Where one more segment leads from a place. -/
theorem settle_step {base : Place} (hdots : ".." ∉ base) (s : String) :
    settle (base ++ [s]) = if s = ".." then base.dropLast else base ++ [s] := by
  split
  · rename_i hs
    rw [hs, settle_concat_dots, settle_of_not_mem hdots]
  · rename_i hs
    rw [settle_concat base hs, settle_of_not_mem hdots]

/-- Two places, neither of which lies at or below the other. -/
def Disjoint (p q : Place) : Prop := ¬ p <+: q ∧ ¬ q <+: p

instance (p q : Place) : Decidable (Disjoint p q) := inferInstanceAs (Decidable (_ ∧ _))

theorem Disjoint.not_under {p q r : Place} (h : Disjoint p q) (hp : p <+: r) : ¬ q <+: r :=
  fun hq => (List.prefix_or_prefix_of_prefix hp hq).elim h.1 h.2

end Place

namespace Disk

variable {d d' d'' : Disk} {path : Path} {p q : Place}

theorem walk_ok {base : Place} {segments : List String} (hdots : ".." ∉ base)
    (h : d.walk base segments = .ok q) : q = Place.settle (base ++ segments) := by
  induction segments generalizing base with
  | nil =>
    cases h
    rw [List.append_nil, Place.settle_of_not_mem hdots]
  | cons s rest ih =>
    rw [walk] at h
    split at h
    · cases h
    · cases h
    · rw [← Place.settle_step hdots] at h
      rw [ih (Place.dots_not_mem_settle _) h, ← Place.settle_append, List.append_assoc]
      rfl

/-- A path leads to the place that it names, if it leads anywhere. -/
theorem locate_ok (hhere : ".." ∉ d.here) (h : d.locate path = .ok q) :
    q = Place.resolve d.here path := by
  unfold locate at h
  split at h
  · cases h
  · refine walk_ok ?_ h
    split
    · exact hhere
    · exact List.not_mem_nil

/-- Where directories stay, paths lead where they led. -/
theorem locate_mono (hhere : d'.here = d.here)
    (h : ∀ p, d.look? p = some .directory → d'.look? p = some .directory)
    (hlocate : d.locate path = .ok q) : d'.locate path = .ok q := by
  unfold locate at hlocate ⊢
  rw [hhere]
  split at hlocate
  · cases hlocate
  · rename_i hnull
    rw [if_neg hnull]
    exact walk_mono h hlocate

/-! ### Changes -/

/-- How a disk may change while files come and go at the places `files`, and directories are made at
the places `made` if nothing is there: the current directory and all directories stay, nothing else
changes, and the other places are kept in their order. -/
structure Change (files made : Place → Prop) (d d' : Disk) : Prop where
  here : d'.here = d.here
  directories : ∀ q, d.look? q = some .directory → d'.look? q = some .directory
  look : ∀ q, d'.look? q = d.look? q ∨ files q ∨
    made q ∧ d.look? q = none ∧ d'.look? q = some .directory
  keys : ∀ watched : Place → Bool,
    (∀ q, watched q = true → ¬ files q ∧ (made q → d.look? q ≠ none)) →
      d'.entries.keys.filter watched = d.entries.keys.filter watched

namespace Change

variable {files made : Place → Prop}

theorem refl (d : Disk) : Change files made d d where
  here := rfl
  directories _ h := h
  look _ := Or.inl rfl
  keys _ _ := rfl

/-- Changes compose. -/
theorem trans (h : Change files made d d') (h' : Change files made d' d'') :
    Change files made d d'' where
  here := h'.here.trans h.here
  directories q hq := h'.directories q (h.directories q hq)
  look q := by
    rcases h'.look q with hsame | hfile | ⟨hmade, hnone, hdir⟩
    · rcases h.look q with hsame' | hfile | ⟨hmade, hnone, hdir⟩
      · exact Or.inl (hsame.trans hsame')
      · exact Or.inr (Or.inl hfile)
      · exact Or.inr (Or.inr ⟨hmade, hnone, hsame.trans hdir⟩)
    · exact Or.inr (Or.inl hfile)
    · rcases h.look q with hsame' | hfile | ⟨-, -, hdir'⟩
      · exact Or.inr (Or.inr ⟨hmade, hsame'.symm.trans hnone, hdir⟩)
      · exact Or.inr (Or.inl hfile)
      · rw [hnone] at hdir'
        cases hdir'
  keys watched hw := by
    refine (h'.keys watched fun q hq => ⟨(hw q hq).1, fun hmade => ?_⟩).trans (h.keys watched hw)
    rcases h.look q with hsame | hfile | ⟨-, -, hdir⟩
    · rw [hsame]
      exact (hw q hq).2 hmade
    · exact absurd hfile (hw q hq).1
    · rw [hdir]
      exact Option.some_ne_none _

/-- What is there stays, if it is no file that may come or go. -/
theorem look?_eq (h : Change files made d d') {e : Entry} (hq : ¬ files q)
    (he : d.look? q = some e) : d'.look? q = some e := by
  rcases h.look q with hsame | hfile | ⟨-, hnone, -⟩
  · exact hsame.trans he
  · exact absurd hfile hq
  · rw [he] at hnone
    cases hnone

theorem not_mem_here (h : Change files made d d') (hdots : ".." ∉ d.here) : ".." ∉ d'.here := by
  rwa [h.here]

/-- A file that comes or goes. -/
theorem of_file (hq : files q) (hne : q ≠ []) (hold : d.look? q ≠ some .directory)
    (hhere : d'.here = d.here) (hothers : ∀ r, r ≠ q → d'.look? r = d.look? r)
    (hkeys : ∀ watched : Place → Bool, watched q = false →
      d'.entries.keys.filter watched = d.entries.keys.filter watched) : Change files made d d' where
  here := hhere
  directories r hr := by
    have hrq : r ≠ q := by
      rintro rfl
      exact hold hr
    rw [hothers r hrq, hr]
  look r := by
    by_cases hrq : r = q
    · subst hrq
      exact Or.inr (Or.inl hq)
    · exact Or.inl (hothers r hrq)
  keys watched hw := hkeys watched (Bool.eq_false_iff.2 fun hq' => (hw q hq').1 hq)

end Change

/-! ### What the operations change -/

section Operations

variable {files made : Place → Prop}

theorem change_makeDirectory (path : Path) (hmade : ∀ q, d.locate path = .ok q → made q) :
    Change files made d (final (makeDirectory path d)) := by
  unfold makeDirectory
  split
  · exact Change.refl d
  · rename_i q hlocate
    split
    · exact Change.refl d
    · rename_i hnew
      rw [not_or, Bool.not_eq_true, Option.isSome_eq_false_iff, Option.isNone_iff_eq_none] at hnew
      have hne : q ≠ [] := by
        rintro rfl
        cases hnew.2
      refine ⟨rfl, fun r hr => ?_, fun r => ?_, fun watched hw => ?_⟩
      · by_cases hrq : r = q
        · subst hrq
          exact look?_set_self d hne _
        · exact (look?_set_of_ne d hrq _).trans hr
      · by_cases hrq : r = q
        · subst hrq
          exact Or.inr (Or.inr ⟨hmade r hlocate, hnew.2, look?_set_self d hne _⟩)
        · exact Or.inl (look?_set_of_ne d hrq _)
      · refine Keyed.filter_keys_put _ _ (Bool.eq_false_iff.2 fun hq => ?_)
        exact (hw q hq).2 (hmade q hlocate) hnew.2

theorem change_ensureDirectory (path : Path) (hmade : ∀ q, d.locate path = .ok q → made q) :
    Change files made d (final (ensureDirectory path d)) := by
  rw [final_ensureDirectory]
  exact change_makeDirectory path hmade

/-- Directories are made at the stations of a path. -/
theorem change_ensureSegments (path : Path) {here : Place} (hhere : ".." ∉ here)
    (hmade : ∀ n, made (Place.resolve here { path with segments := path.segments.take n }))
    (n : Nat) (hd : d.here = here) : Change files made d (final (ensureSegments path n d)) := by
  have hstation : ∀ (d : Disk) (n : Nat), d.here = here → ∀ q,
      d.locate { path with segments := path.segments.take n } = .ok q → made q := by
    rintro d n rfl q hq
    rw [locate_ok hhere hq]
    exact hmade n
  induction n generalizing d with
  | zero =>
    have hfirst : Change files made d (final (ensureDirectory _ d)) :=
      change_ensureDirectory _ (hstation d 0 hd)
    rwa [List.take_zero] at hfirst
  | succ n ih =>
    have hfirst : Change files made d (final (ensureDirectory _ d)) :=
      change_ensureDirectory _ (hstation d (n + 1) hd)
    simp only [ensureSegments]
    split
    · rename_i f u hu
      rw [hu, final_error] at hfirst
      split
      · refine hfirst.trans (bind_keeps (R := fun d d' : Disk => d.here = here →
          Change files made d d') ?_ (fun _ => ih) (fun _ d hd => ?_) u (hfirst.here.trans hd))
        · intro d d' d'' h h' hd
          exact (h hd).trans (h' ((h hd).here.trans hd))
        · exact change_ensureDirectory _ (hstation d (n + 1) hd)
      · exact hfirst
    · exact hfirst

theorem change_ensureDirectories (path : Path) (hhere : ".." ∉ d.here)
    (hmade : ∀ n, made (Place.resolve d.here { path with segments := path.segments.take n })) :
    Change files made d (final (ensureDirectories path d)) :=
  change_ensureSegments path hhere hmade path.segments.length rfl

theorem change_writeText (path : Path) (text : String)
    (hfiles : ∀ q, d.locate path = .ok q → files q) :
    Change files made d (final (writeText path text d)) := by
  unfold writeText writeBytes
  split
  · exact Change.refl d
  · rename_i q hlocate
    split
    · exact Change.refl d
    · rename_i hentry
      have hne : q ≠ [] := by
        rintro rfl
        exact hentry (look?_nil d)
      exact Change.of_file (hfiles q hlocate) hne hentry rfl (fun r hr => look?_set_of_ne d hr _)
        fun watched hw => Keyed.filter_keys_put _ _ hw

theorem change_deleteFile (path : Path) (hfiles : ∀ q, d.locate path = .ok q → files q) :
    Change files made d (final (deleteFile path d)) := by
  unfold deleteFile
  split
  · exact Change.refl d
  · exact Change.refl d
  · rename_i q hlocate
    split
    · exact Change.refl d
    · exact Change.refl d
    · rename_i hentry
      have hne : q ≠ [] := by
        rintro rfl
        cases hentry
      refine Change.of_file (hfiles q hlocate) hne ?_ rfl (fun r hr => look?_clear_of_ne d hr)
        fun watched hw => Keyed.filter_keys_erase _ hw
      rw [hentry]
      exact fun h => by cases h

end Operations

end Disk

namespace Depot

variable {files made : Place → Prop} {d : Depot}

/-- Deleting the files of components changes nothing but these files. -/
theorem change_removeBy (names : List String) (hhere : ".." ∉ d.disk.here)
    (hfiles : ∀ name ∈ names, ∀ a, d.store.get? name = some a →
      ∀ output, d.store.output = some output →
        ∀ q, Store.target d.disk.here output a = .ok q → files q) :
    Disk.Change files made d.disk (final (removeBy .sound names d)).disk := by
  induction names generalizing d with
  | nil => exact Disk.Change.refl d.disk
  | cons name names ih =>
    have hstore := store_removeOne .sound name d
    have hfirst : Disk.Change files made d.disk (final (removeOne .sound name d)).disk := by
      unfold removeOne
      split
      · exact Disk.Change.refl d.disk
      · rename_i a ha
        split
        · exact Disk.Change.refl d.disk
        · rename_i output houtput
          split
          · exact Disk.Change.refl d.disk
          · rename_i q hq
            rw [disk_onDisk]
            refine Disk.change_deleteFile _ fun r hr => ?_
            have hdots := Store.dots_not_mem_target hq
            rw [(Disk.found_of_locate hdots hr).1]
            exact hfiles name List.mem_cons_self a ha output houtput q hq
    cases h : removeOne .sound name d with
    | error f u =>
      have hremove : removeBy .sound (name :: names) d = .error f u := bind_of_error h _
      rw [h, final_error] at hfirst
      rwa [hremove]
    | ok _ u =>
      have hremove : removeBy .sound (name :: names) d = removeBy .sound names u := bind_of_ok h _
      rw [h, final_ok] at hfirst hstore
      rw [hremove]
      refine hfirst.trans (ih (hfirst.not_mem_here hhere) ?_)
      intro name' hname' a ha output houtput q hq
      rw [hstore, Store.get?_without] at ha
      rw [hstore] at houtput
      rw [hfirst.here] at hq
      split at ha
      · cases ha
      · exact hfiles name' (List.mem_cons_of_mem _ hname') a ha output houtput q hq

/-- Writing files makes the directories that lead to them. -/
theorem change_writeAll {l : List (Artifact × Place)}
    (hl : ∀ ap ∈ l, ".." ∉ ap.2 ∧ files ap.2 ∧ ∀ q, q <+: ap.2 → made q)
    (hhere : ".." ∉ d.disk.here) :
    Disk.Change files made d.disk (final (writeAll .sound l d)).disk := by
  induction l generalizing d with
  | nil => exact Disk.Change.refl d.disk
  | cons ap rest ih =>
    obtain ⟨a, place⟩ := ap
    obtain ⟨hdots, hplace, hmade⟩ := hl _ List.mem_cons_self
    have hrest := fun d => @ih d fun ap hap => hl ap (List.mem_cons_of_mem _ hap)
    refine bind_keeps (R := fun d d' : Depot => ".." ∉ d.disk.here →
      Disk.Change files made d.disk d'.disk) ?_ (fun d hhere => ?_) (fun _ => ?_) d hhere
    · intro d d' d'' h h' hhere
      exact (h hhere).trans (h' ((h hhere).not_mem_here hhere))
    · rw [disk_onDisk]
      refine Disk.change_ensureDirectories _ hhere fun n => hmade _ ?_
      have htake : (place.dropLast.take n) <+: place :=
        (List.take_prefix n _).trans (List.dropLast_prefix place)
      have hresolve : Place.resolve d.disk.here ⟨.root, place.dropLast.take n⟩ =
          place.dropLast.take n :=
        Place.settle_of_not_mem fun hmem => hdots (htake.subset hmem)
      rwa [← hresolve] at htake
    · refine bind_keeps (R := fun d d' : Depot => ".." ∉ d.disk.here →
        Disk.Change files made d.disk d'.disk) ?_ (fun d hhere => ?_) fun _ => hrest
      · intro d d' d'' h h' hhere
        exact (h hhere).trans (h' ((h hhere).not_mem_here hhere))
      · rw [disk_onDisk]
        refine Disk.change_writeText _ _ fun q hq => ?_
        rw [(Disk.found_of_locate hdots hq).1]
        exact hplace

/-- Registering components changes nothing but their files and what leads to them. -/
theorem change_registerBy (artifacts : List Artifact) (hhere : ".." ∉ d.disk.here)
    (hfiles : ∀ a ∈ artifacts, ∀ output, d.store.output = some output →
      ∀ q, Store.target d.disk.here output a = .ok q → files q ∧ ∀ r, r <+: q → made r) :
    Disk.Change files made d.disk (final (registerBy .sound artifacts d)).disk := by
  unfold registerBy
  split
  · exact Disk.Change.refl d.disk
  · rename_i output houtput
    split
    · exact Disk.Change.refl d.disk
    · rename_i places hplaces
      obtain ⟨hmap, htarget⟩ := Store.targets_ok hplaces
      refine change_writeAll (d := d.keep artifacts) (fun ap hap => ?_) hhere
      have hmem : ap.1 ∈ artifacts := by
        rw [← hmap]
        exact List.mem_map_of_mem hap
      have hq := htarget ap hap
      exact ⟨Store.dots_not_mem_target hq, hfiles ap.1 hmem output houtput ap.2 hq⟩

end Depot

end DemoPages
