import Mathlib.Data.List.Find
import DemoPages.Proofs.Depots
import DemoPages.Proofs.Disks
import DemoPages.Proofs.Places

/-!
# Disks that mirror their store

A depot `Mirrors` its store if every file at or below the output directory is that of a component,
or one that was `spared`. Removing keeps this at every name (`Mirrors.removeBy`), but a file whose
deletion fails has lost its component already, and is spared from then on (`Spares`); registering
keeps it, also if it stops half way, when no name is taken already and components of one name have
one path (`Mirrors.registerBy`). Both leave `Apart` the components of other names and the places
where only these are at `home`, a relation that is left open here.
-/

namespace DemoPages

open Effect

variable {here : Place} {output : Path} {home : String → Place → Prop}
  {spared : Place → List UInt8 → Prop}

/-! ### The places of components -/

namespace Store

theorem dots_not_mem_target {a : Artifact} {place : Place} (h : target here output a = .ok place) :
    ".." ∉ place := by
  rw [(target_ok h).1]
  exact Place.dots_not_mem_settle _

theorem target_congr {a a' : Artifact} (h : a.path = a'.path) :
    target here output a = target here output a' := by
  unfold target
  rw [h]

theorem targets_ok {artifacts : List Artifact} {places : List Place}
    (h : targets here output artifacts = .ok places) :
    (artifacts.zip places).map Prod.fst = artifacts ∧
      ∀ ap ∈ artifacts.zip places, target here output ap.1 = .ok ap.2 := by
  induction artifacts generalizing places with
  | nil => simp
  | cons a as ih =>
    rw [targets] at h
    cases ha : target here output a with
    | error f =>
      rw [ha] at h
      cases h
    | ok p =>
      rw [ha] at h
      cases has : targets here output as with
      | error f =>
        rw [has] at h
        cases h
      | ok ps =>
        rw [has] at h
        cases h
        obtain ⟨hmap, htargets⟩ := ih has
        refine ⟨by rw [List.zip_cons_cons, List.map_cons, hmap], ?_⟩
        intro ap hap
        rcases List.mem_cons.1 hap with rfl | hap
        · exact ha
        · exact htargets ap hap

end Store

namespace Depot

variable {device : Disk.Device} {d d' : Depot}

theorem disk_onDisk {α : Type} (act : Disk.Action α) (d : Depot) :
    (final (onDisk act d)).disk = final (act d.disk) := by
  unfold onDisk
  cases act d.disk <;> rfl

theorem onDisk_ok {α : Type} {act : Disk.Action α} {a : α} (h : onDisk act d = .ok a d') :
    act d.disk = .ok a d'.disk := by
  unfold onDisk at h
  split at h
  · rename_i hact
    cases h
    exact hact
  · cases h

/-! ### Writing -/

/-- Writing touches the places written to, also if it stops half way. -/
theorem frame_writeAll (framed : device.Framed) {touched : Place → Prop}
    {l : List (Artifact × Place)} (hl : ∀ ap ∈ l, ".." ∉ ap.2 ∧ touched ap.2) (d : Depot) :
    Disk.Frame touched d.disk (final (writeAll device l d)).disk := by
  induction l generalizing d with
  | nil => exact Disk.Frame.refl d.disk
  | cons ap rest ih =>
    obtain ⟨a, place⟩ := ap
    obtain ⟨hdots, hplace⟩ := hl _ List.mem_cons_self
    have hrest := ih fun ap hap => hl ap (List.mem_cons_of_mem _ hap)
    have hmake : ∀ d : Depot, Disk.Frame touched d.disk
        (final (onDisk (device.ensureDirectories (Place.toPath place.dropLast)) d)).disk := by
      intro d
      rw [disk_onDisk]
      exact (framed.makes _ d.disk).mono fun _ h => h.elim
    have hwrite : ∀ d : Depot, Disk.Frame touched d.disk
        (final (onDisk (device.writeText (Place.toPath place) a.code) d)).disk := by
      intro d
      rw [disk_onDisk]
      refine (framed.writes place hdots a.code d.disk).mono ?_
      rintro _ rfl
      exact hplace
    refine bind_keeps (R := fun d d' : Depot => Disk.Frame touched d.disk d'.disk) Disk.Frame.trans
      hmake (fun _ => ?_) d
    exact bind_keeps (R := fun d d' : Depot => Disk.Frame touched d.disk d'.disk) Disk.Frame.trans
      hwrite fun _ => hrest

/-- Once all is written, each place holds the code that was written there last. -/
theorem bytes?_writeAll (orderly : device.Orderly) {l : List (Artifact × Place)}
    (hdots : ∀ ap ∈ l, ".." ∉ ap.2) (h : writeAll device l d = .ok () d')
    {ap : Artifact × Place} {q : Place}
    (hlast : (l.reverse.find? fun ap => ap.2 = q) = some ap) :
    d'.disk.bytes? q = some (Text.Percent.utf8 ap.1.code.toList) := by
  induction l generalizing d with
  | nil => cases hlast
  | cons first rest ih =>
    obtain ⟨a, place⟩ := first
    have hrestDots : ∀ ap ∈ rest, ".." ∉ ap.2 := fun ap hap =>
      hdots ap (List.mem_cons_of_mem _ hap)
    obtain ⟨_, u, -, h⟩ := bind_ok.1 h
    obtain ⟨_, w, hwrite, hrest⟩ := bind_ok.1 h
    rw [List.reverse_cons, List.find?_append] at hlast
    cases hlater : rest.reverse.find? fun ap => ap.2 = q with
    | some later =>
      rw [hlater, Option.some_or] at hlast
      exact ih hrestDots hrest (hlater.trans hlast)
    | none =>
      -- Nothing is written there later, so what is written now stays.
      rw [hlater, Option.none_or, List.find?_singleton] at hlast
      split at hlast
      · rename_i hplace
        cases hlast
        have hq : place = q := by simpa using hplace
        subst hq
        have hlaterNe : ∀ ap ∈ rest, ap.2 ≠ place := by
          intro ap hap
          simpa using List.find?_eq_none.1 hlater ap (List.mem_reverse.2 hap)
        have hframe : Disk.Frame (· ≠ place) w.disk (final (writeAll device rest w)).disk :=
          frame_writeAll orderly.framed (fun ap hap => ⟨hrestDots ap hap, hlaterNe ap hap⟩) w
        rw [hrest, final_ok] at hframe
        rw [hframe.others place (fun hne => hne rfl)]
        exact orderly.written place (hdots _ List.mem_cons_self) _ _ _ (onDisk_ok hwrite)
      · cases hlast

/-! ### Files that are spared -/

/-- Removing components spares the file at the place `q`, and leaves it with these bytes: when those
in front are removed, the component that lies there is forgotten, and the device reports a fault in
place of deleting the file. -/
inductive Spares (device : Disk.Device) (f : Disk.Fault) (q : Place) (bytes : List UInt8) :
    List String → Depot → Prop where
  | first {name : String} {names : List String} {d : Depot} {a : Artifact} {output : Path}
      {disk : Disk} (kept : d.store.get? name = some a) (directory : d.store.output = some output)
      (lies : Store.target d.disk.here output a = .ok q)
      (fails : device.deleteFile (Place.toPath q) d.disk = .error f disk)
      (stays : disk.bytes? q = some bytes) : Spares device f q bytes (name :: names) d
  | later {name : String} {names : List String} {d u : Depot}
      (removes : removeOne device name d = .ok () u) (spares : Spares device f q bytes names u) :
      Spares device f q bytes (name :: names) d

/-- Where a file is spared, removing fails with the fault of its deletion, and the file is there. -/
theorem Spares.removeBy {names : List String} {f : Disk.Fault} {q : Place} {bytes : List UInt8}
    (h : Spares device f q bytes names d) :
    ∃ d', removeBy device names d = .error (.disk f) d' ∧ d'.disk.bytes? q = some bytes := by
  induction h with
  | @first name names d a output disk kept directory lies fails stays =>
    have hone : removeOne device name d = .error (.disk f) { d.forget name with disk } := by
      simp only [removeOne, kept, directory, lies, onDisk]
      rw [show (d.forget name).disk = d.disk from rfl, fails]
    exact ⟨_, bind_of_error hone _, stays⟩
  | later removes _ ih =>
    obtain ⟨d', hrest, stays⟩ := ih
    exact ⟨d', (bind_of_ok removes _).trans hrest, stays⟩

/-! ### The mirror -/

/-- The components lie where a name has its `home`, and every file at or below the output directory
can be found, and is that of a component or was spared. -/
structure Mirrors (here : Place) (output : Path) (home : String → Place → Prop)
    (spared : Place → List UInt8 → Prop) (d : Depot) : Prop where
  directory : d.store.output = some output
  start : d.disk.here = here
  placed : ∀ name a, d.store.get? name = some a →
    a.name = name ∧ ∃ q, Store.target here output a = .ok q ∧ home name q
  sourced : ∀ q bytes, Place.resolve here output <+: q → d.disk.bytes? q = some bytes →
    d.disk.Found q ∧ ((∃ name a, d.store.get? name = some a ∧ Store.target here output a = .ok q) ∨
      spared q bytes)

/-- What happens to a depot for the names `own` leaves the components of other names alone, and the
places where none of these names is at home. -/
structure Apart (home : String → Place → Prop) (own : String → Prop) (d d' : Depot) : Prop where
  store : ∀ name, ¬ own name → d'.store.get? name = d.store.get? name
  disk : Disk.Frame (fun q => ∃ name, own name ∧ home name q) d.disk d'.disk

namespace Apart

variable {own : String → Prop}

theorem refl (d : Depot) : Apart home own d d where
  store _ _ := rfl
  disk := Disk.Frame.refl d.disk

theorem trans {d d' d'' : Depot} (h : Apart home own d d') (h' : Apart home own d' d'') :
    Apart home own d d'' where
  store name hname := (h'.store name hname).trans (h.store name hname)
  disk := h.disk.trans h'.disk

end Apart

namespace Mirrors

variable {own : String → Prop}

theorem mono {spared' : Place → List UInt8 → Prop} (h : Mirrors here output home spared d)
    (hsub : ∀ q bytes, spared q bytes → spared' q bytes) :
    Mirrors here output home spared' d where
  directory := h.directory
  start := h.start
  placed := h.placed
  sourced q bytes hstart hbytes := by
    obtain ⟨hfound, hsource⟩ := h.sourced q bytes hstart hbytes
    exact ⟨hfound, hsource.imp_right (hsub q bytes)⟩

/-- What is at the place of a component after its file was to be deleted, was spared. -/
theorem spares_of_deleteFile (orderly : device.Orderly) (h : Mirrors here output home spared d)
    {name : String} {a : Artifact} {q : Place} (hget : d.store.get? name = some a)
    (htarget : Store.target here output a = .ok q) {bytes : List UInt8}
    (hbytes : (final (device.deleteFile (Place.toPath q) d.disk)).bytes? q = some bytes)
    (names : List String) : ∃ f, Spares device f q bytes (name :: names) d := by
  cases hdelete : device.deleteFile (Place.toPath q) d.disk with
  | ok _ disk =>
    have hgone := orderly.deleted q d.disk disk
      (fun bytes hbytes => (h.sourced q bytes (Store.target_ok htarget).2 hbytes).1) hdelete
    rw [hdelete, final_ok, hgone] at hbytes
    cases hbytes
  | error f disk =>
    rw [hdelete, final_error] at hbytes
    exact ⟨f, .first hget h.directory (h.start.symm ▸ htarget) hdelete hbytes⟩

/-- Once a component is forgotten, and nothing but its file was touched, the mirror is kept, but for
what lies in place of this file. -/
theorem forget (h : Mirrors here output home spared d) {name : String} {a : Artifact} {q : Place}
    (hget : d.store.get? name = some a) (htarget : Store.target here output a = .ok q)
    (hstore : d'.store = d.store.without [name]) (frame : Disk.Frame (· = q) d.disk d'.disk) :
    Mirrors here output home
      (fun q' bytes => spared q' bytes ∨ q' = q ∧ d'.disk.bytes? q = some bytes) d' where
  directory := by
    rw [hstore]
    exact h.directory
  start := frame.here.trans h.start
  placed name' a' ha' := by
    rw [hstore, Store.get?_without] at ha'
    split at ha'
    · cases ha'
    · exact h.placed name' a' ha'
  sourced q' bytes hstart hbytes := by
    by_cases hq : q' = q
    · subst hq
      refine ⟨?_, Or.inr (Or.inr ⟨rfl, hbytes⟩)⟩
      rcases frame.came q' bytes hbytes with hbefore | ⟨-, hfound⟩
      · exact (h.sourced q' bytes hstart hbefore).1.mono frame.directories
      · exact hfound
    · rw [frame.others q' hq] at hbytes
      obtain ⟨hfound, hsource⟩ := h.sourced q' bytes hstart hbytes
      refine ⟨hfound.mono frame.directories, hsource.imp ?_ Or.inl⟩
      -- A component that lies elsewhere has another name.
      rintro ⟨name', a', ha', htarget'⟩
      have hname : name' ∉ [name] := by
        rw [List.mem_singleton]
        rintro rfl
        obtain rfl := Option.some.inj (hget.symm.trans ha')
        exact hq (Except.ok.inj (htarget'.symm.trans htarget))
      exact ⟨name', a', by rw [hstore, Store.get?_without, if_neg hname, ha'], htarget'⟩

/-- Removing a component keeps the mirror, but for the file of the component if it is spared. -/
theorem removeOne (orderly : device.Orderly) (h : Mirrors here output home spared d) {name : String}
    (hown : own name) (names : List String) :
    Mirrors here output home
        (fun q bytes => spared q bytes ∨ ∃ f, Spares device f q bytes (name :: names) d)
        (final (removeOne device name d)) ∧
      Apart home own d (final (removeOne device name d)) := by
  cases hget : d.store.get? name with
  | none =>
    simp only [Depot.removeOne, hget, final_ok]
    exact ⟨h.mono fun _ _ => Or.inl, Apart.refl d⟩
  | some a =>
    obtain ⟨-, q, htarget, hhome⟩ := h.placed name a hget
    have hstore := store_removeOne device name d
    have hdisk : (final (Depot.removeOne device name d)).disk =
        final (device.deleteFile (Place.toPath q) d.disk) := by
      simp only [Depot.removeOne, hget, h.directory, h.start, htarget]
      exact disk_onDisk _ _
    have hframe : Disk.Frame (· = q) d.disk (final (Depot.removeOne device name d)).disk :=
      hdisk ▸ orderly.deletes q (Store.dots_not_mem_target htarget) d.disk
    refine ⟨(h.forget hget htarget hstore hframe).mono ?_, fun name' hname' => ?_, hframe.mono ?_⟩
    · rintro q' bytes (hspared | ⟨rfl, hbytes⟩)
      · exact Or.inl hspared
      · exact Or.inr (h.spares_of_deleteFile orderly hget htarget (hdisk ▸ hbytes) names)
    · have hne : name' ∉ [name] := by
        rw [List.mem_singleton]
        rintro rfl
        exact hname' hown
      rw [hstore, Store.get?_without, if_neg hne]
    · rintro _ rfl
      exact ⟨name, hown, hhome⟩

/-- Removing components keeps the mirror, however far it comes, but for a file that it spares. -/
theorem removeBy (orderly : device.Orderly) {names : List String}
    (h : Mirrors here output home spared d) (hown : ∀ name ∈ names, own name) :
    Mirrors here output home
        (fun q bytes => spared q bytes ∨ ∃ f, Spares device f q bytes names d)
        (final (removeBy device names d)) ∧
      Apart home own d (final (removeBy device names d)) := by
  induction names generalizing d spared with
  | nil => exact ⟨h.mono fun _ _ => Or.inl, Apart.refl d⟩
  | cons name names ih =>
    obtain ⟨hfirst, hapart⟩ := h.removeOne orderly (hown name List.mem_cons_self) names
    cases hone : Depot.removeOne device name d with
    | error f u =>
      rw [hone, final_error] at hfirst hapart
      rw [show Depot.removeBy device (name :: names) d = .error f u from bind_of_error hone _]
      exact ⟨hfirst, hapart⟩
    | ok _ u =>
      rw [hone, final_ok] at hfirst hapart
      obtain ⟨hrest, hapart'⟩ :=
        ih hfirst fun name hname => hown name (List.mem_cons_of_mem _ hname)
      rw [show Depot.removeBy device (name :: names) d = Depot.removeBy device names u from
        bind_of_ok hone _]
      refine ⟨hrest.mono ?_, hapart.trans hapart'⟩
      rintro q bytes (hspared | ⟨f, hspares⟩)
      · exact hspared
      · exact Or.inr ⟨f, .later hone hspares⟩

/-- Removing that ends well keeps the mirror. -/
theorem removeBy_ok (orderly : device.Orderly) {names : List String}
    (h : Mirrors here output home spared d) (hown : ∀ name ∈ names, own name)
    (removes : Depot.removeBy device names d = .ok () d') :
    Mirrors here output home spared d' ∧ Apart home own d d' := by
  have hremoved := h.removeBy orderly hown
  rw [removes, final_ok] at hremoved
  refine ⟨hremoved.1.mono ?_, hremoved.2⟩
  rintro q bytes (hspared | ⟨f, hspares⟩)
  · exact hspared
  · obtain ⟨_, fails, -⟩ := hspares.removeBy
    cases fails.symm.trans removes

/-- A file that is spared lies where a name is at home that is forgotten. -/
theorem forgotten (orderly : device.Orderly) {names : List String} {f : Disk.Fault} {q : Place}
    {bytes : List UInt8} (hspares : Spares device f q bytes names d)
    (h : Mirrors here output home spared d) (hown : ∀ name ∈ names, own name) :
    ∃ name, home name q ∧ (final (Depot.removeBy device names d)).store.get? name = none := by
  induction hspares generalizing spared with
  | @first name names d a output' disk kept directory lies fails stays =>
    obtain ⟨hname, q', htarget, hhome⟩ := h.placed name a kept
    rw [h.directory, Option.some_inj] at directory
    subst directory
    rw [h.start, htarget] at lies
    cases lies
    refine ⟨name, hhome, ?_⟩
    have hspares : Spares device f q bytes [name] d :=
      .first kept h.directory (h.start.symm ▸ htarget) fails stays
    obtain ⟨u, hone⟩ : ∃ u, Depot.removeOne device name d = .error (.disk f) u := by
      obtain ⟨u, hremoves, -⟩ := hspares.removeBy
      rcases bind_error.1 hremoves with hone | ⟨_, _, -, hnil⟩
      · exact ⟨u, hone⟩
      · cases hnil
    have hstore := store_removeOne device name d
    rw [hone, final_error] at hstore
    rw [show Depot.removeBy device (name :: names) d = .error (.disk f) u from bind_of_error hone _,
      final_error, hstore, Store.get?_without, if_pos List.mem_cons_self]
  | @later name names d u removes _ ih =>
    have hfirst := (h.removeOne orderly (hown name List.mem_cons_self) names).1
    rw [removes, final_ok] at hfirst
    obtain ⟨name', hhome, hnone⟩ :=
      ih hfirst fun name hname => hown name (List.mem_cons_of_mem _ hname)
    refine ⟨name', hhome, ?_⟩
    rwa [show Depot.removeBy device (name :: names) d = Depot.removeBy device names u from
      bind_of_ok removes _]

end Mirrors

/-- May these components be registered? They lie where their names are at home, components of one
name have one path, and no name is taken. -/
structure Welcome (here : Place) (output : Path) (home : String → Place → Prop)
    (artifacts : List Artifact) (d : Depot) : Prop where
  homes : ∀ a ∈ artifacts, ∀ q, Store.target here output a = .ok q → home a.name q
  path : ∀ a ∈ artifacts, ∀ a' ∈ artifacts, a.name = a'.name → a.path = a'.path
  fresh : ∀ a ∈ artifacts, d.store.get? a.name = none

namespace Mirrors

variable {own : String → Prop} {artifacts : List Artifact}

/-- Once components that are welcome are kept, and nothing but their files was touched, the mirror
is kept. -/
theorem keep (h : Mirrors here output home spared d) (welcome : Welcome here output home artifacts d)
    {places : List Place} (htargets : Store.targets here output artifacts = .ok places)
    (hstore : d'.store = (d.keep artifacts).store)
    (frame : Disk.Frame (fun q => ∃ ap ∈ artifacts.zip places, ap.2 = q) d.disk d'.disk) :
    Mirrors here output home spared d' := by
  obtain ⟨hmap, htarget⟩ := Store.targets_ok htargets
  have hmem : ∀ ap ∈ artifacts.zip places, ap.1 ∈ artifacts := fun _ hap =>
    (List.of_mem_zip hap).1
  refine ⟨?_, frame.here.trans h.start, fun name a ha => ?_, fun q bytes hstart hbytes => ?_⟩
  · rw [hstore]
    exact h.directory
  · rw [hstore] at ha
    rcases get?_keep_cases ha with ⟨hkept, rfl⟩ | hold
    · rw [← hmap] at hkept
      obtain ⟨ap, hap, rfl⟩ := List.mem_map.1 hkept
      exact ⟨rfl, ap.2, htarget ap hap, welcome.homes ap.1 (hmem ap hap) ap.2 (htarget ap hap)⟩
    · exact h.placed name a hold
  · rcases frame.came q bytes hbytes with hbefore | ⟨⟨ap, hap, rfl⟩, hfound⟩
    · -- The file was there before, and its component, if any, has none of the new names.
      obtain ⟨hfound, hsource⟩ := h.sourced q bytes hstart hbefore
      refine ⟨hfound.mono frame.directories, hsource.imp_left ?_⟩
      rintro ⟨name, a, ha, hq⟩
      refine ⟨name, a, ?_, hq⟩
      have hnew : name ∉ artifacts.map Artifact.name := by
        rintro hmem
        obtain ⟨a', ha', rfl⟩ := List.mem_map.1 hmem
        have hfresh := welcome.fresh a' ha'
        rw [ha] at hfresh
        cases hfresh
      rw [hstore, get?_keep_of_not_mem hnew, ha]
    · obtain ⟨last, hlast, hname, -, hget⟩ := get?_keep_of_mem (d := d) (hmem ap hap)
      refine ⟨hfound, Or.inl ⟨ap.1.name, last, by rw [hstore, hget], ?_⟩⟩
      rw [Store.target_congr (welcome.path last hlast ap.1 (hmem ap hap) hname)]
      exact htarget ap hap

/-- Registering components that are welcome keeps the mirror, also if it stops half way. -/
theorem registerBy (orderly : device.Orderly) (h : Mirrors here output home spared d)
    (welcome : Welcome here output home artifacts d) (hown : ∀ a ∈ artifacts, own a.name) :
    Mirrors here output home spared (final (registerBy device artifacts d)) ∧
      Apart home own d (final (registerBy device artifacts d)) := by
  have hothers : ∀ name, ¬ own name →
      (final (Depot.registerBy device artifacts d)).store.get? name = d.store.get? name := by
    intro name hname
    refine get?_registerBy device d fun hmem => ?_
    obtain ⟨a, ha, rfl⟩ := List.mem_map.1 hmem
    exact hname (hown a ha)
  unfold Depot.registerBy at hothers ⊢
  simp only [h.directory, h.start] at hothers ⊢
  cases htargets : Store.targets here output artifacts with
  | error f => exact ⟨h, Apart.refl d⟩
  | ok places =>
    have htarget := (Store.targets_ok htargets).2
    simp only [htargets] at hothers
    have hframe : Disk.Frame (fun q => ∃ ap ∈ artifacts.zip places, ap.2 = q) d.disk
        (final (writeAll device (artifacts.zip places) (d.keep artifacts))).disk :=
      frame_writeAll orderly.framed
        (fun ap hap => ⟨Store.dots_not_mem_target (htarget ap hap), ap, hap, rfl⟩)
        (d.keep artifacts)
    refine ⟨h.keep welcome htargets (store_writeAll device _ _) hframe, hothers, hframe.mono ?_⟩
    rintro q ⟨ap, hap, rfl⟩
    have hmem : ap.1 ∈ artifacts := (List.of_mem_zip hap).1
    exact ⟨ap.1.name, hown ap.1 hmem, welcome.homes ap.1 hmem ap.2 (htarget ap hap)⟩

/-- Once components are registered, each name has the last one of that name, and its code is in the
file that lies there, if no other name is at home there. -/
theorem registerBy_ok (orderly : device.Orderly) (h : Mirrors here output home spared d)
    (welcome : Welcome here output home artifacts d)
    (hregister : Depot.registerBy device artifacts d = .ok () d') {name : String}
    (hname : name ∈ artifacts.map Artifact.name) :
    ∃ a q, (artifacts.reverse.find? fun a => a.name = name) = some a ∧
      d'.store.get? name = some a ∧ Store.target here output a = .ok q ∧
      ((∀ other, home other q → other = name) →
        d'.disk.bytes? q = some (Text.Percent.utf8 a.code.toList)) := by
  have hstore := store_registerBy_ok hregister
  unfold Depot.registerBy at hregister
  simp only [h.directory, h.start] at hregister
  cases htargets : Store.targets here output artifacts with
  | error f =>
    rw [htargets] at hregister
    cases hregister
  | ok places =>
    rw [htargets] at hregister
    obtain ⟨hmap, htarget⟩ := Store.targets_ok htargets
    obtain ⟨a, ha, rfl⟩ := List.mem_map.1 hname
    obtain ⟨last, hmem, hlastName, hfind, hget⟩ := get?_keep_of_mem (d := d) ha
    -- The component is found in the same way among those that are written.
    have hzip : artifacts.reverse = (artifacts.zip places).reverse.map Prod.fst := by
      rw [List.map_reverse, hmap]
    rw [hzip, List.find?_map, Option.map_eq_some_iff] at hfind
    obtain ⟨ap, hap, rfl⟩ := hfind
    have hapMem := List.mem_reverse.1 (List.mem_of_find?_eq_some hap)
    refine ⟨ap.1, ap.2, ?_, by rw [hstore, hget], htarget ap hapMem, fun honly => ?_⟩
    · rw [hzip, List.find?_map, hap]
      rfl
    · refine bytes?_writeAll orderly (fun ap hap => Store.dots_not_mem_target (htarget ap hap))
        hregister ?_
      rw [← hap]
      refine List.find?_congr fun other hother => ?_
      have hotherMem := List.mem_reverse.1 hother
      have hotherFst : other.1 ∈ artifacts := (List.of_mem_zip hotherMem).1
      have hhome := welcome.homes other.1 hotherFst other.2 (htarget other hotherMem)
      rw [Function.comp_apply, ← hlastName, decide_eq_decide]
      constructor
      · intro hplace
        rw [hplace] at hhome
        exact (honly other.1.name hhome).trans hlastName.symm
      · intro hotherName
        have hpath := welcome.path other.1 hotherFst ap.1 hmem hotherName
        have hsame := htarget other hotherMem
        rw [Store.target_congr hpath, htarget ap hapMem] at hsame
        exact (Except.ok.inj hsame).symm

end Mirrors

end Depot

end DemoPages
