import DemoPages.Proofs.Accounts
import DemoPages.Proofs.Mirrors

/-!
# What a pass leaves on the disk

What becomes of the file at one place. Removing components deletes what lies where they lie
(`Depot.bytes?_removeBy`), registering components leaves the code of the last one that comes to lie
there (`Depot.bytes?_registerBy`), and both leave all other places alone. So a pass that ends well
comes to one thing at each place, `Visit.leaves`, which depends on the components of its own page
alone (`Visit.bytes?_after`).
-/

namespace DemoPages

open Effect

/-- The place of a component's file, if there is an output directory and the path stays within. -/
def Store.place? (here : Place) (s : Store) (a : Artifact) : Option Place :=
  s.output.bind fun output => (Store.target here output a).toOption

namespace Store

variable {here : Place} {s s' : Store} {a : Artifact} {q : Place}

theorem place?_eq_some : s.place? here a = some q ↔
    ∃ output, s.output = some output ∧ target here output a = .ok q := by
  unfold place?
  rw [Option.bind_eq_some_iff]
  refine exists_congr fun output => and_congr_right fun _ => ?_
  cases target here output a with
  | error f => simp [Except.toOption]
  | ok place => simp [Except.toOption]

theorem place?_congr (h : s'.output = s.output) : s'.place? here = s.place? here := by
  funext a
  unfold place?
  rw [h]

end Store

namespace Depot

variable {device : Disk.Device} {d d' : Depot} {q : Place} {names : List String}
  {artifacts : List Artifact}

/-- Does the component of one of these names lie at this place? -/
def LiesAt (d : Depot) (names : List String) (q : Place) : Prop :=
  ∃ name ∈ names, (d.store.get? name).bind (d.store.place? d.disk.here) = some q

instance (d : Depot) (names : List String) (q : Place) : Decidable (d.LiesAt names q) :=
  inferInstanceAs (Decidable (∃ name ∈ names, _))

theorem liesAt_congr (hhere : d'.disk.here = d.disk.here)
    (houtput : d'.store.output = d.store.output)
    (hget : ∀ name ∈ names, d'.store.get? name = d.store.get? name) (q : Place) :
    d'.LiesAt names q ↔ d.LiesAt names q := by
  unfold LiesAt
  rw [hhere, Store.place?_congr houtput]
  refine exists_congr fun name => and_congr_right fun hname => ?_
  rw [hget name hname]

/-! ### Removing -/

/-- Removing a component deletes the file at its place, if it has one. -/
theorem disk_removeOne (device : Disk.Device) (name : String) (d : Depot) :
    (final (removeOne device name d)).disk =
      match (d.store.get? name).bind (d.store.place? d.disk.here) with
      | none => d.disk
      | some place => final (device.deleteFile (Place.toPath place) d.disk) := by
  unfold removeOne
  cases hget : d.store.get? name with
  | none => rfl
  | some a =>
    simp only [Option.bind_some, Store.place?]
    cases houtput : d.store.output with
    | none => rfl
    | some output =>
      simp only [Option.bind_some]
      cases htarget : Store.target d.disk.here output a with
      | error f => rfl
      | ok place =>
        simp only [Except.toOption]
        rw [disk_onDisk]
        rfl

/-- A component that is removed, and has a file, has its file deleted. -/
theorem deleteFile_of_removeOne {name : String} (h : removeOne device name d = .ok () d')
    (hplace : (d.store.get? name).bind (d.store.place? d.disk.here) = some q) :
    device.deleteFile (Place.toPath q) d.disk = .ok () d'.disk := by
  obtain ⟨a, hget, ha⟩ := Option.bind_eq_some_iff.1 hplace
  obtain ⟨output, houtput, htarget⟩ := Store.place?_eq_some.1 ha
  simp only [removeOne, hget, houtput, htarget] at h
  have hdelete := onDisk_ok h
  exact hdelete

theorem frame_removeOne (framed : device.Framed) (name : String) (d : Depot) :
    Disk.Frame (d.LiesAt [name]) d.disk (final (removeOne device name d)).disk := by
  rw [disk_removeOne]
  cases hplace : (d.store.get? name).bind (d.store.place? d.disk.here) with
  | none => exact Disk.Frame.refl d.disk
  | some place =>
    obtain ⟨a, -, ha⟩ := Option.bind_eq_some_iff.1 hplace
    obtain ⟨output, -, htarget⟩ := Store.place?_eq_some.1 ha
    refine (framed.deletes place (Store.dots_not_mem_target htarget) d.disk).mono ?_
    rintro _ rfl
    exact ⟨name, List.mem_cons_self, hplace⟩

/-- A component that is left lies where it lay. -/
theorem liesAt_removeOne (framed : device.Framed) (name : String) (d : Depot) (names : List String)
    (q : Place) :
    (final (removeOne device name d)).LiesAt names q ↔
      ∃ name' ∈ names, name' ≠ name ∧
        (d.store.get? name').bind (d.store.place? d.disk.here) = some q := by
  unfold LiesAt
  rw [store_removeOne, (frame_removeOne framed name d).here]
  refine exists_congr fun name' => and_congr_right fun _ => ?_
  have houtput : (d.store.without [name]).place? d.disk.here = d.store.place? d.disk.here :=
    Store.place?_congr rfl
  rw [Store.get?_without, houtput]
  by_cases heq : name' = name <;> simp [heq]

/-- Removing touches the places of the components of these names. -/
theorem frame_removeBy (framed : device.Framed) (names : List String) (d : Depot) :
    Disk.Frame (d.LiesAt names) d.disk (final (removeBy device names d)).disk := by
  induction names generalizing d with
  | nil => exact Disk.Frame.refl _
  | cons name names ih =>
    have hfirst : Disk.Frame (d.LiesAt (name :: names)) d.disk
        (final (removeOne device name d)).disk := by
      refine (frame_removeOne framed name d).mono ?_
      rintro q ⟨name', hname', hq⟩
      exact ⟨name', List.mem_cons.2 (Or.inl (List.mem_singleton.1 hname')), hq⟩
    unfold removeBy
    cases hone : removeOne device name d with
    | error f u =>
      rw [hone] at hfirst
      rwa [bind_of_error hone]
    | ok _ u =>
      rw [bind_of_ok hone]
      rw [hone, final_ok] at hfirst
      refine hfirst.trans ((ih u).mono fun q hq => ?_)
      rw [← final_ok () u, ← hone] at hq
      obtain ⟨name', hname', -, hplace⟩ := (liesAt_removeOne framed name d names q).1 hq
      exact ⟨name', List.mem_cons_of_mem _ hname', hplace⟩

/-- **Removing deletes what lies where the components lie**, if it can be found. -/
theorem bytes?_removeBy (orderly : device.Orderly)
    (found : ∀ bytes, d.disk.bytes? q = some bytes → d.disk.Found q)
    (h : removeBy device names d = .ok () d') (hq : d.LiesAt names q) :
    d'.disk.bytes? q = none := by
  induction names generalizing d with
  | nil =>
    obtain ⟨name, hname, -⟩ := hq
    cases hname
  | cons name names ih =>
    obtain ⟨_, u, hone, hrest⟩ := bind_ok.1 h
    have hframe := frame_removeOne orderly.framed name d
    have hlies := liesAt_removeOne orderly.framed name d names q
    simp only [hone, final_ok] at hframe hlies
    have hfound : ∀ bytes, u.disk.bytes? q = some bytes → u.disk.Found q := by
      intro bytes hbytes
      rcases hframe.came q bytes hbytes with hbefore | ⟨-, hfound⟩
      · exact (found bytes hbefore).mono hframe.directories
      · exact hfound
    by_cases hlater : u.LiesAt names q
    · exact ih hfound hrest hlater
    · -- The first name is the one that lies there, and the others leave the place alone.
      have hothers := (frame_removeBy orderly.framed names u).others q hlater
      rw [hrest, final_ok] at hothers
      have hfirst : (d.store.get? name).bind (d.store.place? d.disk.here) = some q := by
        obtain ⟨name', hname', hplace⟩ := hq
        by_cases heq : name' = name
        · rwa [← heq]
        · exact absurd (hlies.2 ⟨name', (List.mem_cons.1 hname').resolve_left heq, heq, hplace⟩)
            hlater
      rw [hothers]
      exact orderly.deleted q d.disk u.disk found (deleteFile_of_removeOne hone hfirst)

/-! ### Registering -/

/-- What is written when components are registered and nothing fails. -/
theorem registerBy_ok (h : registerBy device artifacts d = .ok () d') :
    (∃ l : List (Artifact × Place), writeAll device l (d.keep artifacts) = .ok () d' ∧
      (∀ ap ∈ l, d.store.place? d.disk.here ap.1 = some ap.2) ∧
      ∀ q, (artifacts.reverse.find? fun a => d.store.place? d.disk.here a = some q) =
        (l.reverse.find? fun ap => ap.2 = q).map Prod.fst) := by
  unfold registerBy at h
  cases houtput : d.store.output with
  | none =>
    simp only [houtput] at h
    refine ⟨[], h, by simp, fun q => ?_⟩
    simp [Store.place?, houtput]
  | some output =>
    simp only [houtput] at h
    cases htargets : Store.targets d.disk.here output artifacts with
    | error f =>
      simp only [htargets] at h
      cases h
    | ok places =>
      simp only [htargets] at h
      obtain ⟨hmap, htarget⟩ := Store.targets_ok htargets
      have hplace : ∀ ap ∈ artifacts.zip places, d.store.place? d.disk.here ap.1 = some ap.2 :=
        fun ap hap => Store.place?_eq_some.2 ⟨output, houtput, htarget ap hap⟩
      refine ⟨_, h, hplace, fun q => ?_⟩
      have hzip : artifacts.reverse = (artifacts.zip places).reverse.map Prod.fst := by
        rw [List.map_reverse, hmap]
      rw [hzip, List.find?_map]
      congr 1
      refine List.find?_congr fun ap hap => ?_
      rw [Function.comp_apply, hplace ap (List.mem_reverse.1 hap), decide_eq_decide,
        Option.some_inj]

/-- What is registered below an output directory has a place there. -/
theorem exists_target_of_registerBy {output : Path} (houtput : d.store.output = some output)
    (h : registerBy device artifacts d = .ok () d') {a : Artifact} (ha : a ∈ artifacts) :
    ∃ place, Store.target d.disk.here output a = .ok place := by
  unfold registerBy at h
  simp only [houtput] at h
  cases htargets : Store.targets d.disk.here output artifacts with
  | error f =>
    simp only [htargets] at h
    cases h
  | ok places =>
    obtain ⟨hmap, htarget⟩ := Store.targets_ok htargets
    rw [← hmap] at ha
    obtain ⟨ap, hap, rfl⟩ := List.mem_map.1 ha
    exact ⟨ap.2, htarget ap hap⟩

/-- Registering touches the places of the components. -/
theorem frame_registerBy (framed : device.Framed) (artifacts : List Artifact) (d : Depot) :
    Disk.Frame (fun q => ∃ a ∈ artifacts, d.store.place? d.disk.here a = some q) d.disk
      (final (registerBy device artifacts d)).disk := by
  unfold registerBy
  cases houtput : d.store.output with
  | none => exact Disk.Frame.refl d.disk
  | some output =>
    simp only
    cases htargets : Store.targets d.disk.here output artifacts with
    | error f => exact Disk.Frame.refl d.disk
    | ok places =>
      obtain ⟨hmap, htarget⟩ := Store.targets_ok htargets
      refine frame_writeAll framed (fun ap hap => ?_) (d.keep artifacts)
      refine ⟨Store.dots_not_mem_target (htarget ap hap), ap.1, ?_, ?_⟩
      · rw [← hmap]
        exact List.mem_map_of_mem hap
      · exact Store.place?_eq_some.2 ⟨output, houtput, htarget ap hap⟩

/-- **Registering leaves the code of the last component that comes to lie at a place.** -/
theorem bytes?_registerBy (orderly : device.Orderly)
    (h : registerBy device artifacts d = .ok () d') (q : Place) :
    d'.disk.bytes? q =
      match artifacts.reverse.find? fun a => d.store.place? d.disk.here a = some q with
      | none => d.disk.bytes? q
      | some a => some (Text.Percent.utf8 a.code.toList) := by
  obtain ⟨l, hwrite, hplaces, hfind⟩ := registerBy_ok h
  have hdots : ∀ ap ∈ l, ".." ∉ ap.2 := by
    intro ap hap
    obtain ⟨output, -, htarget⟩ := Store.place?_eq_some.1 (hplaces ap hap)
    exact Store.dots_not_mem_target htarget
  rw [hfind]
  cases hlast : l.reverse.find? fun ap => ap.2 = q with
  | some ap => exact bytes?_writeAll orderly hdots hwrite hlast
  | none =>
    have hne : ∀ ap ∈ l, ap.2 ≠ q := by
      intro ap hap
      simpa using List.find?_eq_none.1 hlast ap (List.mem_reverse.2 hap)
    have hframe : Disk.Frame (· ≠ q) d.disk (final (writeAll device l (d.keep artifacts))).disk :=
      frame_writeAll orderly.framed (fun ap hap => ⟨hdots ap hap, hne ap hap⟩) (d.keep artifacts)
    rw [hwrite, final_ok] at hframe
    exact hframe.others q fun h => h rfl

end Depot

/-! ### Passes -/

namespace Visit

/-- What a pass that ends well comes to at a place: a file with these bytes, no file, or nothing if
it leaves the place alone. -/
def leaves (here : Place) (v : Visit) (s : Shared Depot) (q : Place) :
    Option (Option (List UInt8)) :=
  match (v.components here).reverse.find? fun a => s.kept.store.place? here a = some q with
  | some a => some (some (Text.Percent.utf8 a.code.toList))
  | none => if s.kept.LiesAt (s.registry.get v.file) q then some none else none

variable {here : Place} {device : Disk.Device} {v : Visit} {s : Shared Depot} {q : Place}

theorem leaves_congr {s' : Shared Depot} (hhere : s'.kept.disk.here = s.kept.disk.here)
    (houtput : s'.kept.store.output = s.kept.store.output)
    (hentry : s'.registry.get v.file = s.registry.get v.file)
    (hget : ∀ name ∈ s.registry.get v.file, s'.kept.store.get? name = s.kept.store.get? name) :
    v.leaves here s' q = v.leaves here s q := by
  unfold leaves
  rw [Store.place?_congr houtput, hentry]
  simp only [Depot.liesAt_congr hhere houtput hget]

/-- Where a pass leaves anything, one of the components of its page lies, or lay. -/
theorem exists_of_leaves (h : v.leaves here s q ≠ none) :
    (∃ a ∈ v.components here, s.kept.store.place? here a = some q) ∨
      s.kept.LiesAt (s.registry.get v.file) q := by
  unfold leaves at h
  split at h
  · rename_i a hfind
    exact Or.inl ⟨a, List.mem_reverse.1 (List.mem_of_find?_eq_some hfind),
      by simpa using List.find?_some hfind⟩
  · split at h
    · rename_i hlies
      exact Or.inr hlies
    · exact absurd rfl h

/-- A pass touches the places of the components that its page had and has, however it ends. -/
theorem frame_after (framed : device.Framed) (v : Visit) (hstart : s.kept.disk.here = here) :
    Disk.Frame (fun q => s.kept.LiesAt (s.registry.get v.file) q ∨
      ∃ a ∈ v.components here, s.kept.store.place? here a = some q)
      s.kept.disk (v.after here (Keeper.depotBy device) s).kept.disk := by
  have hremove := Depot.frame_removeBy framed (s.registry.get v.file) s.kept
  rcases v.after_cases here (Keeper.depotBy device) s with
    ⟨hkept, -⟩ | ⟨f, removes, -⟩ | ⟨kept, removes, hkept, -, -⟩
  · rw [hkept]
    exact Disk.Frame.refl s.kept.disk
  · change Depot.removeBy device _ _ = _ at removes
    rw [removes, final_error] at hremove
    exact hremove.mono fun q hq => Or.inl hq
  · change Depot.removeBy device _ _ = _ at removes
    rw [removes, final_ok] at hremove
    rw [hkept]
    refine (hremove.mono fun q hq => Or.inl hq).trans ?_
    have houtput : kept.store.output = s.kept.store.output := by
      rw [Depot.store_removeBy_ok removes]
      rfl
    have hregister := Depot.frame_registerBy framed (v.components here) kept
    rw [Store.place?_congr houtput, hremove.here, hstart] at hregister
    exact hregister.mono fun q hq => Or.inr hq

/-- **What lies at a place after a pass that ends well** is what the pass leaves there, or what lay
there before. -/
theorem bytes?_after (orderly : device.Orderly) (hstart : s.kept.disk.here = here)
    (found : s.kept.LiesAt (s.registry.get v.file) q →
      ∀ bytes, s.kept.disk.bytes? q = some bytes → s.kept.disk.Found q)
    {t : Pass.State Depot} (h : v.run here (Keeper.depotBy device) s = .ok () t) :
    (v.after here (Keeper.depotBy device) s).kept.disk.bytes? q =
      (v.leaves here s q).getD (s.kept.disk.bytes? q) := by
  obtain ⟨-, kept, removes, registers⟩ := Visit.after_of_ok here _ v h
  change Depot.removeBy device _ _ = _ at removes
  change Depot.registerBy device _ _ = _ at registers
  have houtput : kept.store.output = s.kept.store.output := by
    rw [Depot.store_removeBy_ok removes]
    rfl
  have hframe := Depot.frame_removeBy orderly.framed (s.registry.get v.file) s.kept
  rw [removes, final_ok] at hframe
  rw [Depot.bytes?_registerBy orderly registers q, Store.place?_congr houtput, hframe.here, hstart]
  unfold leaves
  cases hfind : (v.components here).reverse.find? fun a => s.kept.store.place? here a = some q with
  | some a => rfl
  | none =>
    simp only
    by_cases hlies : s.kept.LiesAt (s.registry.get v.file) q
    · rw [if_pos hlies]
      exact Depot.bytes?_removeBy orderly (found hlies) removes hlies
    · rw [if_neg hlies]
      exact hframe.others q hlies

/-- The component of a name after a pass that ends well. -/
theorem get?_after {t : Pass.State Depot} (h : v.run here (Keeper.depotBy device) s = .ok () t)
    (name : String) :
    (v.after here (Keeper.depotBy device) s).kept.store.get? name =
      ((v.components here).reverse.find? fun a => a.name = name).or
        (if name ∈ s.registry.get v.file then none else s.kept.store.get? name) := by
  obtain ⟨-, kept, removes, registers⟩ := Visit.after_of_ok here _ v h
  rw [Depot.store_registerBy_ok registers, Depot.get?_keep, Depot.store_removeBy_ok removes,
    Store.get?_without]

end Visit

end DemoPages
