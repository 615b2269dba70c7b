import DemoPages.Proofs.Depots
import DemoPages.Proofs.Histories

/-!
# Files that are left over

Removing forgets a component before it deletes its file. So where the deletion fails, the component
is forgotten, as are those in front of it, while those behind it are kept (`removeBy_error`). The
registry still has all their names, and the next pass over the page asks for them again; but
removing passes over the names that are forgotten (`removeBy_of_forgotten`), so the deletions that
are made up for are those behind the one that failed, and its own file is left over
(`removeBy_leaves_over`).
-/

namespace DemoPages

open Effect

namespace Depot

variable {device : Disk.Device} {d d' : Depot} {names : List String} {f : Fault}

/-- A component fails to be removed only if it is there. -/
theorem removeOne_error {name : String} (h : removeOne device name d = .error f d') :
    ∃ a, d.store.get? name = some a := by
  unfold removeOne at h
  split at h
  · cases h
  · exact ⟨_, ‹_›⟩

/-- Removing fails at one of the names, when those in front of it are removed. -/
theorem removeBy_error (h : removeBy device names d = .error f d') :
    ∃ done name rest u, names = done ++ name :: rest ∧ removeBy device done d = .ok () u ∧
      removeOne device name u = .error f d' := by
  induction names generalizing d with
  | nil => cases h
  | cons name names ih =>
    rcases bind_error.1 h with hone | ⟨_, t, hone, hrest⟩
    · exact ⟨[], name, names, d, rfl, rfl, hone⟩
    · obtain ⟨done, name', rest, u, rfl, hdone, hfails⟩ := ih hrest
      exact ⟨name :: done, name', rest, u, rfl, bind_ok.2 ⟨(), t, hone, hdone⟩, hfails⟩

/-- Removing passes over names that are forgotten. -/
theorem removeBy_of_forgotten {gone : List String} (h : ∀ name ∈ gone, d.store.get? name = none)
    (rest : List String) : removeBy device (gone ++ rest) d = removeBy device rest d := by
  induction gone with
  | nil => rfl
  | cons name gone ih =>
    have hone : removeOne device name d = .ok () d := by
      unfold removeOne
      rw [h name List.mem_cons_self]
    exact (bind_of_ok hone _).trans (ih fun name' hname => h name' (List.mem_cons_of_mem _ hname))

/-- What is kept when removing fails. -/
theorem get?_of_removeBy_error {done : List String} {name : String} {u : Depot}
    (hdone : removeBy device done d = .ok () u) (hfails : removeOne device name u = .error f d')
    (name' : String) :
    d'.store.get? name' = if name' ∈ done ++ [name] then none else d.store.get? name' := by
  have hstore := store_removeOne device name u
  rw [hfails, final_error, store_removeBy_ok hdone] at hstore
  rw [hstore, Store.get?_without, Store.get?_without]
  by_cases hname : name' = name <;> by_cases hmem : name' ∈ done <;> simp [hname, hmem]

end Depot

/-! ### The next pass -/

namespace Visit

variable {σ : Type} (here : Place) (k : Keeper σ) (v : Visit)

/-- A pass whose keeper fails to remove components leaves the registry as it was. -/
theorem after_of_remove_error {s : Shared σ} (named : v.file ≠ "") (ready : v.IsReady s) {f : Fault}
    {kept : σ} (removes : k.remove (s.registry.get v.file) s.kept = .error f kept) :
    Effect.succeeds (v.run here k s) = false ∧ (v.after here k s).kept = kept ∧
      ∀ file, (v.after here k s).registry.get file = s.registry.get file := by
  obtain ⟨columns, ready⟩ := ready
  have ending := Pass.run_ending here k v.extractor (v.start s)
  unfold after run
  generalize Pass.run here k v.extractor (v.start s) = r at ending ⊢
  cases ending with
  | columns unread => exact absurd (Or.inl ⟨_, unread⟩) ready.no_cause
  | unnamed read file => exact absurd file named
  | highlighter read gives => exact absurd gives ready.not_givesUp
  | remove _ removes' =>
    obtain ⟨-, rfl⟩ := EStateM.Result.error.inj (removes.symm.trans removes')
    exact ⟨rfl, rfl, fun _ => rfl⟩
  | register _ removes' => cases removes.symm.trans removes'
  | done _ removes' => cases removes.symm.trans removes'

/-- A pass whose components can be computed begins by having those on record removed. -/
theorem told_of_ready {s : Shared σ} (named : v.file ≠ "") (ready : v.IsReady s) :
    ∃ done told, v.told here k s = ⟨.remove (s.registry.get v.file), done⟩ :: told := by
  rcases v.told_cases here k s with ⟨-, unready, -⟩ | ⟨htold, -⟩ | ⟨done, htold, -⟩
  · exact absurd ready (unready named)
  · exact ⟨_, _, htold⟩
  · exact ⟨_, _, htold⟩

end Visit

/-! ### What is made up for -/

namespace Depot

variable {device : Disk.Device} {d d' : Depot} {names : List String} {f : Fault}

/-- **Where removing fails, a file is left over.** The component that it fails at is forgotten, as
are those in front of it; those behind it are kept as they were. A pass that fails there leaves the
registry as it was, so the next pass over the page asks for the same names, but what is done then is
to remove those behind. -/
theorem removeBy_leaves_over (h : removeBy device names d = .error f d') :
    ∃ done name rest a, names = done ++ name :: rest ∧
      (∃ u, removeBy device done d = .ok () u ∧ removeOne device name u = .error f d') ∧
      name ∉ done ∧ d.store.get? name = some a ∧
      (∀ name', d'.store.get? name' =
        if name' ∈ done ++ [name] then none else d.store.get? name') ∧
      (∀ device' (later : Depot), later.store = d'.store →
        removeBy device' names later = removeBy device' rest later) ∧
      ∀ here (v : Visit) (registry : Registry), v.file ≠ "" → registry.get v.file = names →
        v.IsReady ⟨registry, d⟩ →
        let s := v.after here (Keeper.depotBy device) ⟨registry, d⟩
        Effect.succeeds (v.run here (Keeper.depotBy device) ⟨registry, d⟩) = false ∧ s.kept = d' ∧
          (∀ file, s.registry.get file = registry.get file) ∧
          ∀ (v' : Visit) device' (later : Depot), v'.file = v.file →
            v'.IsReady ⟨s.registry, later⟩ →
            ∃ ok told, v'.told here (Keeper.depotBy device') ⟨s.registry, later⟩ =
              ⟨.remove names, ok⟩ :: told := by
  obtain ⟨done, name, rest, u, rfl, hdone, hfails⟩ := removeBy_error h
  have hget := get?_of_removeBy_error hdone hfails
  obtain ⟨a, ha⟩ := removeOne_error hfails
  rw [store_removeBy_ok hdone, Store.get?_without] at ha
  have hname : name ∉ done := by
    intro hmem
    rw [if_pos hmem] at ha
    cases ha
  rw [if_neg hname] at ha
  refine ⟨done, name, rest, a, rfl, ⟨u, hdone, hfails⟩, hname, ha, hget, ?_, ?_⟩
  · intro device' later hlater
    rw [List.append_cons]
    refine removeBy_of_forgotten (fun name' hmem => ?_) rest
    rw [hlater, hget, if_pos hmem]
  · intro here v registry named hnames ready s
    obtain ⟨hfailed, hkept, hregistry⟩ :=
      v.after_of_remove_error here (Keeper.depotBy device) named ready (hnames ▸ h)
    refine ⟨hfailed, hkept, hregistry, ?_⟩
    intro v' device' later hfile ready'
    obtain ⟨ok, told, htold⟩ :=
      v'.told_of_ready here (Keeper.depotBy device') (hfile ▸ named) ready'
    refine ⟨ok, told, ?_⟩
    rw [htold, hfile, hregistry, hnames]

/-- A directory stands in place of the first of two files; the pass and the one after it are over a
page that has no demos any more. -/
theorem removeBy_leaves_over_directory :
    let d : Depot :=
      { store := { output := some (.ofString "out"), artifacts :=
          ⟨[("A", ⟨"A", "/a.vue", "<a/>"⟩), ("B", ⟨"B", "/b.vue", "<b/>"⟩)]⟩ }
        disk := { entries := ⟨[(["out"], .directory), (["out", "a.vue"], .directory)]⟩ } }
    let v := Visit.plain "/x.md" "/" ".vue" []
    let registry := ({} : Registry).set "/x.md" ["A", "B"]
    let s := v.after [] (Keeper.depotBy .sound) ⟨registry, d⟩
    s.registry.get "/x.md" = ["A", "B"] ∧ s.kept.store.get? "A" = none ∧
      s.kept.store.get? "B" = some ⟨"B", "/b.vue", "<b/>"⟩ ∧
      removeBy .sound ["A", "B"] s.kept = removeBy .sound ["B"] s.kept := by
  intro d v registry s
  have hfails : removeBy .sound ["A", "B"] d = .error (.disk ⟨.isDirectory, "/out/a.vue"⟩)
      (final (removeBy .sound ["A", "B"] d)) := rfl
  obtain ⟨done, name, rest, a, hsplit, ⟨u, hdone, -⟩, -, -, hget, hagain, hpass⟩ :=
    removeBy_leaves_over hfails
  have hregistry : registry.get v.file = ["A", "B"] := rfl
  have ready : v.IsReady ⟨registry, d⟩ :=
    ⟨1, rfl, fun hcodes => absurd rfl hcodes, fun _ _ hn => nomatch hn⟩
  obtain ⟨-, hkept, hsame, -⟩ := hpass [] v registry (by decide) hregistry ready
  cases done with
  | nil =>
    obtain ⟨rfl, rfl⟩ := List.cons.inj hsplit
    refine ⟨hsame "/x.md", ?_, ?_, hagain .sound s.kept (congrArg Depot.store hkept)⟩
    · rw [hkept, hget]
      rfl
    · rw [hkept, hget]
      rfl
  | cons first done =>
    obtain ⟨rfl, -⟩ := List.cons.inj hsplit
    obtain ⟨_, t, hfirst, -⟩ := bind_ok.1 hdone
    cases hfirst

/-- The component of the file that could not be deleted is forgotten, so once the file is back,
removing the same names again leaves it where it is. -/
theorem remove_forgets_undeleted :
    let a : Artifact := ⟨"A", "/a.vue", "<a/>"⟩
    let b : Artifact := ⟨"B", "/b.vue", "<b/>"⟩
    let blocked : Disk := { entries := ⟨[(["out"], .directory), (["out", "a.vue"], .directory),
      (["out", "b.vue"], .file [60])]⟩ }
    let d : Depot :=
      { store := { output := some (.ofString "out"), artifacts := ⟨[("A", a), ("B", b)]⟩ }
        disk := blocked }
    let d' := final (remove ["A", "B"] d)
    let later := final
      (remove ["A", "B"] { d' with disk := blocked.set ["out", "a.vue"] (.file [62]) })
    remove ["A", "B"] d = .error (.disk ⟨.isDirectory, "/out/a.vue"⟩) d' ∧
      d.store.get? "A" = some a ∧ d'.store.get? "A" = none ∧ d'.store.get? "B" = some b ∧
      later.disk.bytes? ["out", "a.vue"] = some [62] ∧
      later.disk.bytes? ["out", "b.vue"] = none := by
  refine ⟨rfl, ?_, ?_, ?_, ?_, ?_⟩ <;> decide +kernel

end Depot

end DemoPages
