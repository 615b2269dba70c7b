import DemoPages.Proofs.Depots
import DemoPages.Proofs.Sessions

/-!
# Every component in the store is on account

A store holds no component that the registry has lost sight of: whatever pages are passed over, in
whatever order, and however each pass ends, every name in the store is recorded for some file
(`names_recorded`), so the next pass over that file has it removed.

The device is arbitrary, and may be another one in each pass: it may fail at any file, leave a file
half written, or change the disk in any other way.
-/

namespace DemoPages

/-- Every name in the store is recorded for some file. -/
def Accounted (registry : Registry) (store : Store) : Prop :=
  ∀ name ∈ store.names, ∃ file, name ∈ registry.get file

namespace Visit

variable (here : Place) (device : Disk.Device) (v : Visit) (s : Shared Depot)

/-- A name that is recorded after a pass was recorded before, or is one of the page's. -/
theorem mem_get_after {file name : String}
    (h : name ∈ (v.after here (Keeper.depotBy device) s).registry.get file) :
    name ∈ s.registry.get file ∨ file = v.file ∧ name ∈ v.names here := by
  rcases v.after_cases here (Keeper.depotBy device) s with
    ⟨-, hget⟩ | ⟨f, -, hget, -⟩ | ⟨kept, -, -, hown, hothers⟩
  · exact Or.inl (hget file ▸ h)
  · exact Or.inl (hget file ▸ h)
  · by_cases hfile : file = v.file
    · subst hfile
      exact Or.inr ⟨rfl, hown ▸ h⟩
    · exact Or.inl (hothers file hfile ▸ h)

/-- The store after a pass: some components have gone, and those of the page may have come. -/
theorem store_after : ∃ gone ⊆ s.registry.get v.file,
    (v.after here (Keeper.depotBy device) s).kept.store = s.kept.store.without gone ∨
    (v.after here (Keeper.depotBy device) s).kept.store =
      (Depot.keep (v.components here)
        { s.kept with store := s.kept.store.without gone }).store := by
  rcases v.after_cases here (Keeper.depotBy device) s with
    ⟨hkept, -⟩ | ⟨f, removes, -⟩ | ⟨kept, removes, hkept, -, -⟩
  · exact ⟨[], List.nil_subset _, Or.inl (by rw [hkept]; rfl)⟩
  · obtain ⟨gone, hgone, hstore⟩ := Depot.store_removeBy_error removes
    exact ⟨gone, hgone.subset, Or.inl hstore⟩
  · have hstore := Depot.store_removeBy_ok removes
    refine ⟨_, List.Subset.refl _, ?_⟩
    rw [hkept]
    rcases Depot.store_registerBy device (v.components here) kept with hkeep | hsame
    · refine Or.inr (hkeep.trans ?_)
      unfold Depot.keep
      rw [hstore]
    · exact Or.inl (hsame.trans hstore)

/-- A pass keeps the output directory. -/
theorem output_after :
    (v.after here (Keeper.depotBy device) s).kept.store.output = s.kept.store.output := by
  obtain ⟨gone, -, hstore | hstore⟩ := v.store_after here device s <;> rw [hstore] <;> rfl

/-- A component that is in the store after a pass was there before, or is one of the page's. -/
theorem get?_after_cases {name : String} {a : Artifact}
    (h : (v.after here (Keeper.depotBy device) s).kept.store.get? name = some a) :
    s.kept.store.get? name = some a ∨ a ∈ v.components here ∧ a.name = name := by
  have hbefore : ∀ gone, (s.kept.store.without gone).get? name = some a →
      s.kept.store.get? name = some a := by
    intro gone ha
    rw [Store.get?_without] at ha
    split at ha
    · cases ha
    · exact ha
  obtain ⟨gone, -, hstore | hstore⟩ := v.store_after here device s
  · rw [hstore] at h
    exact Or.inl (hbefore gone h)
  · rw [hstore] at h
    exact (Depot.get?_keep_cases h).symm.imp_left (hbefore gone)

end Visit

/-- A pass keeps the store on account, however it ends. -/
theorem Visit.accounted_after (here : Place) (device : Disk.Device) (v : Visit) {s : Shared Depot}
    (h : Accounted s.registry s.kept.store) :
    Accounted (v.after here (Keeper.depotBy device) s).registry
      (v.after here (Keeper.depotBy device) s).kept.store := by
  intro name hname
  rcases v.after_cases here (Keeper.depotBy device) s with
    ⟨hkept, hget⟩ | ⟨f, removes, hget, -⟩ | ⟨kept, removes, hkept, hown, hothers⟩
  · rw [hkept] at hname
    obtain ⟨file, hfile⟩ := h name hname
    exact ⟨file, by rwa [hget]⟩
  · obtain ⟨gone, -, hstore⟩ := Depot.store_removeBy_error removes
    rw [hstore, Store.mem_names_without] at hname
    obtain ⟨file, hfile⟩ := h name hname.2
    exact ⟨file, by rwa [hget]⟩
  · rw [hkept] at hname
    rcases Depot.mem_names_registerBy hname with hnew | hold
    · exact ⟨v.file, by rwa [hown]⟩
    · -- A name that is left was not recorded for this page, so its entry is still there.
      rw [Depot.store_removeBy_ok removes, Store.mem_names_without] at hold
      obtain ⟨file, hfile⟩ := h name hold.2
      have hne : file ≠ v.file := by
        rintro rfl
        exact hold.1 hfile
      exact ⟨file, by rwa [hothers file hne]⟩

/-- **Every name in the store is recorded for some file**, after any passes that began with an empty
store and an empty registry. -/
theorem names_recorded (here : Place) (output : Option Path) (disk : Disk)
    (visits : List (Disk.Device × Visit)) :
    let s := depotSession here output disk visits
    ∀ name ∈ s.kept.store.names, ∃ file, name ∈ s.registry.get file := by
  refine depotSession_keeps (P := fun s : Shared Depot => Accounted s.registry s.kept.store) ?_ ?_
  · intro name hname
    cases hname
  · intro dv _ s hs
    exact dv.2.accounted_after here dv.1 hs

end DemoPages
