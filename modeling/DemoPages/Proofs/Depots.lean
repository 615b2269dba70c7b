import DemoPages.Store
import DemoPages.Proofs.Effects

/-!
# What the operations of a depot do to its store

The device acts on the disk alone, so the store after an operation is known whatever the device
does: removing forgets the names up to the one it fails at, and registering takes in all components
or, if it refuses, none.
-/

namespace DemoPages

namespace Store

/-- The store without the components of some names. -/
def without (s : Store) (names : List String) : Store :=
  { s with artifacts := names.foldl Keyed.erase s.artifacts }

@[simp] theorem without_nil (s : Store) : s.without [] = s := rfl

theorem without_cons (s : Store) (name : String) (names : List String) :
    s.without (name :: names) = (s.without [name]).without names := rfl

theorem get?_without (s : Store) (names : List String) (name : String) :
    (s.without names).get? name = if name ∈ names then none else s.get? name := by
  induction names generalizing s with
  | nil => simp
  | cons n names ih =>
    rw [without_cons, ih]
    by_cases hmem : name ∈ names
    · simp [hmem]
    · by_cases h : name = n
      · subst h
        simp [hmem, without, get?]
      · simp [hmem, h, without, get?, Keyed.get?_erase_of_ne _ h]

theorem mem_names {s : Store} {name : String} : name ∈ s.names ↔ ∃ a, s.get? name = some a :=
  Keyed.mem_keys

theorem mem_names_without {s : Store} {names : List String} {name : String} :
    name ∈ (s.without names).names ↔ name ∉ names ∧ name ∈ s.names := by
  rw [mem_names, mem_names, get?_without]
  by_cases h : name ∈ names <;> simp [h]

end Store

namespace Depot

open Effect

variable {device : Disk.Device} {d d' : Depot} {f : Fault}

theorem store_onDisk {α : Type} (act : Disk.Action α) (d : Depot) :
    (final (onDisk act d)).store = d.store := by
  unfold onDisk
  cases act d.disk <;> rfl

/-! ### Removing -/

theorem without_of_get?_eq_none {name : String} (h : d.store.get? name = none) :
    d.store.without [name] = d.store := by
  have hname : ∀ e ∈ d.store.artifacts.entries, e.1 ≠ name := by
    intro e he heq
    refine Keyed.get?_eq_none.1 h (List.mem_map.2 ⟨e, he, heq⟩)
  show { d.store with artifacts := d.store.artifacts.erase name } = d.store
  have herase : d.store.artifacts.erase name = d.store.artifacts := by
    unfold Keyed.erase
    rw [List.filter_eq_self.2 (by simpa using hname)]
  rw [herase]

theorem store_removeOne (device : Disk.Device) (name : String) (d : Depot) :
    (final (removeOne device name d)).store = d.store.without [name] := by
  unfold removeOne
  split
  · rename_i hnone
    exact (without_of_get?_eq_none hnone).symm
  · split
    · rfl
    · split
      · rfl
      · rw [store_onDisk]
        rfl

theorem store_removeBy_ok {names : List String} (h : removeBy device names d = .ok () d') :
    d'.store = d.store.without names := by
  induction names generalizing d with
  | nil =>
    cases h
    rfl
  | cons name names ih =>
    obtain ⟨_, u, hone, hrest⟩ := bind_ok.1 h
    have hstore := store_removeOne device name d
    rw [hone, final_ok] at hstore
    rw [ih hrest, hstore]
    rfl

/-- If removing fails at a name, that name and those before it are forgotten. -/
theorem store_removeBy_error {names : List String} (h : removeBy device names d = .error f d') :
    ∃ gone, gone <+: names ∧ d'.store = d.store.without gone := by
  induction names generalizing d with
  | nil => cases h
  | cons name names ih =>
    have hstore := store_removeOne device name d
    rcases bind_error.1 h with hone | ⟨_, u, hone, hrest⟩
    · rw [hone, final_error] at hstore
      exact ⟨[name], ⟨names, rfl⟩, hstore⟩
    · rw [hone, final_ok] at hstore
      obtain ⟨gone, hgone, hlater⟩ := ih hrest
      refine ⟨name :: gone, (List.prefix_cons_inj name).2 hgone, ?_⟩
      rw [hlater, hstore]
      rfl

/-- Without an output directory, removing forgets the names, and nothing can fail. -/
theorem removeBy_of_memory (device : Disk.Device) (names : List String)
    (h : d.store.output = none) :
    removeBy device names d = .ok () { d with store := d.store.without names } := by
  induction names generalizing d with
  | nil => rfl
  | cons name names ih =>
    have hone : removeOne device name d = .ok () { d with store := d.store.without [name] } := by
      unfold removeOne
      split
      · rename_i hnone
        rw [without_of_get?_eq_none hnone]
      · rw [h]
        rfl
    exact (bind_of_ok hone _).trans (ih h)

/-! ### Registering -/

/-- Without an output directory, registering takes all components in, and nothing can fail. -/
theorem registerBy_of_memory (device : Disk.Device) (artifacts : List Artifact)
    (h : d.store.output = none) : registerBy device artifacts d = .ok () (d.keep artifacts) := by
  unfold registerBy
  rw [h]

theorem store_writeAll (device : Disk.Device) (targets : List (Artifact × Place)) (d : Depot) :
    (final (writeAll device targets d)).store = d.store := by
  have trans : ∀ {d d' d'' : Depot}, d'.store = d.store → d''.store = d'.store →
      d''.store = d.store := fun h h' => h'.trans h
  induction targets generalizing d with
  | nil => rfl
  | cons target rest ih =>
    refine bind_keeps (R := fun d d' : Depot => d'.store = d.store) trans (store_onDisk _)
      (fun _ => ?_) d
    exact bind_keeps (R := fun d d' : Depot => d'.store = d.store) trans (store_onDisk _)
      fun _ => ih

/-- However registering ends, all components are taken in, or none. -/
theorem store_registerBy (device : Disk.Device) (artifacts : List Artifact) (d : Depot) :
    (final (registerBy device artifacts d)).store = (d.keep artifacts).store ∨
      (final (registerBy device artifacts d)).store = d.store := by
  unfold registerBy
  split
  · exact Or.inl rfl
  · split
    · exact Or.inr rfl
    · exact Or.inl (store_writeAll device _ _)

theorem store_registerBy_ok {artifacts : List Artifact}
    (h : registerBy device artifacts d = .ok () d') : d'.store = (d.keep artifacts).store := by
  unfold registerBy at h
  split at h
  · cases h
    rfl
  · split at h
    · cases h
    · rename_i places _
      have hstore := store_writeAll device (artifacts.zip places) (d.keep artifacts)
      rwa [h, final_ok] at hstore

theorem get?_keep (artifacts : List Artifact) (d : Depot) (name : String) :
    (d.keep artifacts).store.get? name =
      (artifacts.reverse.find? fun a => a.name = name).or (d.store.get? name) := by
  have h := Keyed.get?_foldl_put Artifact.name id artifacts d.store.artifacts name
  rw [Option.map_id_fun, id] at h
  exact h

theorem get?_keep_of_not_mem {artifacts : List Artifact} {name : String}
    (hname : name ∉ artifacts.map Artifact.name) :
    (d.keep artifacts).store.get? name = d.store.get? name := by
  have hnone : (artifacts.reverse.find? fun a => a.name = name) = none := by
    refine List.find?_eq_none.2 fun a ha heq => hname ?_
    exact List.mem_map.2 ⟨a, List.mem_reverse.1 ha, by simpa using heq⟩
  rw [get?_keep, hnone, Option.none_or]

/-- The component that is kept under the name of one of those registered. -/
theorem get?_keep_of_mem {artifacts : List Artifact} {a : Artifact} (ha : a ∈ artifacts) :
    ∃ last ∈ artifacts, last.name = a.name ∧
      (artifacts.reverse.find? fun a' => a'.name = a.name) = some last ∧
      (d.keep artifacts).store.get? a.name = some last := by
  cases hfind : artifacts.reverse.find? fun a' => a'.name = a.name with
  | none => exact absurd (List.find?_eq_none.1 hfind a (List.mem_reverse.2 ha)) (by simp)
  | some last =>
    refine ⟨last, List.mem_reverse.1 (List.mem_of_find?_eq_some hfind),
      by simpa using List.find?_some hfind, rfl, ?_⟩
    rw [get?_keep, hfind]
    rfl

/-- What is kept after registering is one of the new components or was there before. -/
theorem get?_keep_cases {artifacts : List Artifact} {name : String} {a : Artifact}
    (h : (d.keep artifacts).store.get? name = some a) :
    a ∈ artifacts ∧ a.name = name ∨ d.store.get? name = some a := by
  by_cases hname : name ∈ artifacts.map Artifact.name
  · obtain ⟨b, hb, rfl⟩ := List.mem_map.1 hname
    obtain ⟨last, hlast, heq, -, hget⟩ := get?_keep_of_mem (d := d) hb
    rw [hget] at h
    cases h
    exact Or.inl ⟨hlast, heq⟩
  · rw [get?_keep_of_not_mem hname] at h
    exact Or.inr h

theorem mem_names_keep {artifacts : List Artifact} {name : String} :
    name ∈ (d.keep artifacts).store.names ↔
      name ∈ artifacts.map Artifact.name ∨ name ∈ d.store.names := by
  by_cases hname : name ∈ artifacts.map Artifact.name
  · obtain ⟨a, ha, rfl⟩ := List.mem_map.1 hname
    obtain ⟨last, -, -, -, hget⟩ := get?_keep_of_mem (d := d) ha
    exact iff_of_true (Store.mem_names.2 ⟨last, hget⟩) (Or.inl hname)
  · rw [Store.mem_names, get?_keep_of_not_mem hname, ← Store.mem_names]
    exact ⟨Or.inr, fun h => h.resolve_left hname⟩

/-- However registering ends, other names are left alone. -/
theorem get?_registerBy (device : Disk.Device) {artifacts : List Artifact} (d : Depot)
    {name : String} (hname : name ∉ artifacts.map Artifact.name) :
    (final (registerBy device artifacts d)).store.get? name = d.store.get? name := by
  rcases store_registerBy device artifacts d with hstore | hstore
  · rw [hstore, get?_keep_of_not_mem hname]
  · rw [hstore]

theorem mem_names_registerBy {artifacts : List Artifact} {name : String}
    (h : name ∈ (final (registerBy device artifacts d)).store.names) :
    name ∈ artifacts.map Artifact.name ∨ name ∈ d.store.names := by
  rcases store_registerBy device artifacts d with hstore | hstore
  · rw [hstore] at h
    exact mem_names_keep.1 h
  · rw [hstore] at h
    exact Or.inr h

end Depot

end DemoPages
