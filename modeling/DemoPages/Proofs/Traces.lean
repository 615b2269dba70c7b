import DemoPages.Proofs.Marks

/-!
# Components that are traced to their pages

Between runs, from an empty store and an empty registry, every component in the store is on account,
every name recorded for a page is one of its names, and every component was made for some page with
a plain extension. `Traced` says so; passes, pages and runs keep it, however they end
(`traced_run`), and so it holds of all that is `Reached`.
-/

namespace DemoPages

open Effect

/-- The components of a store are traced to the pages of a registry. -/
structure Traced (registry : Registry) (store : Store) : Prop where
  accounted : Accounted registry store
  named : ∀ file, ∀ name ∈ registry.get file, Belongs file name
  made : ∀ name a, store.get? name = some a →
    a.name = name ∧ ∃ e here, Extractor.Made e here a ∧ IsPlain e.options.extension

/-- What a pass shares stays traced, however it ends. -/
theorem Visit.traced_after (here : Place) (device : Disk.Device) {v : Visit}
    (plain : IsPlain v.extractor.options.extension) {s : Shared Depot}
    (h : Traced s.registry s.kept.store) :
    Traced (v.after here (Keeper.depotBy device) s).registry
      (v.after here (Keeper.depotBy device) s).kept.store := by
  refine ⟨v.accounted_after here device h.accounted, fun file name hname => ?_,
    fun name a ha => ?_⟩
  · rcases v.mem_get_after here device s hname with hbefore | ⟨rfl, hnew⟩
    · exact h.named file name hbefore
    · obtain ⟨a, ha, rfl⟩ := List.mem_map.1 hnew
      exact (Visit.made_of_mem_components ha).belongs
  · rcases v.get?_after_cases here device s ha with hbefore | ⟨hmem, rfl⟩
    · exact h.made name a hbefore
    · exact ⟨rfl, v.extractor, here, Visit.made_of_mem_components hmem, plain⟩

namespace Site

/-- Does a state hold traced components? -/
def State.IsTraced (st : State) : Prop := Traced st.registry st.depot.store

variable {tools : Tools} {s : Settings} {root : Place}

theorem traced_onDisk {α : Type} (act : Disk.Action α) {st : State} (h : st.IsTraced) :
    (final (onDisk act st)).IsTraced := by
  unfold onDisk Depot.onDisk
  cases act st.depot.disk <;> exact h

theorem traced_extract {e : Extractor} (plain : IsPlain e.options.extension) (blocks : List Node)
    {st : State} (h : st.IsTraced) : (final (extract e blocks st)).IsTraced := by
  have hafter : Traced (final (extract e blocks st)).shared.registry
      (final (extract e blocks st)).shared.kept.store := by
    rw [final_extract]
    exact Visit.traced_after (v := visit e blocks) _ .sound plain h
  exact hafter

/-- What two steps keep traced, a sequence of the two does. -/
theorem traced_bind {α β : Type} {x : Action α} {f : α → Action β}
    (hx : ∀ st : State, st.IsTraced → (final (x st)).IsTraced)
    (hf : ∀ a, ∀ st : State, st.IsTraced → (final (f a st)).IsTraced) :
    ∀ st : State, st.IsTraced → (final ((x >>= f) st)).IsTraced :=
  bind_keeps (R := fun st st' : State => st.IsTraced → st'.IsTraced)
    (fun h h' hst => h' (h hst)) hx hf

theorem traced_page (plain : IsPlain s.extension) (p : Path) {st : State} (h : st.IsTraced) :
    (final (page tools s root p st)).IsTraced := by
  unfold page
  rw [get_bind]
  simp only
  split
  · refine traced_bind (fun st h => ?_) (fun blocks => ?_) st h
    · cases Page.read tools.reader (Place.toPath _) s.dialect _ <;> exact h
    · refine traced_bind (fun st h => traced_extract plain blocks h) fun blocks => ?_
      refine traced_bind (fun st => traced_onDisk _) fun _ => ?_
      exact traced_bind (fun st => traced_onDisk _) fun _ st h => h
  · exact h

theorem traced_pages (plain : IsPlain s.extension) (ps : List Path) {st : State} (h : st.IsTraced) :
    (final (pages tools s root ps st)).IsTraced := by
  induction ps generalizing st with
  | nil => exact h
  | cons p ps ih =>
    rw [pages]
    refine traced_bind (fun st h => ?_) (fun r => ?_) st h
    · have hpage : (final (page tools s root p st)).IsTraced := traced_page plain p h
      unfold naming
      cases hresult : page tools s root p st <;> simpa [hresult] using hpage
    · exact traced_bind (fun st => ih) fun _ st h => h

/-- **A run keeps components traced**, however it ends. -/
theorem traced_run (plain : IsPlain s.extension) (path : String) {st : State} (h : st.IsTraced) :
    (final (run tools s path st)).IsTraced := by
  unfold run
  rw [get_bind]
  refine traced_bind (fun st h => ?_) (fun root st => traced_pages plain _) st h
  cases Site.root s _ <;> exact h

/-- A state that some runs come to, each with its tools and settings and however it ends, from an
empty registry and an empty store. In between, the disk may change, and the store may turn to
another output directory. -/
inductive Reached : State → Prop
  | start (output : Option Path) (disk : Disk) : Reached { depot := { store := { output }, disk } }
  | edit {st : State} (h : Reached st) (disk : Disk) :
    Reached { st with depot := { st.depot with disk } }
  | turn {st : State} (h : Reached st) (output : Option Path) :
    Reached { st with depot := { st.depot with store := { st.depot.store with output } } }
  | run {st : State} (h : Reached st) (tools : Tools) {s : Settings} (plain : IsPlain s.extension)
      (path : String) :
    Reached (final (Site.run tools s path st))

/-- All that is reached is traced. -/
theorem Reached.isTraced {st : State} (h : Reached st) : st.IsTraced := by
  induction h with
  | start output disk =>
    refine ⟨fun name hname => ?_, fun file name hname => ?_, fun name a ha => ?_⟩
    · cases hname
    · cases hname
    · cases ha
  | edit _ disk ih => exact ih
  | turn _ output ih => exact ⟨ih.accounted, ih.named, ih.made⟩
  | run _ tools plain path ih => exact traced_run plain path ih

end Site

end DemoPages
