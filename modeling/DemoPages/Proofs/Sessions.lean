import DemoPages.Proofs.Endings

/-!
# Sessions

A session is a sequence of passes that share one registry and what their keepers have. Each pass has
a page, an extractor and a keeper of its own, and may end well or fail; the next one finds what it
left.
-/

namespace DemoPages

/-- What the passes of a session share: the registry, and what their keepers have. -/
structure Shared (σ : Type) where
  registry : Registry := {}
  kept : σ

/-- A pass that is asked for: an extractor, a page, and the codes its highlighter was shown. -/
structure Visit where
  extractor : Extractor
  blocks : List Node
  shown : List String := []

namespace Visit

/-- A visit whose highlighter shows every code as it is, with the default options but for the
extension. -/
def plain (file root extension : String) (blocks : List Node) : Visit where
  extractor := { file, root, highlighter := fun _ code => .ok code, options := { extension } }
  blocks

variable {σ : Type} (here : Place) (k : Keeper σ) (v : Visit)

/-- The file that is visited. -/
def file : String := v.extractor.file

/-- What the pass begins with. -/
def start (s : Shared σ) : Pass.State σ := ⟨v.blocks, v.shown, s.registry, s.kept⟩

/-- The components of the page. -/
def components : List Artifact := v.extractor.components here (FrontMatter.strip v.blocks)

/-- The pass, and how it ends. -/
def run (s : Shared σ) : EStateM.Result Fault (Pass.State σ) Unit :=
  Pass.run here k v.extractor (v.start s)

/-- What is shared after the pass, however it ends. -/
def after (s : Shared σ) : Shared σ :=
  ⟨(Effect.final (v.run here k s)).registry, (Effect.final (v.run here k s)).kept⟩

/-- The names of the components of the page. -/
def names : List String := (v.components here).map Artifact.name

/-- What a pass does to what is shared. It may fail before the keeper is told anything, or with the
fault of the keeper when the components of the last pass are removed; otherwise the names of the new
ones are recorded and the keeper is told to register them, which may fail as well. -/
theorem after_cases (s : Shared σ) :
    ((v.after here k s).kept = s.kept ∧
      ∀ file, (v.after here k s).registry.get file = s.registry.get file) ∨
    (∃ f, k.remove (s.registry.get v.file) s.kept = .error f (v.after here k s).kept ∧
      (∀ file, (v.after here k s).registry.get file = s.registry.get file) ∧
      ∃ t, v.run here k s = .error f t ∧ t.kept = (v.after here k s).kept) ∨
    ∃ kept, k.remove (s.registry.get v.file) s.kept = .ok () kept ∧
      (v.after here k s).kept = Effect.final (k.register (v.components here) kept) ∧
      (v.after here k s).registry.get v.file = v.names here ∧
      ∀ file, file ≠ v.file → (v.after here k s).registry.get file = s.registry.get file := by
  have ending := Pass.run_ending here k v.extractor (v.start s)
  unfold after run
  generalize Pass.run here k v.extractor (v.start s) = r at ending ⊢
  cases ending with
  | columns unread => exact Or.inl ⟨rfl, fun _ => rfl⟩
  | unnamed read file => exact Or.inl ⟨rfl, fun _ => rfl⟩
  | highlighter read gives => exact Or.inl ⟨rfl, fun _ => rfl⟩
  | remove ready removes => exact Or.inr (Or.inl ⟨_, removes, fun _ => rfl, _, rfl, rfl⟩)
  | register ready removes registers =>
    refine Or.inr (Or.inr ⟨_, removes, ?_, Registry.get_set_self _ _ _, fun file hfile =>
      Registry.get_set_of_ne _ _ hfile⟩)
    exact (congrArg Effect.final registers).symm
  | done ready removes registers =>
    refine Or.inr (Or.inr ⟨_, removes, ?_, Registry.get_set_self _ _ _, fun file hfile =>
      Registry.get_set_of_ne _ _ hfile⟩)
    exact (congrArg Effect.final registers).symm

/-- A pass leaves the entries of other pages alone, however it ends. -/
theorem get_after_of_ne (s : Shared σ) {file : String} (h : file ≠ v.file) :
    (v.after here k s).registry.get file = s.registry.get file := by
  rcases v.after_cases here k s with ⟨-, hget⟩ | ⟨f, -, hget, -⟩ | ⟨kept, -, -, -, hothers⟩
  · exact hget file
  · exact hget file
  · exact hothers file h

/-- What a pass that ends well does to what is shared. -/
theorem after_of_ok {s : Shared σ} {t : Pass.State σ} (h : v.run here k s = .ok () t) :
    (v.after here k s).registry.get v.file = v.names here ∧
      ∃ kept, k.remove (s.registry.get v.file) s.kept = .ok () kept ∧
        k.register (v.components here) kept = .ok () (v.after here k s).kept := by
  have ending := Pass.run_ending here k v.extractor (v.start s)
  unfold after
  rw [h]
  unfold run at h
  rw [h] at ending
  cases ending with
  | done ready removes registers =>
    exact ⟨Registry.get_set_self _ _ _, _, removes, registers⟩

/-- The registry after a pass that ends well. -/
theorem registry_after_of_ok {s : Shared σ} {t : Pass.State σ} (h : v.run here k s = .ok () t) :
    (v.after here k s).registry = (s.registry.set v.file (v.names here)).free v.file := by
  have ending := Pass.run_ending here k v.extractor (v.start s)
  unfold after
  rw [h]
  unfold run at h
  rw [h] at ending
  cases ending with
  | done ready removes registers => rfl

/-- The page after a pass that ends well: what was shared before has no part in it. -/
theorem blocks_of_ok {s : Shared σ} {t : Pass.State σ} (h : v.run here k s = .ok () t) :
    ∃ columns, FrontMatter.columnsFrom 1 v.blocks = .ok columns ∧
      t.blocks = Layout.columns (.markup (preamble (v.components here)) ::
        v.extractor.rewrite v.shown (FrontMatter.strip v.blocks)) columns
        v.extractor.options.layout := by
  have ending := Pass.run_ending here k v.extractor (v.start s)
  unfold run at h
  rw [h] at ending
  cases ending with
  | done ready removes registers => exact ⟨_, ready.read, rfl⟩

/-- Passes over one page that end well leave the same page. -/
theorem blocks_eq_of_ok {k' : Keeper σ} {s s' : Shared σ} {t t' : Pass.State σ}
    (h : v.run here k s = .ok () t) (h' : v.run here k' s' = .ok () t') : t.blocks = t'.blocks := by
  obtain ⟨columns, hread, hblocks⟩ := v.blocks_of_ok here k h
  obtain ⟨columns', hread', hblocks'⟩ := v.blocks_of_ok here k' h'
  obtain rfl := Except.ok.inj (hread.symm.trans hread')
  exact hblocks.trans hblocks'.symm

end Visit

section Session

variable {σ : Type} (here : Place)

/-- What is shared after some passes, each with its keeper, one after the other. -/
def session (visits : List (Keeper σ × Visit)) (s : Shared σ) : Shared σ :=
  visits.foldl (fun s kv => kv.2.after here kv.1 s) s

@[simp] theorem session_nil (s : Shared σ) : session here [] s = s := rfl

@[simp] theorem session_cons (kv : Keeper σ × Visit) (visits : List (Keeper σ × Visit))
    (s : Shared σ) : session here (kv :: visits) s = session here visits (kv.2.after here kv.1 s) :=
  rfl

theorem session_append (as bs : List (Keeper σ × Visit)) (s : Shared σ) :
    session here (as ++ bs) s = session here bs (session here as s) := List.foldl_append

/-- What every pass of a session keeps, the session keeps. -/
theorem session_keeps {P : Shared σ → Prop} {visits : List (Keeper σ × Visit)}
    (step : ∀ kv ∈ visits, ∀ s, P s → P (kv.2.after here kv.1 s)) {s : Shared σ} (hs : P s) :
    P (session here visits s) := by
  induction visits generalizing s with
  | nil => exact hs
  | cons kv visits ih =>
    rw [session_cons]
    exact ih (fun kv' h => step kv' (List.mem_cons_of_mem _ h))
      (step kv List.mem_cons_self s hs)

end Session

/-! ### Sessions over a depot -/

/-- What is shared after some passes, each with a device, that began with an empty store and an
empty registry. -/
def depotSession (here : Place) (output : Option Path) (disk : Disk)
    (visits : List (Disk.Device × Visit)) : Shared Depot :=
  session here (visits.map fun dv => (Keeper.depotBy dv.1, dv.2))
    { kept := { store := { output }, disk } }

section DepotSession

variable {here : Place} {output : Option Path} {disk : Disk}

theorem depotSession_append_cons (before after : List (Disk.Device × Visit)) (device : Disk.Device)
    (v : Visit) :
    depotSession here output disk (before ++ (device, v) :: after) =
      session here (after.map fun dv => (Keeper.depotBy dv.1, dv.2))
        (v.after here (Keeper.depotBy device) (depotSession here output disk before)) := by
  unfold depotSession
  rw [List.map_append, session_append, List.map_cons, session_cons]

/-- What every pass keeps, whatever its device, holds after the session. -/
theorem depotSession_keeps {P : Shared Depot → Prop} {visits : List (Disk.Device × Visit)}
    (start : P { kept := { store := { output }, disk } })
    (step : ∀ dv ∈ visits, ∀ s, P s → P (dv.2.after here (Keeper.depotBy dv.1) s)) :
    P (depotSession here output disk visits) := by
  refine session_keeps here ?_ start
  intro kv hkv s hs
  obtain ⟨dv, hdv, rfl⟩ := List.mem_map.1 hkv
  exact step dv hdv s hs

end DepotSession

end DemoPages
