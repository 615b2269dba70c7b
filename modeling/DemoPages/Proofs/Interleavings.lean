import DemoPages.Proofs.Outputs
import Mathlib.Logic.Function.Basic

/-!
# Passes that take turns

Several passes at once, all of which share one registry and one keeper. Each takes the lock of its
page, reads the entry, has the components of the last pass removed, records the names of its own,
has these registered, and gives the lock back. These are six steps, between which the other passes
take theirs: `Turns.after` follows any order of steps, and a pass whose lock is taken waits. A pass
that is not interrupted does what `Pass.run` does while the lock is held
(`Turns.shared_after_replicate`).

While a pass has the lock of its page, the entry and the components of that page are its own affair;
`Serial` says how far it has come with them. Every step keeps it (`Serial.advance`), and so passes
that keep their components in memory hand over to each other in the order in which they take the
lock (`passes_serialised`).
-/

namespace DemoPages

open Effect

/-- How far a pass has come with the page that it locks. -/
inductive Stage where
  /-- It has yet to take the lock. -/
  | outside
  /-- It has the lock. -/
  | entered
  /-- It has read the entry of its page. -/
  | read (before : List String)
  /-- The components of the last pass are removed. -/
  | removed
  /-- The names of its own components are recorded. -/
  | recorded
  /-- Its components are registered, or a step before that has failed. -/
  | leaving
  /-- It has given the lock back. -/
  | gone
  deriving DecidableEq, Repr

namespace Stage

/-- Does a pass have the lock? -/
@[simp]
def inside : Stage → Bool
  | outside | gone => false
  | entered | read _ | removed | recorded | leaving => true

/-- Does a pass have the lock, and has it yet to record its names? -/
@[simp]
def pending : Stage → Bool
  | entered | read _ | removed => true
  | outside | recorded | leaving | gone => false

/-- Has a pass had the components of the last one removed, or tried to? -/
@[simp]
def told : Stage → Bool
  | outside | entered | read _ => false
  | removed | recorded | leaving | gone => true

/-- Is the page between two sets of components, the old ones removed and the new ones to come? -/
@[simp]
def bare : Stage → Bool
  | removed | recorded => true
  | outside | entered | read _ | leaving | gone => false

theorem inside_of_pending {s : Stage} (h : s.pending = true) : s.inside = true := by
  cases s <;> simp_all [pending, inside]

theorem inside_of_bare {s : Stage} (h : s.bare = true) : s.inside = true := by
  cases s <;> simp_all [bare, inside]

end Stage

/-- Passes at work: what they share, and how far each has come. Two records are kept beside, which
no step reads: for each page, the passes that have taken its lock, the latest first; and the names
that each pass has handed to the keeper to remove. -/
structure Turns (ι σ : Type) where
  shared : Shared σ
  stage : ι → Stage := fun _ => .outside
  holders : String → List ι := fun _ => []
  handed : List (ι × List String) := []

namespace Turns

variable {ι σ : Type}

section Steps

variable [DecidableEq ι] (here : Place) (keeper : Keeper σ) (visits : ι → Visit)

/-- A pass has come to another stage, and what is shared has changed. -/
def moved (m : Turns ι σ) (i : ι) (stage : Stage) (shared : Shared σ) : Turns ι σ :=
  { m with shared, stage := Function.update m.stage i stage }

/-- A pass has taken the lock of a page. -/
def entered (m : Turns ι σ) (i : ι) (file : String) : Turns ι σ :=
  let m := m.moved i .entered { m.shared with registry := m.shared.registry.hold file }
  { m with holders := Function.update m.holders file (i :: m.holders file) }

/-- A pass has handed some names to the keeper. -/
def handing (m : Turns ι σ) (i : ι) (names : List String) : Turns ι σ :=
  { m with handed := (i, names) :: m.handed }

/-- The next step of a pass. It waits while the lock of its page is taken; a step that fails makes
it give the lock back. -/
def advance (i : ι) (m : Turns ι σ) : Turns ι σ :=
  let file := (visits i).file
  let registry := m.shared.registry
  match m.stage i with
  | .outside =>
    if registry.isHeld file then m else m.entered i file
  | .entered => m.moved i (.read (registry.get file)) m.shared
  | .read before =>
    match keeper.remove before m.shared.kept with
    | .error _ kept => (m.handing i before).moved i .leaving { m.shared with kept }
    | .ok () kept => (m.handing i before).moved i .removed { m.shared with kept }
  | .removed =>
    m.moved i .recorded { m.shared with registry := registry.set file ((visits i).names here) }
  | .recorded =>
    m.moved i .leaving { m.shared with
      kept := final (keeper.register ((visits i).components here) m.shared.kept) }
  | .leaving => m.moved i .gone { m.shared with registry := registry.free file }
  | .gone => m

/-- Steps in some order. Every order is allowed; a step that its pass cannot take changes
nothing. -/
def after (order : List ι) (m : Turns ι σ) : Turns ι σ :=
  order.foldl (fun m i => m.advance here keeper visits i) m

end Steps

variable {here : Place} {visits : ι → Visit} {keeper : Keeper σ} {m : Turns ι σ} {i : ι}
  {stage : Stage} {shared : Shared σ}

/-! ### Who has the lock -/

/-- The locks are in order: who has taken the lock of a page is a pass over it and took it once, and
who has it took it last. -/
structure Locked (visits : ι → Visit) (m : Turns ι σ) : Prop where
  mine : ∀ file, ∀ i ∈ m.holders file, (visits i).file = file ∧ m.stage i ≠ .outside
  once : ∀ file, (m.holders file).Nodup
  inside : ∀ i, (m.stage i).inside = true →
    m.shared.registry.isHeld (visits i).file = true ∧
      ∃ earlier, m.holders (visits i).file = i :: earlier

/-- **Two passes that have the lock of one page are one pass.** -/
theorem Locked.eq_of_inside (h : m.Locked visits) {i j : ι} (hi : (m.stage i).inside = true)
    (hj : (m.stage j).inside = true) (hfile : (visits j).file = (visits i).file) : j = i := by
  obtain ⟨-, earlier, hholders⟩ := h.inside i hi
  obtain ⟨-, earlier', hholders'⟩ := h.inside j hj
  rw [hfile, hholders] at hholders'
  injection hholders' with heq
  exact heq.symm

section Locks

variable [DecidableEq ι]

@[simp] theorem stage_moved_self : (m.moved i stage shared).stage i = stage :=
  Function.update_self ..

theorem stage_moved_of_ne {j : ι} (h : j ≠ i) : (m.moved i stage shared).stage j = m.stage j :=
  Function.update_of_ne h ..

@[simp] theorem shared_moved : (m.moved i stage shared).shared = shared := rfl

@[simp] theorem holders_moved : (m.moved i stage shared).holders = m.holders := rfl

@[simp] theorem handed_moved : (m.moved i stage shared).handed = m.handed := rfl

@[simp] theorem stage_entered_self (file : String) : (m.entered i file).stage i = .entered :=
  Function.update_self ..

theorem stage_entered_of_ne {j : ι} (h : j ≠ i) (file : String) :
    (m.entered i file).stage j = m.stage j := Function.update_of_ne h ..

theorem shared_entered (file : String) : (m.entered i file).shared =
    { m.shared with registry := m.shared.registry.hold file } := rfl

@[simp] theorem holders_entered_self (file : String) :
    (m.entered i file).holders file = i :: m.holders file := Function.update_self ..

theorem holders_entered_of_ne {file file' : String} (h : file' ≠ file) :
    (m.entered i file).holders file' = m.holders file' := Function.update_of_ne h ..

@[simp] theorem after_nil : m.after here keeper visits [] = m := rfl

@[simp] theorem after_cons (order : List ι) :
    m.after here keeper visits (i :: order) =
      (m.advance here keeper visits i).after here keeper visits order := rfl

/-- A pass that has the lock goes on, and keeps it. -/
theorem Locked.moved (h : m.Locked visits) (hi : (m.stage i).inside = true)
    (hstage : stage.inside = true) (hheld : shared.registry.held = m.shared.registry.held) :
    (m.moved i stage shared).Locked visits := by
  refine ⟨fun file j hj => ⟨(h.mine file j hj).1, ?_⟩, h.once, fun j hj => ?_⟩
  · by_cases heq : j = i
    · subst heq
      rw [stage_moved_self]
      rintro rfl
      cases hstage
    · rw [stage_moved_of_ne heq]
      exact (h.mine file j hj).2
  · have hinside : (m.stage j).inside = true := by
      by_cases heq : j = i
      · rwa [heq]
      · rwa [stage_moved_of_ne heq] at hj
    obtain ⟨hlock, hholders⟩ := h.inside j hinside
    refine ⟨?_, hholders⟩
    unfold Registry.isHeld at hlock ⊢
    rwa [shared_moved, hheld]

/-- A pass takes a lock that nobody has. -/
theorem Locked.entered (h : m.Locked visits) (hi : m.stage i = .outside)
    (hfree : m.shared.registry.isHeld (visits i).file = false) :
    (m.entered i (visits i).file).Locked visits := by
  have hnew : ∀ file, i ∉ m.holders file := fun file hmem => (h.mine file i hmem).2 hi
  refine ⟨fun file j hj => ?_, fun file => ?_, fun j hj => ?_⟩
  · by_cases heq : j = i
    · subst heq
      refine ⟨?_, by simp⟩
      by_contra hne
      rw [holders_entered_of_ne (Ne.symm hne)] at hj
      exact hnew file hj
    · have hold : j ∈ m.holders file := by
        by_cases hfile : file = (visits i).file
        · subst hfile
          rw [holders_entered_self] at hj
          exact (List.mem_cons.1 hj).resolve_left heq
        · rwa [holders_entered_of_ne hfile] at hj
      rw [stage_entered_of_ne heq]
      exact h.mine file j hold
  · by_cases hfile : file = (visits i).file
    · subst hfile
      rw [holders_entered_self]
      exact List.nodup_cons.2 ⟨hnew _, h.once _⟩
    · rw [holders_entered_of_ne hfile]
      exact h.once file
  · rw [shared_entered]
    by_cases heq : j = i
    · subst heq
      exact ⟨by simp [Registry.isHeld, Registry.hold], _, holders_entered_self _⟩
    · rw [stage_entered_of_ne heq] at hj
      obtain ⟨hlock, hholders⟩ := h.inside j hj
      have hfile : (visits j).file ≠ (visits i).file := by
        intro hfile
        rw [hfile, hfree] at hlock
        cases hlock
      rw [holders_entered_of_ne hfile]
      refine ⟨?_, hholders⟩
      simp only [Registry.isHeld, List.contains_eq_mem, decide_eq_true_eq] at hlock
      simp [Registry.isHeld, Registry.hold, hlock]

/-- A pass gives back the lock that it has. -/
theorem Locked.leave (h : m.Locked visits) (hi : (m.stage i).inside = true) :
    (m.moved i .gone { m.shared with
      registry := m.shared.registry.free (visits i).file }).Locked visits := by
  refine ⟨fun file j hj => ⟨(h.mine file j hj).1, ?_⟩, h.once, fun j hj => ?_⟩
  · by_cases heq : j = i
    · subst heq
      simp
    · rw [stage_moved_of_ne heq]
      exact (h.mine file j hj).2
  · by_cases heq : j = i
    · subst heq
      simp [Stage.inside] at hj
    · rw [stage_moved_of_ne heq] at hj
      obtain ⟨hlock, hholders⟩ := h.inside j hj
      have hfile : (visits j).file ≠ (visits i).file := fun hfile =>
        heq (h.eq_of_inside hi hj hfile)
      refine ⟨?_, hholders⟩
      simp only [Registry.isHeld, List.contains_eq_mem, decide_eq_true_eq] at hlock
      simp [Registry.isHeld, Registry.free, hlock, hfile]

/-- Every step keeps the locks in order, whatever the keeper does. -/
theorem Locked.advance (h : m.Locked visits) (here : Place) (keeper : Keeper σ) (i : ι) :
    (m.advance here keeper visits i).Locked visits := by
  have hinside : m.stage i ≠ .outside → m.stage i ≠ .gone → (m.stage i).inside = true := by
    cases m.stage i <;> simp [Stage.inside]
  unfold Turns.advance
  simp only
  split
  · rename_i hi
    split
    · exact h
    · rename_i hfree
      exact h.entered hi (by simpa using hfree)
  · rename_i hi
    exact h.moved (by simp [hi, Stage.inside]) rfl rfl
  · rename_i before hi
    have hhand : (m.handing i before).Locked visits := ⟨h.mine, h.once, h.inside⟩
    have hi' : (m.stage i).inside = true := by simp [hi, Stage.inside]
    split
    · exact hhand.moved hi' rfl rfl
    · exact hhand.moved hi' rfl rfl
  · rename_i hi
    exact h.moved (by simp [hi, Stage.inside]) rfl rfl
  · rename_i hi
    exact h.moved (by simp [hi, Stage.inside]) rfl rfl
  · rename_i hi
    exact h.leave (by simp [hi, Stage.inside])
  · exact h

/-- **A pass that is not interrupted does what `Pass.run` does while the lock is held**, also if the
keeper fails. -/
theorem shared_after_replicate (hi : m.stage i = .outside)
    (hfree : m.shared.registry.isHeld (visits i).file = false) {s : Pass.State σ}
    (hs : m.shared = ⟨s.registry, s.kept⟩) :
    let t := final (Pass.holding (visits i).file
      (Pass.exchange keeper (visits i).file ((visits i).components here)) s)
    (m.after here keeper visits (List.replicate 6 i)).shared = ⟨t.registry, t.kept⟩ := by
  have henter : m.advance here keeper visits i = m.entered i (visits i).file := by
    unfold advance
    simp [hi, hfree]
  simp only [List.replicate, after_cons, after_nil]
  rw [henter]
  have hnames : (visits i).names here = ((visits i).components here).map Artifact.name := rfl
  cases hremove : keeper.remove (s.registry.get (visits i).file) s.kept with
  | error f kept =>
    simp [advance, Pass.holding, Pass.exchange_eq, hs, hremove, shared_entered]
  | ok _ kept =>
    cases hregister : keeper.register ((visits i).components here) kept <;>
      simp [advance, Pass.holding, Pass.exchange_eq, hs, hremove, hregister, shared_entered, hnames]

end Locks

/-! ### How far the pages have come -/

section Progress

variable (here visits)

/-- The names that the latest of some passes has recorded. -/
def lastNames : List ι → List String
  | [] => []
  | i :: _ => (visits i).names here

/-- The passes that have recorded their names for a page, the latest first: of those that have taken
its lock, the last one may have yet to do so. -/
def writers (m : Turns ι σ) (file : String) : List ι :=
  match m.holders file with
  | [] => []
  | i :: earlier => if (m.stage i).pending then earlier else i :: earlier

/-- The page is not between the removal and the registration of its components. -/
def Calm (m : Turns ι σ) (file : String) : Prop :=
  ∀ i, (visits i).file = file → (m.stage i).bare = false

variable {here visits}

theorem writers_subset (file : String) : m.writers file ⊆ m.holders file := by
  unfold writers
  split
  · exact List.nil_subset _
  · rename_i i earlier hholders
    rw [hholders]
    split
    · exact List.subset_cons_self i earlier
    · exact List.Subset.refl _

theorem calm_of_outside {file : String}
    (h : ∀ i, (visits i).file = file → (m.stage i).inside = false) : m.Calm visits file := by
  intro i hi
  by_contra hbare
  rw [Bool.not_eq_false] at hbare
  have hinside := Stage.inside_of_bare hbare
  rw [h i hi] at hinside
  cases hinside

theorem calm_congr {m' : Turns ι σ} (h : ∀ i, (m'.stage i).bare = (m.stage i).bare)
    (file : String) : m'.Calm visits file ↔ m.Calm visits file := by
  unfold Calm
  simp only [h]

theorem writers_of_outside (locked : m.Locked visits) {file : String}
    (h : ∀ i, (visits i).file = file → (m.stage i).inside = false) :
    m.writers file = m.holders file := by
  unfold writers
  split
  · rename_i hnil
    exact hnil.symm
  · rename_i i earlier hholders
    have hfile := (locked.mine file i (by simp [hholders])).1
    rw [hholders, if_neg]
    intro hpending
    have hinside := Stage.inside_of_pending hpending
    rw [h i hfile] at hinside
    cases hinside

theorem writers_of_holders {file : String} {earlier : List ι} (h : m.holders file = i :: earlier) :
    m.writers file = if (m.stage i).pending then earlier else i :: earlier := by
  unfold writers
  rw [h]

/-- A name that is recorded for a page belongs to it. -/
theorem belongs_of_mem_lastNames {is : List ι} {file name : String}
    (hfile : ∀ i ∈ is, (visits i).file = file) (h : name ∈ lastNames here visits is) :
    Belongs file name := by
  cases is with
  | nil => cases h
  | cons i is =>
    obtain ⟨a, ha, rfl⟩ := List.mem_map.1 h
    rw [← hfile i List.mem_cons_self]
    exact (Visit.made_of_mem_components ha).belongs

/-- While a pass has the lock of its page, no other one leaves that page bare. -/
theorem Locked.not_bare (locked : m.Locked visits) (hi : (m.stage i).inside = true) {j : ι}
    (hj : j ≠ i) (hfile : (visits j).file = (visits i).file) : (m.stage j).bare = false := by
  by_contra hbare
  rw [Bool.not_eq_false] at hbare
  exact hj (locked.eq_of_inside hi (Stage.inside_of_bare hbare) hfile)

variable [DecidableEq ι]

theorem writers_moved_of_ne (locked : m.Locked visits) (stage : Stage) (shared : Shared σ)
    {file : String} (h : file ≠ (visits i).file) :
    (m.moved i stage shared).writers file = m.writers file := by
  unfold writers
  rw [holders_moved]
  split
  · rfl
  · rename_i j earlier hholders
    have hj := (locked.mine file j (by simp [hholders])).1
    have hne : j ≠ i := by
      rintro rfl
      exact h hj.symm
    rw [stage_moved_of_ne hne]

theorem calm_moved_of_ne {file : String} (h : file ≠ (visits i).file) :
    (m.moved i stage shared).Calm visits file ↔ m.Calm visits file := by
  refine forall_congr' fun j => forall_congr' fun hj => ?_
  have hne : j ≠ i := by
    rintro rfl
    exact h hj.symm
  rw [stage_moved_of_ne hne]

/-- Whether the page of a pass that has the lock is calm is up to this pass. -/
theorem calm_moved_self (locked : m.Locked visits) (hi : (m.stage i).inside = true)
    (stage : Stage) (shared : Shared σ) :
    (m.moved i stage shared).Calm visits (visits i).file ↔ stage.bare = false := by
  constructor
  · intro h
    simpa using h i rfl
  · intro h j hj
    by_cases heq : j = i
    · subst heq
      rwa [stage_moved_self]
    · rw [stage_moved_of_ne heq]
      exact locked.not_bare hi heq hj

theorem calm_iff_of_inside (locked : m.Locked visits) (hi : (m.stage i).inside = true) :
    m.Calm visits (visits i).file ↔ (m.stage i).bare = false := by
  have hself : m.moved i (m.stage i) m.shared = m := by
    unfold moved
    rw [Function.update_eq_self]
  rw [← calm_moved_self locked hi (m.stage i) m.shared, hself]

end Progress

/-! ### Components that are kept in memory -/

section Memory

variable {m : Turns ι Depot} {shared : Shared Depot}

/-- The passes have kept to their turns: the registry holds the names that were recorded last, what
a pass has read is still so, what it has handed to the keeper was recorded by the pass before it,
and the store holds what is recorded for the pages that are calm. -/
structure Serial (here : Place) (visits : ι → Visit) (m : Turns ι Depot) : Prop where
  locked : m.Locked visits
  memory : m.shared.kept.store.output = none
  entry : ∀ file, m.shared.registry.get file = lastNames here visits (m.writers file)
  read : ∀ i before, m.stage i = .read before →
    before = m.shared.registry.get (visits i).file
  handed : ∀ i names, (i, names) ∈ m.handed → ∃ later earlier,
    m.holders (visits i).file = later ++ i :: earlier ∧ names = lastNames here visits earlier
  told : ∀ i, (m.stage i).told = true → ∃ names, (i, names) ∈ m.handed
  stored : ∀ name, name ∈ m.shared.kept.store.names ↔
    ∃ file, name ∈ m.shared.registry.get file ∧ m.Calm visits file

/-- Distinct pages have distinct digits. -/
def Apart (visits : ι → Visit) : Prop :=
  ∀ i j, Digest.mark (visits i).file = Digest.mark (visits j).file →
    (visits i).file = (visits j).file

variable [DecidableEq ι]

namespace Serial

omit [DecidableEq ι] in
/-- A name is recorded for one page only. -/
theorem file_eq (h : Serial here visits m) (apart : Apart visits) {file file' name : String}
    (hname : name ∈ m.shared.registry.get file) (hname' : name ∈ m.shared.registry.get file') :
    file = file' := by
  have belongs : ∀ {file}, name ∈ m.shared.registry.get file →
      Belongs file name ∧ ∃ i, (visits i).file = file := by
    intro file hname
    rw [h.entry] at hname
    have hfile : ∀ i ∈ m.writers file, (visits i).file = file := fun i hi =>
      (h.locked.mine file i (writers_subset file hi)).1
    refine ⟨belongs_of_mem_lastNames hfile hname, ?_⟩
    cases hwriters : m.writers file with
    | nil =>
      rw [hwriters] at hname
      cases hname
    | cons i earlier => exact ⟨i, hfile i (by simp [hwriters])⟩
  obtain ⟨hbelongs, i, rfl⟩ := belongs hname
  obtain ⟨hbelongs', j, rfl⟩ := belongs hname'
  exact apart i j (hbelongs.mark_eq hbelongs')

/-- A pass that has the lock comes to another stage. It may change the entry of its own page, and it
must account for what the store holds of this page. -/
theorem moved (h : Serial here visits m) (apart : Apart visits)
    (locked : (m.moved i stage shared).Locked visits) (hi : (m.stage i).inside = true)
    (memory : shared.kept.store.output = none)
    (others : ∀ file, file ≠ (visits i).file →
      shared.registry.get file = m.shared.registry.get file)
    (own : ∀ earlier, m.holders (visits i).file = i :: earlier →
      shared.registry.get (visits i).file =
        lastNames here visits (if stage.pending then earlier else i :: earlier))
    (read : ∀ before, stage = .read before → before = shared.registry.get (visits i).file)
    (told : stage.told = true → ∃ names, (i, names) ∈ m.handed)
    (stored : ∀ name, name ∈ shared.kept.store.names ↔
      (name ∈ shared.registry.get (visits i).file ∧ stage.bare = false) ∨
      (name ∈ m.shared.kept.store.names ∧
        ¬ (name ∈ m.shared.registry.get (visits i).file ∧ (m.stage i).bare = false))) :
    Serial here visits (m.moved i stage shared) where
  locked := locked
  memory := memory
  entry file := by
    by_cases hfile : file = (visits i).file
    · subst hfile
      obtain ⟨-, earlier, hholders⟩ := h.locked.inside i hi
      have hmoved : (m.moved i stage shared).holders (visits i).file = i :: earlier := hholders
      rw [writers_of_holders hmoved, stage_moved_self]
      exact own earlier hholders
    · rw [writers_moved_of_ne h.locked stage shared hfile, shared_moved, others file hfile]
      exact h.entry file
  read j before hj := by
    by_cases heq : j = i
    · subst heq
      exact read before (by simpa using hj)
    · rw [stage_moved_of_ne heq] at hj
      have hfile : (visits j).file ≠ (visits i).file := fun hfile =>
        heq (h.locked.eq_of_inside hi (by simp [hj, Stage.inside]) hfile)
      rw [shared_moved, others _ hfile]
      exact h.read j before hj
  handed := h.handed
  told j hj := by
    by_cases heq : j = i
    · subst heq
      exact told (by simpa using hj)
    · rw [stage_moved_of_ne heq] at hj
      exact h.told j hj
  stored name := by
    have hcalm := calm_moved_self h.locked hi stage shared
    rw [shared_moved, stored name, h.stored name, ← hcalm, ← calm_iff_of_inside h.locked hi]
    constructor
    · rintro (⟨hname, hstage⟩ | ⟨⟨file, hname, hfile⟩, hnot⟩)
      · exact ⟨_, hname, hstage⟩
      · have hne : file ≠ (visits i).file := by
          rintro rfl
          exact hnot ⟨hname, hfile⟩
        exact ⟨file, (others file hne).symm ▸ hname, (calm_moved_of_ne hne).2 hfile⟩
    · rintro ⟨file, hname, hfile⟩
      by_cases hne : file = (visits i).file
      · subst hne
        exact Or.inl ⟨hname, hfile⟩
      · rw [others file hne] at hname
        rw [calm_moved_of_ne hne] at hfile
        exact Or.inr ⟨⟨file, hname, hfile⟩, fun hown => hne (h.file_eq apart hname hown.1)⟩

/-- A pass takes the lock of its page. -/
theorem entered (h : Serial here visits m) (hi : m.stage i = .outside)
    (hfree : m.shared.registry.isHeld (visits i).file = false) :
    Serial here visits (m.entered i (visits i).file) where
  locked := h.locked.entered hi hfree
  memory := h.memory
  entry file := by
    by_cases hfile : file = (visits i).file
    · -- Nobody has had the lock, so all that took it before have recorded their names.
      subst hfile
      have hnobody : ∀ j, (visits j).file = (visits i).file → (m.stage j).inside = false := by
        intro j hj
        by_contra hinside
        rw [Bool.not_eq_false] at hinside
        have hlock := (h.locked.inside j hinside).1
        rw [hj, hfree] at hlock
        cases hlock
      rw [writers_of_holders (holders_entered_self _), stage_entered_self]
      exact (h.entry _).trans (by rw [writers_of_outside h.locked hnobody]; rfl)
    · have hwriters : (m.entered i (visits i).file).writers file = m.writers file := by
        rw [← writers_moved_of_ne h.locked .entered m.shared hfile]
        unfold writers
        rw [holders_entered_of_ne hfile]
        rfl
      rw [hwriters]
      exact h.entry file
  read j before hj := by
    by_cases heq : j = i
    · subst heq
      simp at hj
    · rw [stage_entered_of_ne heq] at hj
      exact h.read j before hj
  handed j names hj := by
    obtain ⟨later, earlier, hholders, hnames⟩ := h.handed j names hj
    by_cases hfile : (visits j).file = (visits i).file
    · rw [hfile] at hholders ⊢
      rw [holders_entered_self, hholders]
      exact ⟨i :: later, earlier, rfl, hnames⟩
    · rw [holders_entered_of_ne hfile]
      exact ⟨later, earlier, hholders, hnames⟩
  told j hj := by
    by_cases heq : j = i
    · subst heq
      simp at hj
    · rw [stage_entered_of_ne heq] at hj
      exact h.told j hj
  stored name := by
    have hbare : ∀ j, ((m.entered i (visits i).file).stage j).bare = (m.stage j).bare := by
      intro j
      by_cases heq : j = i
      · subst heq
        simp [hi]
      · rw [stage_entered_of_ne heq]
    simp only [calm_congr hbare]
    exact h.stored name

omit [DecidableEq ι] in
theorem entry_of_inside (h : Serial here visits m) {earlier : List ι}
    (hholders : m.holders (visits i).file = i :: earlier) :
    m.shared.registry.get (visits i).file =
      lastNames here visits (if (m.stage i).pending then earlier else i :: earlier) := by
  rw [h.entry, writers_of_holders hholders]

omit [DecidableEq ι] in
/-- A pass hands what it has read to the keeper. -/
theorem handing (h : Serial here visits m) {before : List String} (hi : m.stage i = .read before) :
    Serial here visits (m.handing i before) where
  locked := ⟨h.locked.mine, h.locked.once, h.locked.inside⟩
  memory := h.memory
  entry := h.entry
  read := h.read
  handed j names hj := by
    rcases List.mem_cons.1 hj with heq | hj
    · obtain ⟨rfl, rfl⟩ := Prod.mk.inj heq
      obtain ⟨-, earlier, hholders⟩ := h.locked.inside j (by simp [hi])
      refine ⟨[], earlier, hholders, ?_⟩
      rw [h.read j _ hi, h.entry_of_inside hholders, hi]
      rfl
    · exact h.handed j names hj
  told j hj := by
    obtain ⟨names, hnames⟩ := h.told j hj
    exact ⟨names, List.mem_cons_of_mem _ hnames⟩
  stored := h.stored

omit [DecidableEq ι] in
/-- The store holds what is recorded for a page, unless a pass that has its lock has left it
bare. -/
theorem mem_names (h : Serial here visits m) (name : String) (hi : (m.stage i).inside = true)
    (hbare : (m.stage i).bare = false) (hname : name ∈ m.shared.registry.get (visits i).file) :
    name ∈ m.shared.kept.store.names := by
  classical
  exact (h.stored name).2 ⟨_, hname, (calm_iff_of_inside h.locked hi).2 hbare⟩

/-- **Every step keeps the passes to their turns.** -/
theorem advance (h : Serial here visits m) (apart : Apart visits) (device : Disk.Device) (i : ι) :
    Serial here visits (m.advance here (Keeper.depotBy device) visits i) := by
  have locked := h.locked.advance here (Keeper.depotBy device) i
  have hmem := fun name hi => h.mem_names name (i := i) hi
  have htold := h.told i
  unfold Turns.advance at locked ⊢
  simp only at locked ⊢
  cases hi : m.stage i with
  | outside =>
    simp only [hi] at locked ⊢
    split at locked
    · rename_i hheld
      rwa [if_pos hheld]
    · rename_i hfree
      rw [if_neg hfree]
      exact h.entered hi (by simpa using hfree)
  | entered =>
    simp only [hi] at locked hmem ⊢
    refine h.moved apart locked (by simp [hi]) h.memory (fun _ _ => rfl) ?_ ?_
      (fun told => by cases told) ?_
    · intro earlier hholders
      rw [h.entry_of_inside hholders, hi]
      rfl
    · intro before heq
      injection heq with heq
      exact heq.symm
    · intro name
      have := hmem name rfl rfl
      simp only [hi, Stage.bare, and_true]
      tauto
  | read before =>
    simp only [hi] at locked hmem ⊢
    have hremove : (Keeper.depotBy device).remove before m.shared.kept =
        .ok () { m.shared.kept with store := m.shared.kept.store.without before } :=
      Depot.removeBy_of_memory device before h.memory
    rw [hremove] at locked ⊢
    refine (h.handing hi).moved apart locked (by simp [Turns.handing, hi]) h.memory (fun _ _ => rfl)
      ?_ (fun _ heq => by cases heq) (fun _ => ⟨before, List.mem_cons_self⟩) ?_
    · intro earlier hholders
      have hentry := h.entry_of_inside hholders
      rw [hi] at hentry
      exact hentry
    · intro name
      have hread := h.read i before hi
      simp only [Turns.handing, hi, Stage.bare, Store.mem_names_without, ← hread]
      tauto
  | removed =>
    simp only [hi] at locked ⊢
    refine h.moved apart locked (by simp [hi]) h.memory ?_ ?_ (fun _ heq => by cases heq)
      (fun _ => htold (by simp [hi])) ?_
    · intro file hfile
      exact Registry.get_set_of_ne _ _ hfile
    · intro earlier _
      rw [Registry.get_set_self]
      rfl
    · intro name
      simp [hi]
  | recorded =>
    simp only [hi] at locked ⊢
    have hregister : (Keeper.depotBy device).register ((visits i).components here) m.shared.kept =
        .ok () (m.shared.kept.keep ((visits i).components here)) :=
      Depot.registerBy_of_memory device _ h.memory
    rw [hregister, final_ok] at locked ⊢
    have hown : m.shared.registry.get (visits i).file = (visits i).names here := by
      obtain ⟨-, earlier, hholders⟩ := h.locked.inside i (by simp [hi])
      rw [h.entry_of_inside hholders, hi]
      rfl
    refine h.moved apart locked (by simp [hi]) h.memory (fun _ _ => rfl) ?_
      (fun _ heq => by cases heq) (fun _ => htold (by simp [hi])) ?_
    · intro earlier _
      exact hown
    · intro name
      simp only [Depot.mem_names_keep, hown, hi, Stage.bare, Visit.names]
      tauto
  | leaving =>
    simp only [hi] at locked hmem ⊢
    refine h.moved apart locked (by simp [hi]) h.memory (fun _ _ => rfl) ?_
      (fun _ heq => by cases heq) (fun _ => htold (by simp [hi])) ?_
    · intro earlier hholders
      rw [Registry.get_free, h.entry_of_inside hholders, hi]
      rfl
    · intro name
      have := hmem name rfl rfl
      simp only [hi, Stage.bare, Registry.get_free, and_true]
      tauto
  | gone => exact h

/-- Any steps, in any order, keep the passes to their turns. -/
theorem after (h : Serial here visits m) (apart : Apart visits) (device : Disk.Device)
    (order : List ι) : Serial here visits (m.after here (Keeper.depotBy device) visits order) := by
  induction order generalizing m with
  | nil => exact h
  | cons i order ih => exact ih (h.advance apart device i)

omit [DecidableEq ι] in
/-- Before the first step, nothing is recorded and nothing is kept. -/
theorem start (here : Place) (visits : ι → Visit) (disk : Disk) :
    Serial here visits { shared := { kept := { disk } } } where
  locked := by
    refine ⟨?_, fun _ => List.nodup_nil, ?_⟩
    · intro file i hi
      cases hi
    · intro i hi
      cases hi
  memory := rfl
  entry _ := rfl
  read _ _ h := nomatch h
  handed _ _ h := nomatch h
  told _ h := nomatch h
  stored name := by
    constructor
    · intro hname
      cases hname
    · rintro ⟨file, hname, -⟩
      cases hname

end Serial

end Memory

end Turns

/-- **Passes that keep their components in memory hand over to each other.** Any passes may take
their steps in any order, and wait for the lock of their page only. What a pass has handed to the
keeper to remove are the names of the pass that had the lock of the page before it, and none if it
was the first. Whenever no pass has a lock, the registry holds for each page the names of the pass
that had its lock last, and the store holds the components that the registry names, and no other. -/
theorem passes_serialised {ι : Type} [DecidableEq ι] (here : Place) (disk : Disk)
    (visits : ι → Visit)
    (apart : ∀ i j, Digest.mark (visits i).file = Digest.mark (visits j).file →
      (visits i).file = (visits j).file) (order : List ι) :
    let m := Turns.after here Keeper.depot visits order { shared := { kept := { disk } } }
    (∀ i, (m.stage i).told = true → ∃ names, (i, names) ∈ m.handed) ∧
    (∀ file, (m.holders file).Nodup) ∧
    (∀ i names, (i, names) ∈ m.handed →
      ∃ later earlier, m.holders (visits i).file = later ++ i :: earlier ∧
        names = Turns.lastNames here visits earlier) ∧
    ((∀ i, (m.stage i).inside = false) →
      (∀ file, m.shared.registry.get file = Turns.lastNames here visits (m.holders file)) ∧
      ∀ name, name ∈ m.shared.kept.store.names ↔ ∃ file, name ∈ m.shared.registry.get file) := by
  intro m
  have h : m.Serial here visits := (Turns.Serial.start here visits disk).after apart .sound order
  refine ⟨h.told, h.locked.once, h.handed, fun outside => ⟨?_, ?_⟩⟩
  · intro file
    rw [h.entry, Turns.writers_of_outside h.locked fun i _ => outside i]
  · intro name
    rw [h.stored name]
    refine exists_congr fun file => and_iff_left (Turns.calm_of_outside fun i _ => outside i)

/-- Two passes over one page and one over another, their steps mixed: the second one waits, and
takes over what the first one made. -/
theorem passes_serialised_mixed :
    let visits : Fin 3 → Visit := fun
      | 0 => Visit.plain "/docs/x.md" "/docs" ".vue" [.code "vue" none "<a/>"]
      | 1 => Visit.plain "/docs/x.md" "/docs" ".vue" []
      | 2 => Visit.plain "/docs/y.md" "/docs" ".vue" [.code "vue" none "<b/>"]
    let order : List (Fin 3) := [0, 2, 1, 0, 2, 0, 1, 2, 0, 2, 0, 2, 0, 1, 1, 2, 1, 1, 1, 1]
    let m := Turns.after [] Keeper.depot visits order { shared := { kept := {} } }
    (∀ i j, Digest.mark (visits i).file = Digest.mark (visits j).file →
      (visits i).file = (visits j).file) ∧
      m.handed = [(1, ["VueCode3e8846eaI0"]), (2, []), (0, [])] ∧
      m.shared.kept.store.names = ["VueCodebcdeec84I0"] ∧
      (∃ later earlier, m.holders "/docs/x.md" = later ++ 1 :: earlier ∧
        ["VueCode3e8846eaI0"] = Turns.lastNames [] visits earlier) ∧
      ∀ name, name ∈ m.shared.kept.store.names ↔ ∃ file, name ∈ m.shared.registry.get file := by
  intro visits order m
  have apart : ∀ i j, Digest.mark (visits i).file = Digest.mark (visits j).file →
      (visits i).file = (visits j).file := by decide +kernel
  have hrun : m.handed = [(1, ["VueCode3e8846eaI0"]), (2, []), (0, [])] ∧
      m.shared.kept.store.names = ["VueCodebcdeec84I0"] ∧
      ∀ i, (m.stage i).inside = false := by decide +kernel
  have serialised := passes_serialised [] {} visits apart order
  have hm : Turns.after [] Keeper.depot visits order { shared := { kept := {} } } = m := rfl
  rw [hm] at serialised
  clear_value m
  obtain ⟨hhanded, hnames, outside⟩ := hrun
  obtain ⟨-, -, serial, settled⟩ := serialised
  have hserial := serial 1 ["VueCode3e8846eaI0"] (by simp [hhanded])
  exact ⟨apart, hhanded, hnames, hserial, (settled outside).2⟩

end DemoPages
