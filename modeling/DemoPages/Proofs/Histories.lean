import DemoPages.Proofs.Outcomes
import DemoPages.Proofs.Sessions

/-!
# What keepers are told

The calls of a pass to its keeper, and how they depend on the passes before it. A session is a
sequence of passes, each with a keeper of its own, in which the registry may also be cleared; what
happened in it is a list of events, the latest first. The registry holds, for each page, the names
that are `standing` after these events (`upToDate_play`), and so `told_in_session` says what every
pass tells its keeper, however the passes before it ended.
-/

namespace DemoPages

/-! ### Steps that are followed -/

namespace Effect

variable {ε σ τ α β : Type}

/-- How a step ends, with another view of its state. -/
def viewed (view : τ → σ) : EStateM.Result ε τ α → EStateM.Result ε σ α
  | .ok a t => .ok a (view t)
  | .error e t => .error e (view t)

/-- Does a step do, in a view of its state, what another one does? -/
def Follows (view : τ → σ) (x' : EStateM ε τ α) (x : EStateM ε σ α) : Prop :=
  ∀ t, viewed view (x' t) = x (view t)

variable {view : τ → σ} {x' : EStateM ε τ α} {x : EStateM ε σ α} {f' : α → EStateM ε τ β}
  {f : α → EStateM ε σ β}

theorem Follows.final (h : Follows view x' x) (t : τ) :
    view (Effect.final (x' t)) = Effect.final (x (view t)) := by
  rw [← h t]
  cases x' t <;> rfl

theorem Follows.succeeds (h : Follows view x' x) (t : τ) :
    Effect.succeeds (x' t) = Effect.succeeds (x (view t)) := by
  rw [← h t]
  cases x' t <;> rfl

theorem Follows.bind (hx : Follows view x' x) (hf : ∀ a, Follows view (f' a) (f a)) :
    Follows view (x' >>= f') (x >>= f) := by
  intro t
  have hfirst := hx t
  cases h : x' t with
  | ok a u =>
    rw [h] at hfirst
    rw [bind_of_ok h, bind_of_ok hfirst.symm]
    exact hf a u
  | error e u =>
    rw [h] at hfirst
    rw [bind_of_error h, bind_of_error hfirst.symm]
    rfl

theorem follows_ofExcept (view : τ → σ) (r : Except ε α) :
    Follows view (MonadExcept.ofExcept r : EStateM ε τ α) (MonadExcept.ofExcept r) := by
  intro t
  cases r <;> rfl

end Effect

open Effect

/-- Does a keeper do, in a view of what it has, what another one does? -/
structure Keeper.Follows {σ τ : Type} (view : τ → σ) (k' : Keeper τ) (k : Keeper σ) : Prop where
  remove : ∀ names, Effect.Follows view (k'.remove names) (k.remove names)
  register : ∀ artifacts, Effect.Follows view (k'.register artifacts) (k.register artifacts)

namespace Pass

variable {σ τ α : Type} {view : τ → σ}

/-- A view of what a pass works on. -/
def State.viewed (view : τ → σ) (s : State τ) : State σ := { s with kept := view s.kept }

theorem follows_onShown (view : τ → σ) (act : EStateM Fault (List String) α) :
    Effect.Follows (State.viewed view) (onShown act) (onShown act) := by
  intro s
  have hshown : (State.viewed view s).shown = s.shown := rfl
  unfold onShown
  rw [hshown]
  cases act s.shown <;> rfl

theorem follows_onKept {act' : EStateM Fault τ α} {act : EStateM Fault σ α}
    (h : Effect.Follows view act' act) :
    Effect.Follows (State.viewed view) (onKept act') (onKept act) := by
  intro s
  have hkept : (State.viewed view s).kept = view s.kept := rfl
  unfold onKept
  rw [hkept, ← h s.kept]
  cases act' s.kept <;> rfl

theorem follows_holding (file : String) {act' : EStateM Fault (State τ) α}
    {act : EStateM Fault (State σ) α} (h : Effect.Follows (State.viewed view) act' act) :
    Effect.Follows (State.viewed view) (holding file act') (holding file act) := by
  intro s
  have hheld : { State.viewed view s with registry := (State.viewed view s).registry.hold file } =
      State.viewed view { s with registry := s.registry.hold file } := rfl
  unfold holding
  rw [hheld, ← h]
  cases act' _ <;> rfl

theorem follows_exchange {k' : Keeper τ} {k : Keeper σ} (h : k'.Follows view k) (file : String)
    (artifacts : List Artifact) : Effect.Follows (State.viewed view)
      (exchange k' file artifacts) (exchange k file artifacts) := by
  intro s
  refine (follows_onKept (h.remove (s.registry.get file))).bind (fun _ => ?_) s
  exact Follows.bind (fun _ => rfl) fun _ => follows_onKept (h.register artifacts)

/-- A pass whose keeper follows another one does what the pass with that one does. -/
theorem follows_run {k' : Keeper τ} {k : Keeper σ} (h : k'.Follows view k) (here : Place)
    (e : Extractor) : Effect.Follows (State.viewed view) (run here k' e) (run here k e) := by
  intro s
  refine (follows_ofExcept _ (FrontMatter.directive s.blocks)).bind (fun p => ?_) s
  refine (follows_onShown view _).bind fun replacements => ?_
  refine Follows.bind (fun _ => rfl) fun _ => ?_
  exact (follows_holding e.file (follows_exchange h e.file _)).bind fun _ _ => rfl

end Pass

/-! ### What a pass tells its keeper -/

/-- A call to a keeper, and whether the keeper did what it was told. -/
structure Told where
  call : Call
  done : Bool
  deriving DecidableEq, Repr

/-- A keeper that writes down what it was told, and whether it did it. -/
def Keeper.noted {σ : Type} (k : Keeper σ) : Keeper (List Told × σ) where
  remove names := fun s =>
    match k.remove names s.2 with
    | .ok a kept => .ok a (s.1 ++ [⟨.remove names, true⟩], kept)
    | .error f kept => .error f (s.1 ++ [⟨.remove names, false⟩], kept)
  register artifacts := fun s =>
    match k.register artifacts s.2 with
    | .ok a kept => .ok a (s.1 ++ [⟨.register artifacts, true⟩], kept)
    | .error f kept => .error f (s.1 ++ [⟨.register artifacts, false⟩], kept)

namespace Keeper

variable {σ : Type} (k : Keeper σ)

theorem follows_noted : k.noted.Follows Prod.snd k where
  remove names := by
    intro s
    unfold noted
    cases hr : k.remove names s.2 <;> simp [viewed, hr]
  register artifacts := by
    intro s
    unfold noted
    cases hr : k.register artifacts s.2 <;> simp [viewed, hr]

theorem told_remove (names : List String) (s : List Told × σ) :
    (final (k.noted.remove names s)).1 =
      s.1 ++ [⟨.remove names, Effect.succeeds (k.noted.remove names s)⟩] := by
  unfold noted
  cases hr : k.remove names s.2 <;> simp [hr, Effect.succeeds]

theorem told_register (artifacts : List Artifact) (s : List Told × σ) :
    (final (k.noted.register artifacts s)).1 =
      s.1 ++ [⟨.register artifacts, Effect.succeeds (k.noted.register artifacts s)⟩] := by
  unfold noted
  cases hr : k.register artifacts s.2 <;> simp [hr, Effect.succeeds]

/-- What is written down of a removal that is done, and of what is registered then. -/
theorem told_both {names : List String} (artifacts : List Artifact) {s : σ} {kept : List Told × σ}
    (h : k.noted.remove names ([], s) = .ok () kept) :
    (final (k.noted.register artifacts kept)).1 =
      [⟨.remove names, true⟩,
        ⟨.register artifacts, Effect.succeeds (k.noted.register artifacts kept)⟩] := by
  have hremove := k.told_remove names ([], s)
  rw [h] at hremove
  rw [told_register, show kept.1 = _ from hremove]
  rfl

end Keeper

/-- Were the components of an earlier pass removed? -/
def hasRemoved (told : List Told) : Bool :=
  told.any fun t => match t.call with
    | .remove _ => t.done
    | .register _ => false

namespace Visit

variable {σ : Type} (here : Place) (k : Keeper σ) (v : Visit)

/-- What is shared, with a blank sheet for the keeper. -/
def noting (s : Shared σ) : Shared (List Told × σ) := ⟨s.registry, ([], s.kept)⟩

/-- What the pass tells its keeper. -/
def told (s : Shared σ) : List Told := (v.after here k.noted (noting s)).kept.1

/-- Can all components of the page be computed? -/
def IsReady (s : Shared σ) : Prop := ∃ columns, Pass.Ready v.extractor (v.start s) columns

/-- All that a pass may tell its keeper: nothing, or to remove the components on record, or that and
then to register its own. It tells something if its components can be computed. Its success is that
of the last call, and what becomes of the registry is told by what was done. -/
theorem told_cases (s : Shared σ) :
    (v.told here k s = [] ∧ (v.file ≠ "" → ¬ v.IsReady s) ∧
      Effect.succeeds (v.run here k s) = false ∧ (v.after here k s).registry = s.registry) ∨
    (v.told here k s = [⟨.remove (s.registry.get v.file), false⟩] ∧ v.IsReady s ∧
      Effect.succeeds (v.run here k s) = false ∧
      (v.after here k s).registry = s.registry.free v.file) ∨
    ∃ done, v.told here k s = [⟨.remove (s.registry.get v.file), true⟩,
        ⟨.register (v.components here), done⟩] ∧ v.IsReady s ∧
      Effect.succeeds (v.run here k s) = done ∧
      (v.after here k s).registry = (s.registry.set v.file (v.names here)).free v.file := by
  have ending := Pass.run_ending here k.noted v.extractor (v.start (noting s))
  have follows := Pass.follows_run k.follows_noted here v.extractor
  have hregistry : (v.after here k s).registry = (v.after here k.noted (noting s)).registry :=
    congrArg Pass.State.registry (follows.final (v.start (noting s))).symm
  have hsucceeds : Effect.succeeds (v.run here k s) =
      Effect.succeeds (v.run here k.noted (noting s)) :=
    (follows.succeeds (v.start (noting s))).symm
  -- Readiness does not depend on what the keeper has.
  have hready : ∀ {columns}, Pass.Ready v.extractor (v.start (noting s)) columns → v.IsReady s :=
    fun ready => ⟨_, ready.read, ready.named, ready.shows⟩
  rw [hregistry, hsucceeds]
  unfold told after run
  generalize Pass.run here k.noted v.extractor (v.start (noting s)) = r at ending
  cases ending with
  | columns unread =>
    exact Or.inl ⟨rfl, fun _ ⟨_, ready⟩ => ready.no_cause (Or.inl ⟨_, unread⟩), rfl, rfl⟩
  | unnamed read file => exact Or.inl ⟨rfl, fun hfile => absurd file hfile, rfl, rfl⟩
  | highlighter read gives =>
    exact Or.inl ⟨rfl, fun _ ⟨_, ready⟩ => ready.not_givesUp gives, rfl, rfl⟩
  | remove ready removes =>
    refine Or.inr (Or.inl ⟨?_, hready ready, rfl, rfl⟩)
    have htold := k.told_remove (s.registry.get v.file) ([], s.kept)
    change k.noted.remove (s.registry.get v.file) ([], s.kept) = _ at removes
    rw [removes] at htold
    exact htold
  | @register columns f kept kept' ready removes registers =>
    refine Or.inr (Or.inr ⟨false, ?_, hready ready, rfl, rfl⟩)
    have htold := k.told_both (v.components here) removes
    change k.noted.register (v.components here) kept = _ at registers
    rw [registers] at htold
    exact htold
  | @done columns kept kept' ready removes registers =>
    refine Or.inr (Or.inr ⟨true, ?_, hready ready, rfl, rfl⟩)
    have htold := k.told_both (v.components here) removes
    change k.noted.register (v.components here) kept = _ at registers
    rw [registers] at htold
    exact htold

end Visit

/-! ### Sessions in which the registry may be cleared -/

/-- A step of a session: a pass with its keeper, or the registry is cleared. -/
inductive Step (σ : Type) where
  | pass (keeper : Keeper σ) (visit : Visit)
  | clear

/-- What is remembered of a step. Of a pass, that is its file, the components of its page, and what
its keeper was told. -/
inductive Event where
  | passed (file : String) (components : List Artifact) (told : List Told)
  | cleared

/-- The names that the next pass over a file is to have removed: those of the components of the most
recent pass over it since the registry was cleared whose keeper removed what it was told to. -/
def standing (file : String) : List Event → List String
  | [] => []
  | .cleared :: _ => []
  | .passed f components told :: earlier =>
    if f = file ∧ hasRemoved told = true then components.map Artifact.name
    else standing file earlier

namespace Step

variable {σ : Type} (here : Place)

/-- What is shared after a step. -/
def after : Step σ → Shared σ → Shared σ
  | .pass k v, s => v.after here k s
  | .clear, s => { s with registry := s.registry.clear }

/-- What is remembered of a step. -/
def event : Step σ → Shared σ → Event
  | .pass k v, s => .passed v.file (v.components here) (v.told here k s)
  | .clear, _ => .cleared

end Step

section Play

variable {σ : Type} (here : Place)

/-- What is shared after some steps, and the events, the latest first. -/
def play (steps : List (Step σ)) (s : Shared σ) : Shared σ × List Event :=
  steps.foldl (fun p step => (step.after here p.1, step.event here p.1 :: p.2)) (s, [])

/-- Does the registry hold what is standing after some events, and no lock? -/
structure UpToDate (registry : Registry) (events : List Event) : Prop where
  names : ∀ file, registry.get file = standing file events
  free : registry.held = []

/-- A step keeps the registry up to date. -/
theorem Step.upToDate_after (step : Step σ) {s : Shared σ} {events : List Event}
    (h : UpToDate s.registry events) :
    UpToDate (step.after here s).registry (step.event here s :: events) := by
  cases step with
  | clear => exact ⟨fun file => rfl, h.free⟩
  | pass k v =>
    show UpToDate (v.after here k s).registry
      (.passed v.file (v.components here) (v.told here k s) :: events)
    rcases v.told_cases here k s with ⟨htold, -, -, hregistry⟩ | ⟨htold, -, -, hregistry⟩ |
      ⟨done, htold, -, -, hregistry⟩
    · rw [htold, hregistry]
      exact ⟨fun file => by simpa [standing, hasRemoved] using h.names file, h.free⟩
    · rw [htold, hregistry]
      refine ⟨fun file => ?_, by simp [Registry.free, h.free]⟩
      simpa [standing, hasRemoved] using h.names file
    · rw [htold, hregistry]
      refine ⟨fun file => ?_, by simp [Registry.free, Registry.set, h.free]⟩
      rw [Registry.get_free, standing]
      by_cases hfile : v.file = file
      · rw [if_pos ⟨hfile, by simp [hasRemoved]⟩, ← hfile, Registry.get_set_self]
        rfl
      · rw [if_neg fun h => hfile h.1, Registry.get_set_of_ne _ _ (Ne.symm hfile), h.names]

theorem upToDate_play (steps : List (Step σ)) (kept : σ) :
    UpToDate (play here steps { kept }).1.registry (play here steps { kept }).2 := by
  have run : ∀ p : Shared σ × List Event, UpToDate p.1.registry p.2 →
      UpToDate (steps.foldl (fun p step => (step.after here p.1, step.event here p.1 :: p.2))
        p).1.registry
        (steps.foldl (fun p step => (step.after here p.1, step.event here p.1 :: p.2)) p).2 := by
    induction steps with
    | nil => exact fun p h => h
    | cons step steps ih => exact fun p h => ih _ (step.upToDate_after here h)
  exact run _ ⟨fun file => rfl, rfl⟩

/-- **What a pass tells its keeper depends on what the passes before it removed**, whatever pages
they were over and however they ended. It tells nothing, or to remove what is standing for its page,
once, and to register its own components, once, if and only if the removal was done. If its page has
a path, it tells nothing exactly where its components cannot be computed; and it ends well exactly
where both were done. A pass that fails before the removal is done leaves the names on record for
its page as they are, no pass changes those of another page, and no lock is left behind. -/
theorem told_in_session (steps : List (Step σ)) (kept : σ) (k : Keeper σ) (v : Visit) :
    let s := (play here steps { kept }).1
    let names := standing v.file (play here steps { kept }).2
    let told := v.told here k s
    let s' := v.after here k s
    (told = [] ∨ told = [⟨.remove names, false⟩] ∨
      ∃ done, told = [⟨.remove names, true⟩, ⟨.register (v.components here), done⟩]) ∧
    (v.file ≠ "" → (told = [] ↔ ¬ v.IsReady s)) ∧
    (Effect.succeeds (v.run here k s) = true ↔
      told = [⟨.remove names, true⟩, ⟨.register (v.components here), true⟩]) ∧
    (hasRemoved told = false → s'.registry.get v.file = s.registry.get v.file) ∧
    (∀ file, file ≠ v.file → s'.registry.get file = s.registry.get file) ∧
    s'.registry.held = [] := by
  intro s names told s'
  have before := upToDate_play here steps kept
  have after := (Step.pass k v).upToDate_after here before
  have cases := v.told_cases here k s
  rw [show s.registry.get v.file = names from before.names v.file] at cases
  rcases cases with ⟨htold, hunready, hfails, hregistry⟩ | ⟨htold, hready, hfails, hregistry⟩ |
    ⟨done, htold, hready, hends, hregistry⟩
  · -- The pass fails before it tells anything.
    refine ⟨Or.inl htold, fun hfile => iff_of_true htold (hunready hfile),
      by simp [hfails, told, htold], fun _ => ?_, fun file _ => ?_, after.free⟩
    · exact congrArg (Registry.get · v.file) hregistry
    · exact congrArg (Registry.get · file) hregistry
  · -- The removal fails.
    refine ⟨Or.inr (Or.inl htold), fun _ => iff_of_false (by simp [told, htold]) (absurd hready),
      by simp [hfails, told, htold], fun _ => ?_, fun file _ => ?_, after.free⟩
    · rw [show s'.registry = _ from hregistry, Registry.get_free]
    · rw [show s'.registry = _ from hregistry, Registry.get_free]
  · -- The removal is done.
    refine ⟨Or.inr (Or.inr ⟨done, htold⟩),
      fun _ => iff_of_false (by simp [told, htold]) (absurd hready), by simp [hends, told, htold],
      fun hnot => ?_, fun file hfile => ?_, after.free⟩
    · simp [told, htold, hasRemoved] at hnot
    · rw [show s'.registry = _ from hregistry, Registry.get_free, Registry.get_set_of_ne _ _ hfile]

/-- A removal that fails does not count: what the pass before it made is still to be removed. -/
example :
    let page (blocks : List Node) := Visit.plain "/docs/a.md" "/docs" ".vue" blocks
    let tired : Keeper Unit := ⟨fun _ => throw (.keeper "tired"), fun _ => pure ()⟩
    standing "/docs/a.md" (play [] [.pass Keeper.idle (page [.code "vue" none "<a/>"]),
      .pass tired (page [])] { kept := () }).2 = ["VueCode0f805578I0"] := by
  decide +kernel

end Play

end DemoPages
