import DemoPages.Proofs.Sources

/-!
# What a run does not look at

Two runs are compared that start from disks with the same at some places, the watched ones. If these
are all that the paths come by that the runs follow, then the runs end alike: in the same results or
with the same fault, with the same registry and store, and with the same at the watched places.
-/

namespace DemoPages

/-! ### Steps that end alike -/

namespace Effect

variable {ε σ α β : Type}

/-- Two steps end alike: with the same answer or with the same fault, in states that are related. -/
inductive Alike (R : σ → σ → Prop) : EStateM.Result ε σ α → EStateM.Result ε σ α → Prop where
  | ok (a : α) {t t' : σ} (h : R t t') : Alike R (.ok a t) (.ok a t')
  | error (e : ε) {t t' : σ} (h : R t t') : Alike R (.error e t) (.error e t')

variable {R : σ → σ → Prop}

theorem Alike.bind {x : EStateM ε σ α} {f : α → EStateM ε σ β} {s s' : σ}
    (hx : Alike R (x s) (x s')) (hf : ∀ a t t', R t t' → Alike R (f a t) (f a t')) :
    Alike R ((x >>= f) s) ((x >>= f) s') := by
  generalize h : x s = r at hx
  generalize h' : x s' = r' at hx
  cases hx with
  | ok a hR =>
    rw [bind_of_ok h, bind_of_ok h']
    exact hf a _ _ hR
  | error e hR =>
    rw [bind_of_error h, bind_of_error h']
    exact .error e hR

theorem alike_ofExcept (x : Except ε α) {s s' : σ} (h : R s s') :
    Alike R ((MonadExcept.ofExcept x : EStateM ε σ α) s)
      ((MonadExcept.ofExcept x : EStateM ε σ α) s') := by
  cases x with
  | ok a => exact .ok a h
  | error e => exact .error e h

end Effect

open Effect

/-! ### Disks -/

namespace Disk

variable {watched : Place → Prop} {here : Place} {d d' : Disk} {path : Path}

/-- Two disks have the same at the places that are watched, and relative paths are read from
`here`. -/
structure Agree (watched : Place → Prop) (here : Place) (d d' : Disk) : Prop where
  start : d.here = here
  start' : d'.here = here
  look : ∀ q, watched q → d'.look? q = d.look? q

/-- Are all places watched that a path comes by? -/
def Follows (watched : Place → Prop) (here : Place) (path : Path) : Prop :=
  ∀ n, watched (Place.resolve here { path with segments := path.segments.take n })

theorem Follows.take (h : Follows watched here path) (n : Nat) :
    Follows watched here { path with segments := path.segments.take n } := fun m => by
  rw [List.take_take]
  exact h (min m n)

theorem Follows.resolve (h : Follows watched here path) : watched (Place.resolve here path) := by
  have hwhole := h path.segments.length
  rwa [List.take_length] at hwhole

/-- The path to a place comes by what the place lies in. -/
theorem follows_toPath {q : Place} (hdots : ".." ∉ q) (h : ∀ r, r <+: q → watched r) :
    Follows watched here (Place.toPath q) := fun n => by
  have htake := List.take_prefix n q
  have hresolve : Place.resolve here ⟨.root, q.take n⟩ = q.take n :=
    Place.settle_of_not_mem fun hmem => hdots (htake.subset hmem)
  show watched (Place.resolve here ⟨.root, q.take n⟩)
  rw [hresolve]
  exact h _ htake

theorem walk_congr (hlook : ∀ q, watched q → d'.look? q = d.look? q) {base : Place}
    {segments : List String} (hdots : ".." ∉ base)
    (h : ∀ n, watched (Place.settle (base ++ segments.take n))) :
    d'.walk base segments = d.walk base segments := by
  induction segments generalizing base with
  | nil => rfl
  | cons s rest ih =>
    have hbase : watched base := by
      have hfirst := h 0
      rwa [List.take_zero, List.append_nil, Place.settle_of_not_mem hdots] at hfirst
    rw [walk, walk, hlook base hbase, ← Place.settle_step hdots]
    rw [ih (Place.dots_not_mem_settle _) fun n => ?_]
    rw [← Place.settle_append, List.append_assoc]
    exact h (n + 1)

namespace Agree

variable (agree : Agree watched here d d') (hdots : ".." ∉ here)
include agree

theorem set {q : Place} (hq : q ≠ []) (e : Entry) :
    Agree watched here (d.set q e) (d'.set q e) where
  start := agree.start
  start' := agree.start'
  look r hr := by
    by_cases hrq : r = q
    · subst hrq
      rw [look?_set_self d hq, look?_set_self d' hq]
    · rw [look?_set_of_ne d hrq, look?_set_of_ne d' hrq, agree.look r hr]

theorem clear {q : Place} (hq : q ≠ []) : Agree watched here (d.clear q) (d'.clear q) where
  start := agree.start
  start' := agree.start'
  look r hr := by
    by_cases hrq : r = q
    · subst hrq
      rw [look?_clear_self d hq, look?_clear_self d' hq]
    · rw [look?_clear_of_ne d hrq, look?_clear_of_ne d' hrq, agree.look r hr]

include hdots

theorem locate (follows : Follows watched here path) : d'.locate path = d.locate path := by
  unfold Disk.locate
  rw [agree.start, agree.start']
  split
  · rfl
  · refine walk_congr agree.look ?_ follows
    split
    · exact hdots
    · exact List.not_mem_nil

/-- A path leads to a place that is watched. -/
theorem watched_of_locate (follows : Follows watched here path) {q : Place}
    (h : d.locate path = .ok q) : watched q := by
  have hq := locate_ok (agree.start ▸ hdots) h
  rw [hq, agree.start]
  exact follows.resolve

theorem isDirectory (follows : Follows watched here path) :
    d'.isDirectory path = d.isDirectory path := by
  unfold Disk.isDirectory find?
  rw [agree.locate hdots follows]
  cases h : d.locate path with
  | error cause => rfl
  | ok q => simp only [agree.look q (agree.watched_of_locate hdots follows h)]

theorem makeDirectory (follows : Follows watched here path) :
    Alike (Agree watched here) (makeDirectory path d) (makeDirectory path d') := by
  unfold Disk.makeDirectory
  rw [agree.locate hdots follows]
  cases h : d.locate path with
  | error cause => exact .error _ agree
  | ok q =>
    dsimp only
    rw [agree.look q (agree.watched_of_locate hdots follows h)]
    split
    · exact .error _ agree
    · rename_i hnew
      refine .ok () (agree.set ?_ _)
      rintro rfl
      exact hnew (Or.inr rfl)

theorem ensureDirectory (follows : Follows watched here path) :
    Alike (Agree watched here) (ensureDirectory path d) (ensureDirectory path d') := by
  have hmake := agree.makeDirectory hdots follows
  unfold Disk.ensureDirectory
  generalize Disk.makeDirectory path d = r at hmake
  generalize Disk.makeDirectory path d' = r' at hmake
  cases hmake with
  | ok _ agree' => exact .ok () agree'
  | error f agree' =>
    dsimp only
    rw [agree'.isDirectory hdots follows]
    split
    · exact .ok () agree'
    · exact .error f agree'

theorem ensureSegments (follows : Follows watched here path) (n : Nat) :
    Alike (Agree watched here) (ensureSegments path n d) (ensureSegments path n d') := by
  induction n generalizing d d' with
  | zero => exact agree.ensureDirectory hdots (follows.take 0)
  | succ n ih =>
    have hfirst := agree.ensureDirectory hdots (follows.take (n + 1))
    simp only [Disk.ensureSegments]
    generalize Disk.ensureDirectory _ d = r at hfirst
    generalize Disk.ensureDirectory _ d' = r' at hfirst
    cases hfirst with
    | ok _ agree' => exact .ok () agree'
    | error f agree' =>
      dsimp only
      split
      · exact (ih agree').bind fun _ _ _ agree'' =>
          agree''.ensureDirectory hdots (follows.take (n + 1))
      · exact .error f agree'

theorem ensureDirectories (follows : Follows watched here path) :
    Alike (Agree watched here) (ensureDirectories path d) (ensureDirectories path d') :=
  agree.ensureSegments hdots follows _

theorem writeText (follows : Follows watched here path) (text : String) :
    Alike (Agree watched here) (writeText path text d) (writeText path text d') := by
  unfold Disk.writeText writeBytes
  rw [agree.locate hdots follows]
  cases h : d.locate path with
  | error cause => exact .error _ agree
  | ok q =>
    dsimp only
    rw [agree.look q (agree.watched_of_locate hdots follows h)]
    split
    · exact .error _ agree
    · rename_i hfile
      refine .ok () (agree.set ?_ _)
      rintro rfl
      exact hfile (look?_nil d)

theorem deleteFile (follows : Follows watched here path) :
    Alike (Agree watched here) (deleteFile path d) (deleteFile path d') := by
  unfold Disk.deleteFile
  rw [agree.locate hdots follows]
  cases h : d.locate path with
  | error cause =>
    cases cause with
    | missing => exact .ok () agree
    | _ => exact .error _ agree
  | ok q =>
    dsimp only
    rw [agree.look q (agree.watched_of_locate hdots follows h)]
    cases hlook : d.look? q with
    | none => exact .ok () agree
    | some e =>
      cases e with
      | directory => exact .error _ agree
      | file bytes =>
        refine .ok () (agree.clear ?_)
        rintro rfl
        cases hlook

theorem read (follows : Follows watched here path) (reader : Markdown.Reader) (dialect : String) :
    Page.read reader path dialect d' = Page.read reader path dialect d := by
  unfold Page.read readBytes
  rw [agree.locate hdots follows]
  cases h : d.locate path with
  | error cause => rfl
  | ok q =>
    dsimp only
    rw [agree.look q (agree.watched_of_locate hdots follows h)]
    cases d.look? q with
    | none => rfl
    | some e => cases e <;> rfl

end Agree

end Disk

/-! ### Stores -/

namespace Depot

variable {watched : Place → Prop} {here : Place} {output : Option Path} {d d' : Depot}

/-- Two stores are the same and write to `output`, and their disks agree. -/
structure Agree (watched : Place → Prop) (here : Place) (output : Option Path) (d d' : Depot) :
    Prop where
  store : d'.store = d.store
  output : d.store.output = output
  disk : Disk.Agree watched here d.disk d'.disk

/-- Is every place watched that leads to something in the output directory? -/
def Guards (watched : Place → Prop) (here : Place) (output : Option Path) : Prop :=
  ∀ dir, output = some dir → ∀ q, Place.resolve here dir <+: q → ∀ r, r <+: q → watched r

namespace Agree

variable (agree : Agree watched here output d d')
include agree

theorem onDisk {α : Type} {act : Disk.Action α}
    (alike : Alike (Disk.Agree watched here) (act d.disk) (act d'.disk)) :
    Alike (Agree watched here output) (onDisk act d) (onDisk act d') := by
  unfold Depot.onDisk
  rw [agree.store]
  generalize act d.disk = r at alike
  generalize act d'.disk = r' at alike
  cases alike with
  | ok a h => exact .ok a ⟨rfl, agree.output, h⟩
  | error f h => exact .error _ ⟨rfl, agree.output, h⟩

theorem keep (artifacts : List Artifact) :
    Agree watched here output (d.keep artifacts) (d'.keep artifacts) :=
  ⟨by rw [Depot.keep, Depot.keep, agree.store], agree.output, agree.disk⟩

theorem forget (name : String) : Agree watched here output (d.forget name) (d'.forget name) :=
  ⟨by rw [Depot.forget, Depot.forget, agree.store], agree.output, agree.disk⟩

/-- The file of a component is watched, and what it lies in. -/
theorem follows_target (guards : Guards watched here output) {dir : Path}
    {a : Artifact} {q : Place} (hdir : d.store.output = some dir)
    (hq : Store.target here dir a = .ok q) :
    ".." ∉ q ∧ ∀ r, r <+: q → watched r :=
  ⟨Store.dots_not_mem_target hq,
    guards dir (agree.output.symm.trans hdir) q (Store.target_ok hq).2⟩

variable (hdots : ".." ∉ here) (guards : Guards watched here output)
include hdots

theorem writeAll {l : List (Artifact × Place)}
    (hl : ∀ ap ∈ l, ".." ∉ ap.2 ∧ ∀ r, r <+: ap.2 → watched r) :
    Alike (Agree watched here output) (writeAll .sound l d) (writeAll .sound l d') := by
  induction l generalizing d d' with
  | nil => exact .ok () agree
  | cons ap rest ih =>
    obtain ⟨a, place⟩ := ap
    obtain ⟨hplace, hwatched⟩ := hl _ List.mem_cons_self
    have hdir : Disk.Follows watched here (Place.toPath place.dropLast) :=
      Disk.follows_toPath (fun hmem => hplace ((List.dropLast_prefix place).subset hmem))
        fun r hr => hwatched r (hr.trans (List.dropLast_prefix place))
    have hfile : Disk.Follows watched here (Place.toPath place) :=
      Disk.follows_toPath hplace hwatched
    refine (agree.onDisk (agree.disk.ensureDirectories hdots hdir)).bind fun _ u u' agree' => ?_
    refine (agree'.onDisk (agree'.disk.writeText hdots hfile _)).bind fun _ v v' agree'' => ?_
    exact ih agree'' fun ap hap => hl ap (List.mem_cons_of_mem _ hap)

include guards

theorem registerBy (artifacts : List Artifact) :
    Alike (Agree watched here output) (registerBy .sound artifacts d)
      (registerBy .sound artifacts d') := by
  unfold Depot.registerBy
  rw [agree.store]
  cases hdir : d.store.output with
  | none => exact .ok () (agree.keep artifacts)
  | some dir =>
    dsimp only
    rw [agree.disk.start, agree.disk.start']
    cases hplaces : Store.targets here dir artifacts with
    | error f => exact .error f agree
    | ok places =>
      obtain ⟨-, htarget⟩ := Store.targets_ok hplaces
      exact (agree.keep artifacts).writeAll hdots fun ap hap =>
        agree.follows_target guards hdir (htarget ap hap)

theorem removeOne (name : String) :
    Alike (Agree watched here output) (removeOne .sound name d) (removeOne .sound name d') := by
  unfold Depot.removeOne
  rw [agree.store]
  cases d.store.get? name with
  | none => exact .ok () agree
  | some a =>
    dsimp only
    cases hdir : d.store.output with
    | none => exact .ok () (agree.forget name)
    | some dir =>
      dsimp only
      rw [agree.disk.start, agree.disk.start']
      cases hq : Store.target here dir a with
      | error f => exact .error f (agree.forget name)
      | ok q =>
        obtain ⟨hplace, hwatched⟩ := agree.follows_target guards hdir hq
        exact (agree.forget name).onDisk
          ((agree.forget name).disk.deleteFile hdots (Disk.follows_toPath hplace hwatched))

theorem removeBy (names : List String) :
    Alike (Agree watched here output) (removeBy .sound names d) (removeBy .sound names d') := by
  induction names generalizing d d' with
  | nil => exact .ok () agree
  | cons name names ih =>
    exact (agree.removeOne hdots guards name).bind fun _ _ _ agree' => ih agree'

end Agree

end Depot

/-! ### Passes -/

namespace Pass

variable {σ α : Type} {R : σ → σ → Prop}

/-- Two passes are equally far, and what their keepers have is related. -/
structure State.Agree (R : σ → σ → Prop) (s s' : State σ) : Prop where
  blocks : s'.blocks = s.blocks
  shown : s'.shown = s.shown
  registry : s'.registry = s.registry
  kept : R s.kept s'.kept

theorem alike_onShown (act : EStateM Fault (List String) α) {s s' : State σ} (h : s.Agree R s') :
    Alike (State.Agree R) (onShown act s) (onShown act s') := by
  unfold onShown
  rw [h.shown]
  cases act s.shown with
  | ok a shown => exact .ok a ⟨h.blocks, rfl, h.registry, h.kept⟩
  | error f shown => exact .error f ⟨h.blocks, rfl, h.registry, h.kept⟩

theorem alike_onKept {act : EStateM Fault σ α} {s s' : State σ} (h : s.Agree R s')
    (alike : Alike R (act s.kept) (act s'.kept)) :
    Alike (State.Agree R) (onKept act s) (onKept act s') := by
  unfold onKept
  generalize act s.kept = r at alike
  generalize act s'.kept = r' at alike
  cases alike with
  | ok a hR => exact .ok a ⟨h.blocks, h.shown, h.registry, hR⟩
  | error f hR => exact .error f ⟨h.blocks, h.shown, h.registry, hR⟩

theorem alike_holding {act : EStateM Fault (State σ) α} (file : String) {s s' : State σ}
    (h : s.Agree R s')
    (alike : ∀ t t', State.Agree R t t' → Alike (State.Agree R) (act t) (act t')) :
    Alike (State.Agree R) (holding file act s) (holding file act s') := by
  have hheld : Alike (State.Agree R) (act { s with registry := s.registry.hold file })
      (act { s' with registry := s'.registry.hold file }) :=
    alike _ _ ⟨h.blocks, h.shown, congrArg (·.hold file) h.registry, h.kept⟩
  unfold holding
  generalize act { s with registry := s.registry.hold file } = r at hheld
  generalize act { s' with registry := s'.registry.hold file } = r' at hheld
  cases hheld with
  | ok a hR => exact .ok a ⟨hR.blocks, hR.shown, congrArg (·.free file) hR.registry, hR.kept⟩
  | error f hR => exact .error f ⟨hR.blocks, hR.shown, congrArg (·.free file) hR.registry, hR.kept⟩

variable {k : Keeper σ}
  (hremove : ∀ names t t', R t t' → Alike R (k.remove names t) (k.remove names t'))
  (hregister : ∀ artifacts t t', R t t' →
    Alike R (k.register artifacts t) (k.register artifacts t'))
include hremove hregister

theorem alike_exchange (file : String) (artifacts : List Artifact) {s s' : State σ}
    (h : s.Agree R s') :
    Alike (State.Agree R) (exchange k file artifacts s) (exchange k file artifacts s') := by
  unfold exchange
  rw [get_bind, get_bind, h.registry]
  refine (alike_onKept h (hremove _ _ _ h.kept)).bind fun _ t t' hR => ?_
  rw [modify_bind, modify_bind]
  exact alike_onKept
    ⟨hR.blocks, hR.shown, congrArg (fun r : Registry => r.set file _) hR.registry, hR.kept⟩
    (hregister _ _ _ hR.kept)

/-- Two passes end alike if what their keepers do does. -/
theorem alike_run (here : Place) (e : Extractor) {s s' : State σ} (h : s.Agree R s') :
    Alike (State.Agree R) (run here k e s) (run here k e s') := by
  unfold run
  rw [get_bind, get_bind, h.blocks]
  refine (alike_ofExcept _ h).bind fun read t t' hR => ?_
  refine (alike_onShown _ hR).bind fun rs u u' hR => ?_
  have hspliced : State.Agree R { u with blocks := Replacement.splice read.1 rs }
      { u' with blocks := Replacement.splice read.1 rs } :=
    ⟨rfl, hR.shown, hR.registry, hR.kept⟩
  rw [modify_bind, modify_bind]
  refine (alike_holding e.file hspliced fun t t' hR =>
    alike_exchange hremove hregister e.file _ hR).bind fun _ v v' hR => ?_
  refine .ok _ ⟨?_, hR.shown, hR.registry, hR.kept⟩
  dsimp only
  rw [hR.blocks]

end Pass

/-! ### Runs -/

namespace Site

variable {watched : Place → Prop} {here : Place} {output : Option Path} {tools : Tools}
  {s : Settings} {root : Place} {st st' : State}

/-- Two runs are equally far, and their disks agree. -/
structure State.Agree (watched : Place → Prop) (here : Place) (output : Option Path)
    (st st' : State) : Prop where
  registry : st'.registry = st.registry
  depot : Depot.Agree watched here output st.depot st'.depot

namespace State.Agree

variable (agree : st.Agree watched here output st')
include agree

theorem onDisk {α : Type} {act : Disk.Action α}
    (alike : Alike (Disk.Agree watched here) (act st.depot.disk) (act st'.depot.disk)) :
    Alike (State.Agree watched here output) (Site.onDisk act st) (Site.onDisk act st') := by
  have hdepot := agree.depot.onDisk alike
  unfold Site.onDisk
  rw [agree.registry]
  generalize Depot.onDisk act st.depot = r at hdepot
  generalize Depot.onDisk act st'.depot = r' at hdepot
  cases hdepot with
  | ok a h => exact .ok a ⟨rfl, h⟩
  | error f h => exact .error f ⟨rfl, h⟩

variable (hdots : ".." ∉ here) (guards : Depot.Guards watched here output)
include hdots guards

theorem extract (e : Extractor) (blocks : List Node) :
    Alike (State.Agree watched here output) (extract e blocks st) (extract e blocks st') := by
  have hstart : Pass.State.Agree (Depot.Agree watched here output)
      { blocks, registry := st.registry, kept := st.depot }
      { blocks, registry := st'.registry, kept := st'.depot } :=
    ⟨rfl, rfl, agree.registry, agree.depot⟩
  have hpass := Pass.alike_run (k := .depot)
    (fun names _ _ h => Depot.Agree.removeBy h hdots guards names)
    (fun artifacts _ _ h => Depot.Agree.registerBy h hdots guards artifacts) here e hstart
  unfold Site.extract
  rw [agree.depot.disk.start, agree.depot.disk.start']
  generalize Pass.run here .depot e { blocks, registry := st.registry, kept := st.depot } = r
    at hpass
  generalize Pass.run here .depot e { blocks, registry := st'.registry, kept := st'.depot } = r'
    at hpass
  cases hpass with
  | ok _ h =>
    dsimp only
    rw [h.blocks]
    exact .ok _ ⟨h.registry, h.kept⟩
  | error f h => exact .error f ⟨h.registry, h.kept⟩

end State.Agree

/-- Are all places watched where a run may write, and that lead there? -/
def Paved (watched : Place → Prop) (s : Settings) (here : Place) (output : Option Path) : Prop :=
  ∀ q, Paves s here output q → watched q

theorem Paved.guards (paved : Paved watched s here output) : Depot.Guards watched here output :=
  fun dir hdir q hq r hr => paved r (Or.inl ⟨q, Or.inr ⟨dir, hdir, hq⟩, hr⟩)

/-- The way to a page that is written is watched. -/
theorem Paved.follows_written (paved : Paved watched s here output) {source : Place}
    (hdots : ".." ∉ source) : Disk.Follows watched here (written s root source) := by
  have hunder : Reaches s here output (base s here ++ source.drop root.length) :=
    Or.inl (List.prefix_append _ _)
  intro n
  by_cases hn : (written s root source).segments.length ≤ n
  · rw [List.take_of_length_le hn]
    exact paved _ (Or.inl ⟨_, hunder, (resolve_written here hdots).symm ▸ List.prefix_rfl⟩)
  · have htake : (written s root source).segments.take n =
        (written s root source).parent.segments.take n := by
      show _ = (written s root source).segments.dropLast.take n
      rw [List.dropLast_eq_take, List.take_take, Nat.min_eq_left (by omega)]
    rw [htake]
    rcases @resolve_parent_written s root source here hdots n with ⟨m, hm⟩ | hprefix
    · exact paved _ (Or.inr ⟨m, hm⟩)
    · exact paved _ (Or.inl ⟨_, hunder, hprefix⟩)

/-- A page is built alike if its source is watched, and what it lies in. -/
theorem alike_page (agree : st.Agree watched here output st') (hdots : ".." ∉ here)
    (paved : Paved watched s here output) {p : Path}
    (hsource : ∀ r, r <+: Place.resolve here p → watched r) :
    Alike (State.Agree watched here output) (page tools s root p st) (page tools s root p st') := by
  have hplace : ".." ∉ Place.resolve here p := Place.dots_not_mem_settle _
  have hwritten : Disk.Follows watched here (written s root (Place.resolve here p)) :=
    paved.follows_written hplace
  have hparent : Disk.Follows watched here (written s root (Place.resolve here p)).parent := by
    unfold Path.parent
    rw [List.dropLast_eq_take]
    exact hwritten.take _
  unfold page
  rw [get_bind, get_bind, agree.depot.disk.start, agree.depot.disk.start']
  split
  · rw [agree.depot.disk.read hdots (Disk.follows_toPath hplace hsource)]
    refine (alike_ofExcept _ agree).bind fun blocks t t' agree => ?_
    refine (agree.extract hdots paved.guards _ blocks).bind fun blocks' u u' agree => ?_
    refine (agree.onDisk (agree.depot.disk.ensureDirectories hdots hparent)).bind
      fun _ v v' agree => ?_
    refine (agree.onDisk (agree.depot.disk.writeText hdots hwritten _)).bind fun _ w w' agree => ?_
    rw [get_bind, get_bind, agree.registry]
    exact .ok _ agree
  · exact .error _ agree

theorem alike_naming {α : Type} {R : State → State → Prop} {act : Action α} (p : Path)
    (alike : Alike R (act st) (act st')) : Alike R (naming p act st) (naming p act st') := by
  unfold naming
  generalize act st = r at alike
  generalize act st' = r' at alike
  cases alike with
  | ok a h => exact .ok a h
  | error f h => exact .error _ h

theorem alike_pages (agree : st.Agree watched here output st') (hdots : ".." ∉ here)
    (paved : Paved watched s here output) {ps : List Path}
    (hsources : ∀ p ∈ ps, ∀ r, r <+: Place.resolve here p → watched r) :
    Alike (State.Agree watched here output) (pages tools s root ps st)
      (pages tools s root ps st') := by
  induction ps generalizing st st' with
  | nil => exact .ok [] agree
  | cons p ps ih =>
    refine (alike_naming p (alike_page agree hdots paved (hsources p List.mem_cons_self))).bind
      fun r t t' agree => ?_
    refine (ih agree fun q hq => hsources q (List.mem_cons_of_mem _ hq)).bind
      fun rs u u' agree => ?_
    exact .ok (r :: rs) agree

/-- A run ends alike if it finds the same pages, and they are watched. -/
theorem alike_run (agree : st.Agree watched here output st') (hdots : ".." ∉ here)
    (paved : Paved watched s here output) {path : String}
    (hfound : discover st'.depot.disk (.ofString path) = discover st.depot.disk (.ofString path))
    (hsources : ∀ p ∈ discover st.depot.disk (.ofString path), ∀ r,
      r <+: Place.resolve here p → watched r) :
    Alike (State.Agree watched here output) (run tools s path st) (run tools s path st') := by
  have hroot : Site.root s st'.depot.disk = Site.root s st.depot.disk := by
    unfold Site.root
    rw [agree.depot.disk.start, agree.depot.disk.start']
  unfold run
  rw [get_bind, get_bind, hroot, hfound]
  exact (alike_ofExcept _ agree).bind fun root t t' agree => alike_pages agree hdots paved hsources

end Site

end DemoPages
