import DemoPages.Proofs.Rewriting

/-!
# How a pass ends

Every way a pass can end, with the state it ends in: before the keeper is told anything, when it is
told to remove, when it is told to register, or at the end. `Pass.run_ending` says that there is no
other; what passes do to pages, registries and keepers is read off its cases.
-/

namespace DemoPages

namespace FrontMatter

/-- The blocks of a page without its front matter. -/
def strip (blocks : List Node) : List Node := blocks.filter fun b => !b.isFrontMatter

theorem directive_ok {blocks rest : List Node} {columns : Nat} :
    directive blocks = .ok (rest, columns) ↔
      columnsFrom 1 blocks = .ok columns ∧ rest = strip blocks := by
  unfold directive strip
  cases columnsFrom 1 blocks with
  | error f => simp [Except.map]
  | ok n => simp [Except.map, and_comm, eq_comm]

theorem directive_error {blocks : List Node} {f : Fault} :
    directive blocks = .error f ↔ columnsFrom 1 blocks = .error f := by
  unfold directive
  cases columnsFrom 1 blocks <;> simp [Except.map]

/-- Front matter holds no demo. -/
theorem codesOf_strip (lang : String) (blocks : List Node) :
    Node.codesOf lang (strip blocks) = Node.codesOf lang blocks := by
  unfold strip
  induction blocks with
  | nil => rfl
  | cons b bs ih =>
    by_cases hb : b.isFrontMatter = true
    · have hcodes : b.codes lang = [] := by
        cases b with
        | frontMatter value => simp [Node.codes]
        | _ => cases hb
      rw [List.filter_cons_of_neg (by simp [hb]), ih, Node.codesOf, hcodes, List.nil_append]
    · rw [List.filter_cons_of_pos (by simp [hb]), Node.codesOf, Node.codesOf, ih]

end FrontMatter

namespace Pass

open Effect FrontMatter

variable {σ : Type}

/-- The codes of the demos that a pass finds. -/
def State.codes (s : State σ) (e : Extractor) : List String :=
  Node.codesOf e.options.lang s.blocks

/-- The components that a pass makes. -/
def State.components (s : State σ) (e : Extractor) (here : Place) : List Artifact :=
  e.components here (strip s.blocks)

/-- The names of the components that a pass makes. -/
def State.names (s : State σ) (e : Extractor) (here : Place) : List String :=
  (s.components e here).map Artifact.name

/-- All components of a pass can be computed: its columns are read, its page is named if it has
demos, and the highlighter shows every code. -/
structure Ready (e : Extractor) (s : State σ) (columns : Nat) : Prop where
  read : columnsFrom 1 s.blocks = .ok columns
  named : s.codes e ≠ [] → e.file ≠ ""
  shows : ∀ n code, (s.codes e)[n]? = some code →
    ∃ text, e.highlighter (s.shown ++ (s.codes e).take n) code = .ok text

/-- A pass whose components are computed, with the front matter off and the references in. -/
def State.rewritten (s : State σ) (e : Extractor) : State σ :=
  { s with blocks := e.rewrite s.shown (strip s.blocks), shown := s.shown ++ s.codes e }

/-- How a pass may end that began in the state `s`. -/
inductive Ending (here : Place) (keeper : Keeper σ) (e : Extractor) (s : State σ) :
    EStateM.Result Fault (State σ) Unit → Prop where
  /-- The number of columns cannot be read. -/
  | columns {f : Fault} (unread : columnsFrom 1 s.blocks = .error f) :
    Ending here keeper e s (.error f s)
  /-- There are demos, and nothing to name them after. -/
  | unnamed {columns : Nat} (read : columnsFrom 1 s.blocks = .ok columns) (file : e.file = "") :
    Ending here keeper e s (.error .emptyIdentity s)
  /-- The highlighter gives up on a code. -/
  | highlighter {columns n : Nat} {code : String} {f : Fault}
    (read : columnsFrom 1 s.blocks = .ok columns)
    (gives : e.GivesUp s.shown (s.codes e) n code f) :
    Ending here keeper e s (.error f { s with shown := s.shown ++ (s.codes e).take (n + 1) })
  /-- The keeper fails to remove the components of the last pass. -/
  | remove {columns : Nat} {f : Fault} {kept : σ} (ready : Ready e s columns)
    (removes : keeper.remove (s.registry.get e.file) s.kept = .error f kept) :
    Ending here keeper e s
      (.error f { s.rewritten e with registry := s.registry.free e.file, kept })
  /-- The keeper fails to register the components. -/
  | register {columns : Nat} {f : Fault} {kept kept' : σ} (ready : Ready e s columns)
    (removes : keeper.remove (s.registry.get e.file) s.kept = .ok () kept)
    (registers : keeper.register (s.components e here) kept = .error f kept') :
    Ending here keeper e s
      (.error f { s.rewritten e with
        registry := (s.registry.set e.file (s.names e here)).free e.file, kept := kept' })
  /-- All is done. -/
  | done {columns : Nat} {kept kept' : σ} (ready : Ready e s columns)
    (removes : keeper.remove (s.registry.get e.file) s.kept = .ok () kept)
    (registers : keeper.register (s.components e here) kept = .ok () kept') :
    Ending here keeper e s
      (.ok () {
        blocks := Layout.columns
          (.markup (preamble (s.components e here)) :: e.rewrite s.shown (strip s.blocks))
          columns e.options.layout
        shown := s.shown ++ s.codes e
        registry := (s.registry.set e.file (s.names e here)).free e.file
        kept := kept' })

/-! ### The steps of a pass -/

/-- What computing the components of a page comes to, if it succeeds. -/
theorem build_ok {here : Place} {e : Extractor} {s : State σ} {columns : Nat}
    {rs : List Replacement} {shown : List String} (read : columnsFrom 1 s.blocks = .ok columns)
    (h : Replacement.build here e.file e.root e.highlighter e.options (strip s.blocks) s.shown =
      .ok rs shown) :
    Ready e s columns ∧ shown = s.shown ++ s.codes e ∧
      rs.map Replacement.artifact = s.components e here ∧
      Replacement.splice (strip s.blocks) rs = e.rewrite s.shown (strip s.blocks) := by
  obtain ⟨hnamed, hshown, rfl, hcalls⟩ := Replacement.ofDemos_ok h
  rw [Demo.map_value_find, codesOf_strip] at hshown hcalls
  refine ⟨⟨read, fun hcodes => hnamed fun hdemos => hcodes ?_, hcalls⟩, hshown, ?_,
    Replacement.splice_replacements e here s.shown (strip s.blocks)⟩
  · rw [State.codes, ← codesOf_strip, ← Demo.map_value_find, hdemos]
    rfl
  · rw [Extractor.map_artifact_replacements]
    exact Demo.map_component_find e here (strip s.blocks)

section Steps

variable {here : Place} {keeper : Keeper σ} {e : Extractor} {s : State σ}

theorem run_of_unread {f : Fault} (h : directive s.blocks = .error f) :
    run here keeper e s = .error f s := by
  unfold run
  rw [get_bind]
  exact bind_of_error (ofExcept_error.2 ⟨h, rfl⟩) _

/-- A pass, once its columns are read. -/
theorem run_of_read {blocks : List Node} {columns : Nat}
    (h : directive s.blocks = .ok (blocks, columns)) :
    run here keeper e s =
      (onShown (Replacement.build here e.file e.root e.highlighter e.options blocks) >>=
        fun replacements => do
          modify fun s => { s with blocks := Replacement.splice blocks replacements }
          holding e.file (exchange keeper e.file (replacements.map Replacement.artifact))
          modify fun s => { s with
            blocks := Layout.columns
              (.markup (preamble (replacements.map Replacement.artifact)) :: s.blocks)
              columns e.options.layout }) s := by
  unfold run
  rw [get_bind]
  exact bind_of_ok (ofExcept_ok.2 ⟨h, rfl⟩) _

/-- The steps that are taken while the lock is held. -/
theorem exchange_eq (file : String) (artifacts : List Artifact) :
    exchange keeper file artifacts s =
      match keeper.remove (s.registry.get file) s.kept with
      | .error f kept => .error f { s with kept }
      | .ok () kept =>
        match keeper.register artifacts kept with
        | .error f kept => .error f { s with
            registry := s.registry.set file (artifacts.map Artifact.name), kept }
        | .ok () kept => .ok () { s with
            registry := s.registry.set file (artifacts.map Artifact.name), kept } := by
  unfold exchange
  rw [get_bind]
  cases hr : keeper.remove (s.registry.get file) s.kept with
  | error f kept => exact bind_of_error (by rw [onKept, hr]) _
  | ok u kept =>
    rw [bind_of_ok (a := u) (t := { s with kept }) (by rw [onKept, hr]), modify_bind]
    unfold onKept
    cases hg : keeper.register artifacts kept <;> simp only [hg]

end Steps

/-- Every pass ends in one of these ways. -/
theorem run_ending (here : Place) (keeper : Keeper σ) (e : Extractor) (s : State σ) :
    Ending here keeper e s (run here keeper e s) := by
  cases hd : directive s.blocks with
  | error f =>
    rw [run_of_unread hd]
    exact .columns (directive_error.1 hd)
  | ok p =>
    obtain ⟨blocks, columns⟩ := p
    rw [run_of_read hd]
    obtain ⟨read, rfl⟩ := directive_ok.1 hd
    cases hb : Replacement.build here e.file e.root e.highlighter e.options (strip s.blocks)
        s.shown with
    | error f shown =>
      rw [bind_of_error (t := { s with shown }) (by rw [onShown, hb])]
      rcases Replacement.ofDemos_error hb with ⟨hfile, rfl, rfl⟩ | ⟨n, code, gives, rfl⟩
      · exact .unnamed read hfile
      · rw [Demo.map_value_find, codesOf_strip] at gives ⊢
        exact .highlighter read gives
    | ok rs shown =>
      rw [bind_of_ok (a := rs) (t := { s with shown }) (by rw [onShown, hb]), modify_bind]
      obtain ⟨ready, rfl, hartifacts, hsplice⟩ := build_ok read hb
      rw [hartifacts, hsplice]
      cases hr : keeper.remove (s.registry.get e.file) s.kept with
      | error f kept =>
        rw [bind_of_error (e := f) (t := { s.rewritten e with
          registry := s.registry.free e.file, kept })]
        · exact .remove ready hr
        · simp [holding, exchange_eq, hr, State.rewritten]
      | ok u kept =>
        cases hg : keeper.register (s.components e here) kept with
        | error f kept' =>
          rw [bind_of_error (e := f) (t := { s.rewritten e with
            registry := (s.registry.set e.file (s.names e here)).free e.file, kept := kept' })]
          · exact .register ready hr hg
          · simp [holding, exchange_eq, hr, hg, State.rewritten, State.names]
        | ok u' kept' =>
          rw [bind_of_ok (a := ()) (t := { s.rewritten e with
            registry := (s.registry.set e.file (s.names e here)).free e.file, kept := kept' })]
          · exact .done ready hr hg
          · simp [holding, exchange_eq, hr, hg, State.rewritten, State.names]

end Pass

end DemoPages
