import DemoPages.Proofs.Endings
import DemoPages.Proofs.Folding

/-!
# What a pass comes to

* `Pass.run_eq_rewrite` — a pass that ends well has rewritten its page in one recursion, put the
  imports of the components in front and laid out the references of the top level; the keeper and
  the registry were given the same components;
* `Pass.run_stops_before_calls` — a pass that fails before the keeper is told anything leaves its
  page and the registry as they were, and has shown the codes up to the one that failed.
-/

namespace DemoPages

/-- A keeper that has nothing to do. -/
def Keeper.idle : Keeper Unit := ⟨fun _ => pure (), fun _ => pure ()⟩

namespace Pass

open FrontMatter

variable {σ : Type}

/-! ### A pass that ends well -/

/-- **A pass rewrites its page in one recursion.** The page it leaves is the block of imports, then
the rewritten page; in a layout of two columns or more, the first reference at the top level of the
rewritten page makes room for the block that holds them all, and the others there are gone. The
components imported are those that the keeper registers and that the registry records. -/
theorem run_eq_rewrite {here : Place} {keeper : Keeper σ} {e : Extractor} {s t : State σ}
    (h : run here keeper e s = .ok () t) :
    let page := e.rewrite s.shown (strip s.blocks)
    let components := e.components here (strip s.blocks)
    let imports := Node.markup (preamble components)
    ∃ columns, columnsFrom 1 s.blocks = .ok columns ∧
      (columns ≤ 1 → t.blocks = imports :: page) ∧
      (1 < columns →
        ((∀ b ∈ page, b.isReference = false) → t.blocks = imports :: page) ∧
        ∀ before reference after, page = before ++ reference :: after →
          reference.isReference = true → (∀ b ∈ before, b.isReference = false) →
          t.blocks = imports :: before ++
            Layout.wrapper e.options.layout columns (page.filter Node.isReference) ::
              after.filter fun b => !b.isReference) ∧
      (∃ kept, keeper.remove (s.registry.get e.file) s.kept = .ok () kept ∧
        keeper.register components kept = .ok () t.kept) ∧
      t.registry.get e.file = components.map Artifact.name ∧
      (∀ n code, (s.codes e)[n]? = some code →
        e.highlighter (s.shown ++ (s.codes e).take n) code =
          .ok (e.shows (s.shown ++ (s.codes e).take n) code)) := by
  intro page components imports
  have ending := run_ending here keeper e s
  rw [h] at ending
  cases ending with
  | done ready removes registers =>
    rename_i columns kept kept'
    refine ⟨columns, ready.read, fun hle => ?_, fun hlt => ⟨fun hnone => ?_, ?_⟩,
      ⟨kept, removes, registers⟩, by simp [State.names, State.components, components], ?_⟩
    · exact Layout.columns_of_le (by omega)
    · show Layout.columns (imports :: page) columns e.options.layout = _
      rw [Layout.columns_markup_cons _ _ (by omega), Layout.fold_of_no_reference _ hnone]
    · intro before reference after hpage href hbefore
      show Layout.columns (imports :: page) columns e.options.layout = _
      rw [Layout.columns_markup_cons _ _ (by omega), List.cons_append,
        ← Layout.fold_append_cons _ href hbefore, ← hpage]
    · intro n code hn
      obtain ⟨text, htext⟩ := ready.shows n code hn
      rw [htext, Extractor.shows, htext]

/-- Two columns, demos at the top and in a group, and a reference that was there before. -/
theorem run_eq_rewrite_two_columns :
    let e : Extractor :=
      { file := "/docs/a.md", root := "/docs", highlighter := fun _ code => .ok code }
    let blocks : List Node :=
      [.frontMatter (some "columns: 2"), .code "vue" (some "preview=Box") "<a/>",
        .raw "paragraph" "x", .group (.named "list") [.code "js" none "1", .code "vue" none "<b/>"],
        .reference "Old" "<old/>"]
    let first := e.reference 0 (some "preview=Box") "<a/>"
    ∃ t, run [] Keeper.idle e { blocks, kept := () } = .ok () t ∧
      t.blocks =
        [.markup (preamble [e.component [] 0 "<a/>", e.component [] 1 "<b/>"]),
          Layout.wrapper "VueMarkdown" 2 [first, .reference "Old" "<old/>"], .raw "paragraph" "x",
          .group (.named "list") [.code "js" none "1", e.reference 1 none "<b/>"]] := by
  intro e blocks first
  have hrun : run [] Keeper.idle e { blocks, kept := () } =
      .ok () (Effect.final (run [] Keeper.idle e { blocks, kept := () })) := rfl
  refine ⟨_, hrun, ?_⟩
  obtain ⟨columns, hread, -, hfold, -⟩ := run_eq_rewrite hrun
  have hcolumns : columnsFrom 1 blocks = .ok 2 := rfl
  rw [hcolumns] at hread
  cases hread
  exact (hfold (by decide)).2 [] first [.raw "paragraph" "x",
    .group (.named "list") [.code "js" none "1", e.reference 1 none "<b/>"],
    .reference "Old" "<old/>"] rfl rfl (by simp)

end Pass

/-! ### A pass that fails early -/

/-- What a keeper is told. -/
inductive Call where
  | remove (names : List String)
  | register (artifacts : List Artifact)
  deriving DecidableEq, Repr

/-- A keeper that writes down what it is told before it does it. -/
def Keeper.recorded {σ : Type} (k : Keeper σ) : Keeper (List Call × σ) where
  remove names := fun s =>
    match k.remove names s.2 with
    | .ok a kept => .ok a (s.1 ++ [.remove names], kept)
    | .error f kept => .error f (s.1 ++ [.remove names], kept)
  register artifacts := fun s =>
    match k.register artifacts s.2 with
    | .ok a kept => .ok a (s.1 ++ [.register artifacts], kept)
    | .error f kept => .error f (s.1 ++ [.register artifacts], kept)

namespace Keeper

variable {σ : Type} (k : Keeper σ)

theorem calls_remove (names : List String) (s : List Call × σ) :
    (Effect.final (k.recorded.remove names s)).1 = s.1 ++ [.remove names] := by
  unfold recorded
  cases hr : k.remove names s.2 <;> simp [hr]

theorem calls_register (artifacts : List Artifact) (s : List Call × σ) :
    (Effect.final (k.recorded.register artifacts s)).1 = s.1 ++ [.register artifacts] := by
  unfold recorded
  cases hr : k.register artifacts s.2 <;> simp [hr]

end Keeper

namespace Pass

open FrontMatter

variable {σ : Type}

/-- Once all components are computed, nothing was unreadable and the highlighter never gave up. -/
theorem Ready.no_cause {e : Extractor} {s : State σ} {columns : Nat} (ready : Ready e s columns) :
    ¬ ((∃ f, columnsFrom 1 s.blocks = .error f) ∨
      ∃ n code f, (s.codes e)[n]? = some code ∧
        e.highlighter (s.shown ++ (s.codes e).take n) code = .error f) := by
  rintro (⟨f, unread⟩ | ⟨n, code, f, nth, fails⟩)
  · rw [ready.read] at unread
    cases unread
  · obtain ⟨text, shows⟩ := ready.shows n code nth
    rw [shows] at fails
    cases fails

theorem Ready.not_givesUp {e : Extractor} {s : State σ} {columns n : Nat} {code : String}
    {f : Fault} (ready : Ready e s columns) : ¬ e.GivesUp s.shown (s.codes e) n code f :=
  fun gives => ready.no_cause (Or.inr ⟨n, code, f, gives.nth, gives.fails⟩)

/-- **A pass that fails before its keeper is told anything leaves all as it was.** Its page, at
every depth, and the registry with its locks are those it began with. Either no code was shown,
since the columns were unreadable or the page had no path to name components after; or the codes
shown are the first ones of the page, each once, up to the one that the highlighter gave up on. And
where the columns are unreadable, or the highlighter gives up on a code, the pass does fail so
early. -/
theorem run_stops_before_calls (here : Place) (k : Keeper σ) (e : Extractor)
    (s : State (List Call × σ)) :
    (∀ f t, run here k.recorded e s = .error f t → t.kept.1 = s.kept.1 →
      t.blocks = s.blocks ∧ t.registry = s.registry ∧ t.kept = s.kept ∧
      (t.shown = s.shown ∧
          (columnsFrom 1 s.blocks = .error f ∨ e.file = "" ∧ f = .emptyIdentity) ∨
        ∃ n code, (s.codes e)[n]? = some code ∧
          e.highlighter (s.shown ++ (s.codes e).take n) code = .error f ∧
          t.shown = s.shown ++ (s.codes e).take (n + 1))) ∧
    ((∃ f, columnsFrom 1 s.blocks = .error f) ∨
      (∃ n code f, (s.codes e)[n]? = some code ∧
        e.highlighter (s.shown ++ (s.codes e).take n) code = .error f) →
      ∃ f t, run here k.recorded e s = .error f t ∧ t.kept.1 = s.kept.1) := by
  have ending := run_ending here k.recorded e s
  refine ⟨fun f t hrun quiet => ?_, fun cause => ?_⟩
  · rw [hrun] at ending
    cases ending with
    | columns unread => exact ⟨rfl, rfl, rfl, Or.inl ⟨rfl, Or.inl unread⟩⟩
    | unnamed read file => exact ⟨rfl, rfl, rfl, Or.inl ⟨rfl, Or.inr ⟨file, rfl⟩⟩⟩
    | highlighter read gives =>
      exact ⟨rfl, rfl, rfl, Or.inr ⟨_, _, gives.nth, gives.fails, rfl⟩⟩
    | remove ready removes =>
      have told := k.calls_remove (s.registry.get e.file) s.kept
      rw [removes, Effect.final_error] at told
      simp [told] at quiet
    | @register columns f kept kept' ready removes registers =>
      have told := k.calls_remove (s.registry.get e.file) s.kept
      have told' := k.calls_register (s.components e here) kept
      rw [removes, Effect.final_ok] at told
      rw [registers, Effect.final_error, told] at told'
      simp [told'] at quiet
  · generalize hrun : run here k.recorded e s = r at ending
    cases ending with
    | columns unread => exact ⟨_, _, rfl, rfl⟩
    | unnamed read file => exact ⟨_, _, rfl, rfl⟩
    | highlighter read gives => exact ⟨_, _, rfl, rfl⟩
    | remove ready removes => exact absurd cause ready.no_cause
    | register ready removes registers => exact absurd cause ready.no_cause
    | done ready removes registers => exact absurd cause ready.no_cause

/-- A highlighter that gives up on the second of three codes, which stands in a group. -/
theorem run_stops_before_calls_second_code :
    let e : Extractor :=
      { file := "/docs/a.md", root := "/docs",
        highlighter := fun shown code =>
          if shown.length = 1 then .error (.highlighter "tired") else .ok code }
    let blocks : List Node :=
      [.frontMatter (some "columns: 2"), .code "vue" none "<a/>",
        .group (.named "list") [.code "vue" none "<b/>"], .code "vue" none "<c/>"]
    ∃ t, run [] Keeper.idle.recorded e { blocks, kept := ([], ()) } =
        .error (.highlighter "tired") t ∧
      t.blocks = blocks ∧ t.registry = {} ∧ t.kept = ([], ()) ∧ t.shown = ["<a/>", "<b/>"] := by
  intro e blocks
  have hrun : run [] Keeper.idle.recorded e { blocks, kept := ([], ()) } =
      .error (.highlighter "tired")
        (Effect.final (run [] Keeper.idle.recorded e { blocks, kept := ([], ()) })) := rfl
  obtain ⟨hblocks, hregistry, hkept, -⟩ :=
    (run_stops_before_calls [] Keeper.idle e { blocks, kept := ([], ()) }).1 _ _ hrun rfl
  exact ⟨_, hrun, hblocks, hregistry, hkept, rfl⟩

end Pass

end DemoPages
