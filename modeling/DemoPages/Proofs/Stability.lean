import DemoPages.Proofs.Addresses
import DemoPages.Proofs.Outcomes

/-!
# What the names and paths of components depend on

Two passes are compared. The pages may differ in what the demos say, in all other blocks and in
their front matter, as long as the demos stand at the same addresses when the front matter is off
(`SamePlaces`), and the passes in how demos are shown and kept. Then components of the same names
and paths are registered, in the same order (`Pass.places_stable`). Pages that are recast block by
block, with front matter put in or taken out, are such pages (`samePlaces_of_recast`).
-/

namespace DemoPages

open FrontMatter

/-! ### Pages with demos at the same places -/

/-- With their front matter off, two pages have demos at the same addresses. -/
def SamePlaces (lang : String) (blocks blocks' : List Node) : Prop :=
  ∀ address, (Node.group .root (strip blocks)).HasDemo lang address ↔
    (Node.group .root (strip blocks')).HasDemo lang address

mutual

/-- A block takes the place of another one: a demo that of a demo, a group that of a group, block by
block, and a block without demos that of a block without demos. -/
inductive Node.Recast (lang : String) : Node → Node → Prop where
  | demo (info info' : Option String) (value value' : String) :
    Node.Recast lang (.code lang info value) (.code lang info' value')
  | group (kind kind' : GroupKind) {cs cs' : List Node} (inside : Node.RecastAll lang cs cs') :
    Node.Recast lang (.group kind cs) (.group kind' cs')
  | other {n n' : Node} (quiet : n.codes lang = []) (quiet' : n'.codes lang = []) :
    Node.Recast lang n n'

/-- Blocks take the places of others, one by one. -/
inductive Node.RecastAll (lang : String) : List Node → List Node → Prop where
  | nil : Node.RecastAll lang [] []
  | cons {n n' : Node} {ns ns' : List Node} (head : Node.Recast lang n n')
    (tail : Node.RecastAll lang ns ns') : Node.RecastAll lang (n :: ns) (n' :: ns')

end

namespace Node

/-- Where no code is found, no demo stands. -/
theorem not_hasDemo_of_codes {lang : String} {n : Node} (quiet : n.codes lang = [])
    (address : List Nat) : ¬ n.HasDemo lang address := by
  intro stands
  obtain ⟨d, hd, -⟩ := Demo.exists_mem_ofNode 1 0 n stands
  have hvalue := List.mem_map_of_mem (f := Demo.value) hd
  rw [Demo.map_value_ofNode, quiet] at hvalue
  cases hvalue

theorem hasDemo_group_nil {lang : String} {kind : GroupKind} {cs : List Node} :
    ¬ (Node.group kind cs).HasDemo lang [] := by
  rintro ⟨info, value, h⟩
  cases h

theorem hasDemo_group_zero {lang : String} {kind : GroupKind} {c : Node} {cs : List Node}
    {rest : List Nat} :
    (Node.group kind (c :: cs)).HasDemo lang (0 :: rest) ↔ c.HasDemo lang rest :=
  Iff.rfl

theorem hasDemo_group_succ {lang : String} {kind kind' : GroupKind} {c : Node} {cs : List Node}
    {j : Nat} {rest : List Nat} : (Node.group kind (c :: cs)).HasDemo lang ((j + 1) :: rest) ↔
      (Node.group kind' cs).HasDemo lang (j :: rest) :=
  Iff.rfl

mutual

/-- A block has demos where the one has whose place it takes. -/
theorem Recast.hasDemo_iff {lang : String} {n n' : Node} :
    Node.Recast lang n n' → ∀ address, n.HasDemo lang address ↔ n'.HasDemo lang address
  | .demo info info' value value', [] => iff_of_true ⟨info, value, rfl⟩ ⟨info', value', rfl⟩
  | .demo .., _ :: _ => by
    constructor
    · rintro ⟨_, _, h⟩
      cases h
    · rintro ⟨_, _, h⟩
      cases h
  | .group kind kind' inside, address => inside.hasDemo_iff kind kind' address
  | .other quiet quiet', address =>
    iff_of_false (not_hasDemo_of_codes quiet address) (not_hasDemo_of_codes quiet' address)

theorem RecastAll.hasDemo_iff {lang : String} (kind kind' : GroupKind) {ns ns' : List Node} :
    Node.RecastAll lang ns ns' → ∀ address,
      (Node.group kind ns).HasDemo lang address ↔ (Node.group kind' ns').HasDemo lang address
  | .nil, [] => iff_of_false hasDemo_group_nil hasDemo_group_nil
  | .cons .., [] => iff_of_false hasDemo_group_nil hasDemo_group_nil
  | .nil, j :: rest => by simp [HasDemo, at?_cons, children]
  | .cons head _, 0 :: rest =>
    hasDemo_group_zero.trans ((head.hasDemo_iff rest).trans hasDemo_group_zero.symm)
  | .cons _ tail, (j + 1) :: rest =>
    hasDemo_group_succ.trans
      ((tail.hasDemo_iff kind kind' (j :: rest)).trans hasDemo_group_succ.symm)

end

end Node

/-- **Recasting a page keeps the places of its demos.** Front matter may be put in and taken out. -/
theorem samePlaces_of_recast {lang : String} {blocks blocks' : List Node}
    (h : Node.RecastAll lang (strip blocks) (strip blocks')) : SamePlaces lang blocks blocks' :=
  h.hasDemo_iff .root .root

/-! ### Two passes -/

/-- The name and the path of a component. -/
def Artifact.place (a : Artifact) : String × String := (a.name, a.path)

namespace Pass

variable {σ σ' : Type}

/-- A pass that ends well has its keeper remove the components of the last pass and register those
it made. -/
theorem calls_of_ok {here : Place} {k : Keeper σ} {e : Extractor} {s t : State (List Call × σ)}
    (h : run here k.recorded e s = .ok () t) :
    t.kept.1 =
      s.kept.1 ++ [.remove (s.registry.get e.file), .register (s.components e here)] := by
  have ending := run_ending here k.recorded e s
  rw [h] at ending
  cases ending with
  | @done columns kept kept' ready removes registers =>
    have told := k.calls_remove (s.registry.get e.file) s.kept
    have told' := k.calls_register (s.components e here) kept
    rw [removes, Effect.final_ok] at told
    rw [registers, Effect.final_ok, told] at told'
    simpa using told'

/-- **Passes over pages with demos at the same places register components of the same names and
paths, in the same order.** The two passes have the page, the project, the language of the demos,
the prefix and the extension in common. What the demos say, how they are shown, and what else is in
the pages, is their own; so are the registries and the keepers. -/
theorem places_stable {here : Place} {k : Keeper σ} {k' : Keeper σ'} {e e' : Extractor}
    {s t : State (List Call × σ)} {s' t' : State (List Call × σ')}
    (file : e'.file = e.file) (root : e'.root = e.root)
    (lang : e'.options.lang = e.options.lang)
    (namePrefix : e'.options.namePrefix = e.options.namePrefix)
    (extension : e'.options.extension = e.options.extension)
    (same : SamePlaces e.options.lang s.blocks s'.blocks)
    (h : run here k.recorded e s = .ok () t) (h' : run here k'.recorded e' s' = .ok () t') :
    ∃ components components',
      t.kept.1 = s.kept.1 ++ [.remove (s.registry.get e.file), .register components] ∧
      t'.kept.1 = s'.kept.1 ++ [.remove (s'.registry.get e'.file), .register components'] ∧
      components.map Artifact.place = components'.map Artifact.place := by
  refine ⟨s.components e here, s'.components e' here, calls_of_ok h, calls_of_ok h', ?_⟩
  have hplace (index : Nat) (code : String) :
      (e'.component here index code).place = (e.component here index "").place := by
    simp only [Artifact.place, Extractor.component, Extractor.nameAt, file, root, namePrefix,
      extension]
  have hcomponents := e.map_components here (g := Artifact.place)
    (k := fun index => (e.component here index "").place) (fun _ _ => rfl) (strip s.blocks)
  have hcomponents' := e'.map_components here hplace (strip s'.blocks)
  rw [State.components, State.components, hcomponents, hcomponents', lang, Demo.indices_eq same]

/-- Other codes, other texts, another highlighter and another wrapper; the front matter, which sets
columns in one of the pages, stands elsewhere and is more in the other. -/
theorem places_stable_recast :
    let e : Extractor :=
      { file := "/docs/a.md", root := "/docs", highlighter := fun _ code => .ok code }
    let e' : Extractor :=
      { e with highlighter := fun _ _ => .ok "shown", options := { wrapper := "Box" } }
    let blocks : List Node :=
      [.frontMatter (some "columns: 2"), .code "vue" none "<a/>", .raw "paragraph" "x",
        .group (.named "list") [.code "js" none "1", .code "vue" none "<b/>"]]
    let blocks' : List Node :=
      [.code "vue" (some "preview=Card") "<c/>", .frontMatter none, .markup "<hr>",
        .frontMatter (some "title: x"),
        .group (.named "quote") [.raw "list" "- x", .code "vue" none ""]]
    ∃ t t' components components',
      run [] Keeper.idle.recorded e { blocks, kept := ([], ()) } = .ok () t ∧
      run [] Keeper.idle.recorded e' { blocks := blocks', kept := ([], ()) } = .ok () t' ∧
      t.kept.1 = [.remove [], .register components] ∧
      t'.kept.1 = [.remove [], .register components'] ∧
      components.map Artifact.place = components'.map Artifact.place := by
  intro e e' blocks blocks'
  have hrun : run [] Keeper.idle.recorded e { blocks, kept := ([], ()) } =
      .ok () (Effect.final (run [] Keeper.idle.recorded e { blocks, kept := ([], ()) })) := rfl
  have hrun' : run [] Keeper.idle.recorded e' { blocks := blocks', kept := ([], ()) } =
      .ok () (Effect.final
        (run [] Keeper.idle.recorded e' { blocks := blocks', kept := ([], ()) })) :=
    rfl
  have recast : Node.RecastAll "vue" (strip blocks) (strip blocks') :=
    .cons (.demo ..) <| .cons (.other rfl rfl) <|
      .cons (.group _ _ <| .cons (.other rfl rfl) <| .cons (.demo ..) .nil) .nil
  have file : e'.file = e.file := rfl
  obtain ⟨components, components', hcalls, hcalls', hplaces⟩ :=
    places_stable file rfl rfl rfl rfl (samePlaces_of_recast recast) hrun hrun'
  exact ⟨_, _, components, components', hrun, hrun', hcalls, hcalls', hplaces⟩

end Pass

end DemoPages
