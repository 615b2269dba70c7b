import DemoPages.Proofs.Histories

/-!
# Passes that are repeated

A pass puts the references into its page before it has the components of the last pass removed.
Where that fails, the page is left rewritten: the front matter is off, and references stand for the
demos (`Visit.left_of_removal_fails`). A pass over that page finds nothing to rewrite
(`Extractor.codesOf_rewrite`) and no columns, so it registers no component. It comes to what the
pass would have come to without the failure if and only if the page had no demo and nothing to fold
(`Visit.retry_agrees_iff`). Over the page as it was at first, the pass may be repeated.
-/

namespace DemoPages

open Effect FrontMatter

/-! ### Pages without front matter -/

namespace FrontMatter

theorem not_isFrontMatter_of_mem_strip {blocks : List Node} :
    ∀ b ∈ strip blocks, b.isFrontMatter = false := by
  intro b hb
  simpa using (List.mem_filter.1 hb).2

theorem strip_of_stripped {blocks : List Node} (h : ∀ b ∈ blocks, b.isFrontMatter = false) :
    strip blocks = blocks :=
  List.filter_eq_self.2 fun b hb => by simp [h b hb]

/-- Only front matter sets columns. -/
theorem columnsFrom_of_stripped {blocks : List Node} (h : ∀ b ∈ blocks, b.isFrontMatter = false)
    (columns : Nat) : columnsFrom columns blocks = .ok columns := by
  induction blocks with
  | nil => rfl
  | cons b bs ih =>
    have hb := h b List.mem_cons_self
    have hrest := ih fun b hb => h b (List.mem_cons_of_mem _ hb)
    cases b with
    | frontMatter value => cases hb
    | _ => exact hrest

end FrontMatter

/-! ### Pages that are rewritten -/

namespace Extractor

variable (e : Extractor)

mutual

/-- No demo is left. -/
theorem codes_rewriteAt (shown : List String) (index : Nat) :
    ∀ n : Node, (e.rewriteAt shown index n).codes e.options.lang = []
  | .code l info value => by
    by_cases h : l = e.options.lang <;> simp [rewriteAt, reference, Node.codes, h]
  | .group _ children => by
    rw [rewriteAt, Node.codes]
    exact codesOf_rewriteFrom shown 0 children
  | .raw _ _ => by simp [rewriteAt, Node.codes]
  | .frontMatter _ => by simp [rewriteAt, Node.codes]
  | .markup _ => by simp [rewriteAt, Node.codes]
  | .reference _ _ => by simp [rewriteAt, Node.codes]

theorem codesOf_rewriteFrom (shown : List String) (index : Nat) :
    ∀ ns : List Node, Node.codesOf e.options.lang (e.rewriteFrom shown index ns) = []
  | [] => by simp [rewriteFrom, Node.codesOf]
  | n :: ns => by
    rw [rewriteFrom, Node.codesOf, codes_rewriteAt shown index n, codesOf_rewriteFrom _ _ ns,
      List.nil_append]

end

/-- **A rewritten page has no demos.** -/
theorem codesOf_rewrite (shown : List String) (blocks : List Node) :
    Node.codesOf e.options.lang (e.rewrite shown blocks) = [] :=
  e.codesOf_rewriteFrom shown 0 blocks

mutual

theorem rewriteAt_of_no_codes (shown : List String) (index : Nat) :
    ∀ n : Node, n.codes e.options.lang = [] → e.rewriteAt shown index n = n
  | .code l info value, h => by
    have hl : l ≠ e.options.lang := by
      rintro rfl
      simp [Node.codes] at h
    rw [rewriteAt, if_neg hl]
  | .group kind children, h => by
    rw [Node.codes] at h
    rw [rewriteAt, rewriteFrom_of_no_codes shown 0 children h]
  | .raw _ _, _ => by simp [rewriteAt]
  | .frontMatter _, _ => by simp [rewriteAt]
  | .markup _, _ => by simp [rewriteAt]
  | .reference _ _, _ => by simp [rewriteAt]

theorem rewriteFrom_of_no_codes (shown : List String) (index : Nat) :
    ∀ ns : List Node, Node.codesOf e.options.lang ns = [] → e.rewriteFrom shown index ns = ns
  | [], _ => by rw [rewriteFrom]
  | n :: ns, h => by
    rw [Node.codesOf, List.append_eq_nil_iff] at h
    rw [rewriteFrom, rewriteAt_of_no_codes shown index n h.1, rewriteFrom_of_no_codes _ _ ns h.2]

end

theorem isFrontMatter_rewriteAt (shown : List String) (index : Nat) (n : Node) :
    (e.rewriteAt shown index n).isFrontMatter = n.isFrontMatter := by
  cases n with
  | code l info value =>
    rw [rewriteAt]
    split <;> rfl
  | group kind children =>
    rw [rewriteAt]
    rfl
  | _ => simp [rewriteAt]

/-- A rewritten page has front matter where the page has. -/
theorem map_isFrontMatter_rewriteFrom (shown : List String) (index : Nat) (ns : List Node) :
    (e.rewriteFrom shown index ns).map Node.isFrontMatter = ns.map Node.isFrontMatter := by
  induction ns generalizing shown index with
  | nil => rw [rewriteFrom]
  | cons n ns ih => rw [rewriteFrom, List.map_cons, List.map_cons, isFrontMatter_rewriteAt, ih]

theorem not_isFrontMatter_of_mem_rewrite (shown : List String) (blocks : List Node) :
    ∀ b ∈ e.rewrite shown (strip blocks), b.isFrontMatter = false := by
  intro b hb
  have hmem := List.mem_map_of_mem (f := Node.isFrontMatter) hb
  rw [rewrite, map_isFrontMatter_rewriteFrom] at hmem
  obtain ⟨c, hc, hcb⟩ := List.mem_map.1 hmem
  rw [← hcb]
  exact not_isFrontMatter_of_mem_strip c hc

/-- A page makes no components if it has no demos. -/
theorem components_eq_nil_iff (here : Place) (blocks : List Node) :
    e.components here blocks = [] ↔ Node.codesOf e.options.lang blocks = [] := by
  rw [← Demo.map_component_find, ← Demo.map_value_find, List.map_eq_nil_iff, List.map_eq_nil_iff]

end Extractor

/-- Imports of nothing import nothing. -/
theorem preamble_eq_nil_iff {artifacts : List Artifact} :
    preamble artifacts = preamble [] ↔ artifacts = [] := by
  refine ⟨fun h => ?_, fun h => h ▸ rfl⟩
  unfold preamble at h
  rw [String.append_left_inj, String.append_right_inj] at h
  cases artifacts with
  | nil => rfl
  | cons a as => cases as <;> simp [Text.joinWith] at h

/-! ### Passes that fail, and the next ones -/

namespace Visit

variable {σ τ : Type} (here : Place) (k : Keeper σ) (v : Visit)

/-- The page as a pass left it, and the highlighter: what it takes to repeat the pass. -/
def again (s : Shared σ) : Visit where
  extractor := v.extractor
  blocks := (final (v.run here k s)).blocks
  shown := (final (v.run here k s)).shown

/-- Does the keeper do all that the pass tells it? -/
def IsObeyed (s : Shared σ) : Prop := ∀ t ∈ v.told here k s, t.done = true

variable {here k v} {s : Shared σ}

/-- Without front matter and demos, there is nothing that could not be computed. -/
theorem isReady_of_no_demos (plain : ∀ b ∈ v.blocks, b.isFrontMatter = false)
    (quiet : Node.codesOf v.extractor.options.lang v.blocks = []) : v.IsReady s :=
  ⟨1, columnsFrom_of_stripped plain 1, fun hcodes => absurd quiet hcodes,
    fun n code hn => by
      rw [show (v.start s).codes v.extractor = [] from quiet] at hn
      cases hn⟩

/-- A pass ends well if its components can be computed and its keeper does all that it is told. -/
theorem ok_of_obeyed (named : v.file ≠ "") (ready : v.IsReady s) (obeyed : v.IsObeyed here k s) :
    ∃ t, v.run here k s = .ok () t := by
  unfold IsObeyed at obeyed
  rcases v.told_cases here k s with ⟨-, unready, -⟩ | ⟨htold, -⟩ | ⟨done, htold, -, hends, -⟩
  · exact absurd ready (unready named)
  · rw [htold] at obeyed
    exact absurd (obeyed _ List.mem_cons_self) Bool.false_ne_true
  · rw [htold] at obeyed
    have hdone : done = true := obeyed ⟨.register (v.components here), done⟩ (by simp)
    exact eq_ok_of_succeeds (hends.trans hdone)

/-- What a pass that ends well tells its keeper, and what it records. -/
theorem told_of_ok {t : Pass.State σ} (hrun : v.run here k s = .ok () t) :
    v.told here k s = [⟨.remove (s.registry.get v.file), true⟩,
        ⟨.register (v.components here), true⟩] ∧
      t.registry.get v.file = v.names here := by
  have hsucceeds : Effect.succeeds (v.run here k s) = true := by
    rw [hrun]
    rfl
  have hentry := (v.after_of_ok here k hrun).1
  unfold after at hentry
  rw [hrun] at hentry
  refine ⟨?_, hentry⟩
  rcases v.told_cases here k s with
    ⟨-, -, hfails, -⟩ | ⟨-, -, hfails, -⟩ | ⟨done, htold, -, hends, -⟩
  · exact absurd (hsucceeds.symm.trans hfails) (by decide)
  · exact absurd (hsucceeds.symm.trans hfails) (by decide)
  · rw [htold, ← hends, hsucceeds]

/-- A pass that fails once its components are computed leaves its page rewritten. -/
theorem blocks_again (named : v.file ≠ "") (ready : v.IsReady s)
    (failed : Effect.succeeds (v.run here k s) = false) :
    (v.again here k s).blocks = v.extractor.rewrite v.shown (strip v.blocks) := by
  obtain ⟨columns, ready⟩ := ready
  have ending := Pass.run_ending here k v.extractor (v.start s)
  unfold again
  unfold run at failed ⊢
  generalize Pass.run here k v.extractor (v.start s) = r at ending failed ⊢
  cases ending with
  | columns unread => exact absurd (Or.inl ⟨_, unread⟩) ready.no_cause
  | unnamed read file => exact absurd file named
  | highlighter read gives => exact absurd gives ready.not_givesUp
  | remove _ removes => rfl
  | register _ removes registers => rfl
  | done _ removes registers => cases failed

/-- Where the removal fails, the registry keeps its entries, and the page is left rewritten. -/
theorem left_of_removal_fails {names : List String} (named : v.file ≠ "")
    (failed : v.told here k s = [⟨.remove names, false⟩]) :
    s.registry.get v.file = names ∧ v.IsReady s ∧
      (v.again here k s).blocks = v.extractor.rewrite v.shown (strip v.blocks) ∧
      ∀ file, (v.after here k s).registry.get file = s.registry.get file := by
  rcases v.told_cases here k s with ⟨htold, -⟩ | ⟨htold, ready, hfails, hregistry⟩ | ⟨_, htold, -⟩
  · cases htold.symm.trans failed
  · rw [htold] at failed
    cases failed
    exact ⟨rfl, ready, blocks_again named ready hfails, fun file => by rw [hregistry]; rfl⟩
  · cases htold.symm.trans failed

/-! ### Pages with nothing to rewrite -/

/-- What a pass registers is nothing exactly where its page has no demos. -/
theorem components_eq_nil_iff :
    v.components here = [] ↔ Node.codesOf v.extractor.options.lang v.blocks = [] := by
  rw [components, Extractor.components_eq_nil_iff, codesOf_strip]

/-- A pass over a page without front matter and demos registers nothing, and puts empty imports in
front of the page. -/
theorem ok_of_nothing (plain : ∀ b ∈ v.blocks, b.isFrontMatter = false)
    (quiet : Node.codesOf v.extractor.options.lang v.blocks = []) {t : Pass.State σ}
    (hrun : v.run here k s = .ok () t) :
    v.told here k s = [⟨.remove (s.registry.get v.file), true⟩, ⟨.register [], true⟩] ∧
      t.registry.get v.file = [] ∧ t.blocks = .markup (preamble []) :: v.blocks := by
  have hnone : v.components here = [] := components_eq_nil_iff.2 quiet
  obtain ⟨htold, hentry⟩ := told_of_ok hrun
  obtain ⟨columns, hread, hpage⟩ := v.blocks_of_ok here k hrun
  rw [columnsFrom_of_stripped plain] at hread
  cases hread
  rw [hnone] at htold
  rw [names, hnone] at hentry
  rw [hnone, strip_of_stripped plain, Extractor.rewrite,
    v.extractor.rewriteFrom_of_no_codes v.shown 0 v.blocks quiet,
    Layout.columns_of_le (by decide)] at hpage
  exact ⟨htold, hentry, hpage⟩

/-! ### The same page again -/

/-- The page that a pass makes is the rewritten page behind empty imports exactly where it had no
demos and there is nothing to fold. -/
theorem laidOut_eq_iff {columns : Nat} :
    Node.markup (preamble []) :: v.extractor.rewrite v.shown (strip v.blocks) =
        Layout.columns (.markup (preamble (v.components here)) ::
          v.extractor.rewrite v.shown (strip v.blocks)) columns v.extractor.options.layout ↔
      Node.codesOf v.extractor.options.lang v.blocks = [] ∧
        (columns ≤ 1 ∨ ∀ b ∈ v.blocks, b.isReference = false) := by
  have hfront : ∀ b : Node, b.isFrontMatter = true → b.isReference = false := by
    intro b hb
    cases b with
    | frontMatter value => rfl
    | _ => cases hb
  have hstrip : (∀ b ∈ strip v.blocks, b.isReference = false) ↔
      ∀ b ∈ v.blocks, b.isReference = false := by
    refine ⟨fun h b hb => ?_, fun h b hb => h b (List.mem_of_mem_filter hb)⟩
    by_cases hb' : b.isFrontMatter = true
    · exact hfront b hb'
    · exact h b (List.mem_filter.2 ⟨hb, by simpa using hb'⟩)
  rw [Layout.columns_cons_of_not_reference rfl, List.cons.injEq, Node.markup.injEq,
    eq_comm (a := preamble []), preamble_eq_nil_iff, components_eq_nil_iff]
  refine and_congr_right fun quiet => ?_
  rw [Extractor.rewrite, v.extractor.rewriteFrom_of_no_codes v.shown 0 (strip v.blocks)
    ((codesOf_strip _ _).trans quiet), eq_comm, Layout.columns_eq_self_iff, hstrip]
  exact or_congr_left (by omega)

/-- **A pass that could not have components removed may be repeated over its page as it was, but not
over the page that it left.** It leaves the rewritten page, and the entries of the registry as they
were. The pass over that page asks for the same names again; but if its keeper does what it is told,
nothing is registered and recorded, and the rewritten page is left behind empty imports. A pass over
the page as it was has its components registered and recorded, and lays out the rewritten page
behind their imports, whether the failure came before it or not. So the two agree if and only if the
page had no demo, and one column or no reference at its top level. -/
theorem retry_agrees_iff {names : List String} (named : v.file ≠ "")
    (failed : v.told here k s = [⟨.remove names, false⟩]) :
    let again := v.again here k s
    let registry := (v.after here k s).registry
    let page := v.extractor.rewrite v.shown (strip v.blocks)
    again.blocks = page ∧ (∀ file, registry.get file = s.registry.get file) ∧
    (∀ (k' : Keeper τ) (kept : τ), again.IsObeyed here k' ⟨registry, kept⟩ →
      ∃ t, again.run here k' ⟨registry, kept⟩ = .ok () t ∧
        again.told here k' ⟨registry, kept⟩ = [⟨.remove names, true⟩, ⟨.register [], true⟩] ∧
        t.registry.get v.file = [] ∧
        t.blocks = .markup "<script setup>\n</script>" :: page) ∧
    ∃ columns, columnsFrom 1 v.blocks = .ok columns ∧
      (∀ (k' : Keeper τ) (kept : τ) (r : Registry), r.get v.file = names →
        v.IsReady ⟨r, kept⟩ ∧ (v.IsObeyed here k' ⟨r, kept⟩ →
        ∃ u, v.run here k' ⟨r, kept⟩ = .ok () u ∧
          v.told here k' ⟨r, kept⟩ =
            [⟨.remove names, true⟩, ⟨.register (v.components here), true⟩] ∧
          u.registry.get v.file = v.names here ∧
          u.blocks = Layout.columns (.markup (preamble (v.components here)) :: page) columns
            v.extractor.options.layout)) ∧
      ∀ (k' : Keeper τ) (kept : τ) t u, again.run here k' ⟨registry, kept⟩ = .ok () t →
        v.run here k' ⟨s.registry, kept⟩ = .ok () u →
        ((again.told here k' ⟨registry, kept⟩ = v.told here k' ⟨s.registry, kept⟩ ∧
            t.registry.get v.file = u.registry.get v.file ∧ t.blocks = u.blocks) ↔
          Node.codesOf v.extractor.options.lang v.blocks = [] ∧
            (columns ≤ 1 ∨ ∀ b ∈ v.blocks, b.isReference = false)) := by
  intro again registry page
  obtain ⟨hnames, ⟨columns, ready⟩, hblocks, hregistry⟩ := left_of_removal_fails named failed
  -- Nothing is left to rewrite, and no front matter to read columns from.
  have hplain : ∀ b ∈ again.blocks, b.isFrontMatter = false :=
    hblocks ▸ v.extractor.not_isFrontMatter_of_mem_rewrite v.shown v.blocks
  have hquiet : Node.codesOf again.extractor.options.lang again.blocks = [] :=
    hblocks ▸ v.extractor.codesOf_rewrite v.shown (strip v.blocks)
  have hsame : registry.get again.file = names := (hregistry v.file).trans hnames
  have hagain (k' : Keeper τ) (kept : τ) t (hrun : again.run here k' ⟨registry, kept⟩ = .ok () t) :
      again.told here k' ⟨registry, kept⟩ = [⟨.remove names, true⟩, ⟨.register [], true⟩] ∧
        t.registry.get v.file = [] ∧ t.blocks = .markup (preamble []) :: page := by
    have hends := ok_of_nothing hplain hquiet hrun
    rwa [hsame, hblocks] at hends
  have hready (r : Registry) (kept : τ) : v.IsReady ⟨r, kept⟩ :=
    ⟨columns, ready.read, ready.named, ready.shows⟩
  have hfirst (k' : Keeper τ) (kept : τ) (r : Registry) u (hr : r.get v.file = names)
      (hrun : v.run here k' ⟨r, kept⟩ = .ok () u) :
      v.told here k' ⟨r, kept⟩ = [⟨.remove names, true⟩, ⟨.register (v.components here), true⟩] ∧
        u.registry.get v.file = v.names here ∧
        u.blocks = Layout.columns (.markup (preamble (v.components here)) :: page) columns
          v.extractor.options.layout := by
    obtain ⟨htold, hentry⟩ := told_of_ok hrun
    obtain ⟨columns', hread, hpage⟩ := v.blocks_of_ok here k' hrun
    obtain rfl := Except.ok.inj (ready.read.symm.trans hread)
    exact ⟨hr ▸ htold, hentry, hpage⟩
  refine ⟨hblocks, hregistry, fun k' kept obeyed => ?_, columns, ready.read,
    fun k' kept r hr => ⟨hready r kept, fun obeyed => ?_⟩, fun k' kept t u hrun hrun' => ?_⟩
  · have hnamed : again.file ≠ "" := named
    obtain ⟨t, hrun⟩ := ok_of_obeyed hnamed (isReady_of_no_demos hplain hquiet) obeyed
    exact ⟨t, hrun, hagain k' kept t hrun⟩
  · obtain ⟨u, hrun⟩ := ok_of_obeyed named (hready r kept) obeyed
    exact ⟨u, hrun, hfirst k' kept r u hr hrun⟩
  · obtain ⟨htold, hentry, hpage⟩ := hagain k' kept t hrun
    obtain ⟨htold', hentry', hpage'⟩ := hfirst k' kept s.registry u hnames hrun'
    rw [htold, htold', hentry, hentry', hpage, hpage', laidOut_eq_iff]
    refine ⟨fun h => h.2.2, fun h => ?_⟩
    have hnone : v.components here = [] := components_eq_nil_iff.2 h.1
    rw [Visit.names, hnone]
    exact ⟨rfl, rfl, h⟩

end Visit

/-- A keeper that fails to remove anything. -/
def Keeper.refusing : Keeper Unit :=
  ⟨fun _ => throw (.keeper "store unavailable"), fun _ => pure ()⟩

namespace Visit

/-- A page that has lost its demo, with front matter and columns: the pass over what the failed one
left makes the page that it would have made. -/
theorem retry_agrees_iff_prose :
    let v := Visit.plain "/docs/x.md" "/docs" ".vue"
      [.frontMatter (some "columns: 2"), .raw "paragraph" "x", .code "js" none "1"]
    let s : Shared Unit := ⟨({} : Registry).set "/docs/x.md" ["VueCode3e8846eaI0"], ()⟩
    let again := v.again [] Keeper.refusing s
    let registry := (v.after [] Keeper.refusing s).registry
    ∃ t u, again.run [] Keeper.idle ⟨registry, ()⟩ = .ok () t ∧
      v.run [] Keeper.idle s = .ok () u ∧
      again.told [] Keeper.idle ⟨registry, ()⟩ =
        [⟨.remove ["VueCode3e8846eaI0"], true⟩, ⟨.register [], true⟩] ∧
      t.registry.get v.file = u.registry.get v.file ∧ t.blocks = u.blocks := by
  intro v s again registry
  have failed : v.told [] Keeper.refusing s = [⟨.remove ["VueCode3e8846eaI0"], false⟩] := by
    decide +kernel
  obtain ⟨-, -, hretry, columns, hread, hfirst, hagree⟩ :=
    retry_agrees_iff (τ := Unit) (by decide) failed
  have hread' : columnsFrom 1 v.blocks = .ok 2 := rfl
  obtain rfl := Except.ok.inj (hread'.symm.trans hread)
  obtain ⟨t, hrun, htold, -⟩ := hretry Keeper.idle () (by unfold IsObeyed; decide +kernel)
  obtain ⟨u, hrun', -⟩ :=
    (hfirst Keeper.idle () s.registry rfl).2 (by unfold IsObeyed; decide +kernel)
  have hquiet : Node.codesOf v.extractor.options.lang v.blocks = [] := by decide
  have hnone : ∀ b ∈ v.blocks, b.isReference = false := by decide
  obtain ⟨-, hentry, hblocks⟩ := (hagree Keeper.idle () t u hrun hrun').2 ⟨hquiet, Or.inr hnone⟩
  exact ⟨t, u, hrun, hrun', htold, hentry, hblocks⟩

/-- The removal fails over a page with two columns and two demos. The pass over what is left
registers nothing, and leaves references to components that nothing imports, in one column. -/
theorem retry_loses_components :
    let v := Visit.plain "/docs/x.md" "/docs" ".vue"
      [.frontMatter (some "columns: 2"), .code "vue" none "<a/>", .code "vue" none "<b/>"]
    let s : Shared Unit := { kept := () }
    let again := v.again [] Keeper.refusing s
    let registry := (v.after [] Keeper.refusing s).registry
    let first : Artifact := ⟨"VueCode3e8846eaI0", "/VueCode3e8846eaI0.vue", "<a/>"⟩
    let second : Artifact := ⟨"VueCode3e8846eaI1", "/VueCode3e8846eaI1.vue", "<b/>"⟩
    v.told [] Keeper.refusing s = [⟨.remove [], false⟩] ∧
      v.told [] Keeper.idle s = [⟨.remove [], true⟩, ⟨.register [first, second], true⟩] ∧
      again.told [] Keeper.idle ⟨registry, ()⟩ = [⟨.remove [], true⟩, ⟨.register [], true⟩] ∧
      (∃ u, v.run [] Keeper.idle s = .ok () u ∧
        u.registry.get v.file = ["VueCode3e8846eaI0", "VueCode3e8846eaI1"] ∧ u.blocks.length = 2) ∧
      ∃ t, again.run [] Keeper.idle ⟨registry, ()⟩ = .ok () t ∧ t.registry.get v.file = [] ∧
        t.blocks = [.markup "<script setup>\n</script>", v.extractor.reference 0 none "<a/>",
          v.extractor.reference 1 none "<b/>"] := by
  intro v s again registry first second
  refine ⟨by decide +kernel, by decide +kernel, by decide +kernel, ?_, ?_⟩
  · exact ⟨_, rfl, by decide +kernel, by decide +kernel⟩
  · exact ⟨_, rfl, by decide +kernel, rfl⟩

end Visit

end DemoPages
