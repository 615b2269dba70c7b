import Mathlib.Data.List.Count
import DemoPages.Proofs.Addresses
import DemoPages.Proofs.Depots
import DemoPages.Proofs.Names
import DemoPages.Proofs.Outcomes
import DemoPages.Proofs.Pieces

/-!
# Components of one name

The name of a component tells the index of its demo among its siblings
(`Extractor.nameAt_injective`), but not which group they are in. So two demos of a page have one
name if and only if they stand at one index, in different groups; of these, the store keeps the
component of the last one, and all their references name it (`Pass.components_apart_iff`).
-/

namespace DemoPages

/-- The line by which a page imports a component. -/
def Artifact.importLine (a : Artifact) : String :=
  "import " ++ a.name ++ " from \"" ++ a.path ++ "\"\n"

namespace Extractor

variable (e : Extractor) (here : Place)

theorem nameAt_injective : Function.Injective e.nameAt := fun _ _ h =>
  index_eq_of_componentName_eq h

/-- The line by which the page imports the component at an index. -/
def importAt (index : Nat) : String := (e.component here index "").importLine

/-- A line tells the index: behind the beginning of the name, it ends at the first space. -/
theorem importAt_injective : Function.Injective (e.importAt here) := by
  intro i j h
  have spaceless (n : Nat) : ' ' ∉ (Text.decimal n).toList := by
    intro hspace
    rcases Text.mem_decimal hspace with hdigit | hminus
    · exact absurd hdigit (by decide)
    · exact absurd hminus (by decide)
  have hline (n : Nat) : ∃ rest, (e.importAt here n).toList =
      ("import ".toList ++ e.options.namePrefix.toList ++ Digest.mark e.file ++ ['I']) ++
        ((Text.decimal n).toList ++ ' ' :: rest) := by
    refine ⟨("from \"" ++ (e.component here n "").path ++ "\"\n").toList, ?_⟩
    have hname := toList_componentName e.file n e.options.namePrefix
    simp only [importAt, Artifact.importLine, component, nameAt, String.toList_append, hname]
    simp
  obtain ⟨rest, hi⟩ := hline i
  obtain ⟨rest', hj⟩ := hline j
  rw [h, hj] at hi
  have hcut := congrArg (Text.cut ' ') (List.append_cancel_left hi)
  rw [Text.cut_append_cons (spaceless j), Text.cut_append_cons (spaceless i)] at hcut
  have hdecimal : Text.decimal i = Text.decimal j :=
    String.toList_inj.1 (congrArg Prod.fst hcut).symm
  apply e.nameAt_injective
  simp only [nameAt, componentName, hdecimal]

variable {e here}

/-- Of the components of one name, the one of the last demo is kept. -/
theorem get?_keep_components (depot : Depot) {demos : List Demo} {d : Demo} (h : d ∈ demos) :
    ∃ last, demos.reverse.find? (fun d' => d'.index = d.index) = some last ∧
      (depot.keep (demos.map fun d => e.component here d.index d.value)).store.get?
        (e.nameAt d.index) = some (e.component here d.index last.value) := by
  have hname (d' : Demo) : decide ((e.component here d'.index d'.value).name = e.nameAt d.index) =
      decide (d'.index = d.index) := decide_eq_decide.2 e.nameAt_injective.eq_iff
  cases hlast : demos.reverse.find? fun d' => d'.index = d.index with
  | none => exact absurd (List.find?_eq_none.1 hlast d (List.mem_reverse.2 h)) (by simp)
  | some last =>
    refine ⟨last, rfl, ?_⟩
    have hindex : last.index = d.index := by simpa using List.find?_some hlast
    rw [Depot.get?_keep, ← List.map_reverse, List.find?_map]
    simp only [Function.comp_def, hname, hlast, Option.map_some, Option.some_or, hindex]

end Extractor

namespace Pass

open Effect FrontMatter

/-- If the page has a path and the highlighter shows every code, all components are computed. -/
theorem build_of_shows (here : Place) {e : Extractor} (named : e.file ≠ "")
    (shows : ∀ shown code, ∃ text, e.highlighter shown code = .ok text) (blocks : List Node)
    (shown : List String) : ∃ rs,
      Replacement.build here e.file e.root e.highlighter e.options blocks shown =
        .ok rs (shown ++ Node.codesOf e.options.lang blocks) ∧
      rs.map Replacement.artifact = e.components here blocks := by
  cases hb : Replacement.build here e.file e.root e.highlighter e.options blocks shown with
  | error f shown' =>
    rcases Replacement.ofDemos_error hb with ⟨hfile, -⟩ | ⟨n, code, gives, -⟩
    · exact absurd hfile named
    · obtain ⟨text, htext⟩ := shows (shown ++ _) code
      cases htext.symm.trans gives.fails
  | ok rs shown' =>
    obtain ⟨-, rfl, rfl, -⟩ := Replacement.ofDemos_ok hb
    refine ⟨_, by rw [Demo.map_value_find], ?_⟩
    rw [Extractor.map_artifact_replacements, Demo.map_component_find]

/-- Without an output directory, a pass whose components can be computed ends well. -/
theorem run_of_memory {here : Place} {e : Extractor} {s : State Depot} {columns : Nat}
    (named : e.file ≠ "") (ready : Ready e s columns) (device : Disk.Device)
    (memory : s.kept.store.output = none) : ∃ t, run here (.depotBy device) e s = .ok () t := by
  have hremove := Depot.removeBy_of_memory device (s.registry.get e.file) memory
  have ending := run_ending here (.depotBy device) e s
  generalize run here (.depotBy device) e s = r at ending
  cases ending with
  | columns unread => exact absurd (Or.inl ⟨_, unread⟩) ready.no_cause
  | unnamed read file => exact absurd file named
  | highlighter read gives => exact absurd gives ready.not_givesUp
  | remove _ removes => cases hremove.symm.trans removes
  | @register _ f kept kept' _ removes registers =>
    obtain ⟨-, rfl⟩ := EStateM.Result.ok.inj (hremove.symm.trans removes)
    have hregister : Depot.registerBy device _ _ = .ok () _ :=
      Depot.registerBy_of_memory device (s.components e here)
        (d := { s.kept with store := s.kept.store.without (s.registry.get e.file) }) memory
    cases hregister.symm.trans registers
  | done _ _ registers => exact ⟨_, rfl⟩

/-- **The components of a pass have different names if and only if no two demos stand at one index
among their siblings.** Each demo makes a component of its own, and the page has the reference of
each where the demo stood. The page imports a component once for each demo at its index. But after
the components are registered, the references of all demos at one index name the component of the
last of them; each names a component with the code of its own demo if and only if demos at one index
have one code. -/
theorem components_apart_iff (here : Place) {e : Extractor} {s : State Depot}
    (named : e.file ≠ "") (shows : ∀ shown code, ∃ text, e.highlighter shown code = .ok text) :
    let demos := Demo.find (strip s.blocks) e.options.lang
    let components := s.components e here
    let page := e.rewrite s.shown (strip s.blocks)
    (∃ rs, Replacement.build here e.file e.root e.highlighter e.options (strip s.blocks) s.shown =
        .ok rs (s.shown ++ s.codes e) ∧ rs.map Replacement.artifact = components) ∧
    components = demos.map (fun d => e.component here d.index d.value) ∧
    ((components.map Artifact.name).Nodup ↔ (demos.map Demo.index).Nodup) ∧
    (∀ d ∈ demos,
      (components.map Artifact.importLine).count (e.component here d.index d.value).importLine =
        (demos.map Demo.index).count d.index) ∧
    (∀ d ∈ demos, ∃ text,
      (Node.group .root page).at? d.address = some (e.reference d.index d.info text)) ∧
    (∀ columns, columnsFrom 1 s.blocks = .ok columns → s.kept.store.output = none →
      ∀ device, ∃ t, run here (.depotBy device) e s = .ok () t) ∧
    ∀ device t, run here (.depotBy device) e s = .ok () t →
      (∃ columns, columnsFrom 1 s.blocks = .ok columns ∧
        t.blocks = Layout.columns (.markup ("<script setup>\n" ++
          Text.joinWith "" (components.map Artifact.importLine) ++ "</script>") :: page)
          columns e.options.layout) ∧
      (∀ d ∈ demos, ∃ last, demos.reverse.find? (fun d' => d'.index = d.index) = some last ∧
        t.kept.store.get? (e.nameAt d.index) = some (e.component here d.index last.value)) ∧
      ((∀ d ∈ demos, t.kept.store.get? (e.nameAt d.index) =
          some (e.component here d.index d.value)) ↔
        ∀ d ∈ demos, ∀ d' ∈ demos, d.index = d'.index → d.value = d'.value) := by
  intro demos components page
  have hcomponents : components = demos.map fun d => e.component here d.index d.value :=
    (Demo.map_component_find e here (strip s.blocks)).symm
  obtain ⟨rs, hbuild, hartifacts⟩ := build_of_shows here named shows (strip s.blocks) s.shown
  rw [codesOf_strip] at hbuild
  refine ⟨⟨rs, hbuild, hartifacts⟩, hcomponents, ?_, fun d hd => ?_, fun d hd => ?_,
    fun columns read memory device => ?_, fun device t hrun => ?_⟩
  · rw [show components.map Artifact.name = _ from
      e.map_components here (k := e.nameAt) (fun _ _ => rfl) (strip s.blocks)]
    exact List.nodup_map_iff e.nameAt_injective
  · rw [show components.map Artifact.importLine = _ from
      e.map_components here (k := e.importAt here) (fun _ _ => rfl) (strip s.blocks)]
    exact List.count_map_of_injective _ _ (e.importAt_injective here) d.index
  · exact e.at?_rewrite _ (Demo.at?_of_mem_find hd)
  · exact run_of_memory named ⟨read, fun _ => named, fun _ _ _ => shows _ _⟩ device memory
  · have ending := run_ending here (.depotBy device) e s
    rw [hrun] at ending
    cases ending with
    | @done columns kept kept' ready removes registers =>
      have hstore : kept'.store = (kept.keep components).store :=
        Depot.store_registerBy_ok registers
      have hlast : ∀ d ∈ demos, ∃ last,
          demos.reverse.find? (fun d' => d'.index = d.index) = some last ∧
          kept'.store.get? (e.nameAt d.index) = some (e.component here d.index last.value) := by
        intro d hd
        rw [hstore, hcomponents]
        exact Extractor.get?_keep_components kept hd
      refine ⟨⟨columns, ready.read, rfl⟩, hlast, fun hown d hd d' hd' hindex => ?_,
        fun hsame d hd => ?_⟩
      · have hget := hown d hd
        rw [hindex, hown d' hd'] at hget
        exact (congrArg Artifact.code (Option.some.inj hget)).symm
      · obtain ⟨last, hfind, hget⟩ := hlast d hd
        have hmem : last ∈ demos := List.mem_reverse.1 (List.mem_of_find?_eq_some hfind)
        have hindex : last.index = d.index := by simpa using List.find?_some hfind
        rw [hget, hsame last hmem d hd hindex]

/-- A demo at the top and one in a list, at different indices. -/
theorem components_apart_iff_list :
    let e : Extractor :=
      { file := "/docs/x.md", root := "/docs", highlighter := fun _ code => .ok code }
    let blocks : List Node :=
      [.code "vue" none "<a/>",
        .group (.named "list") [.raw "paragraph" "x", .code "vue" none "<b/>"]]
    let s : State Depot := { blocks, kept := {} }
    ((s.components e []).map Artifact.name).Nodup ∧
      ∃ t, run [] (.depotBy .sound) e s = .ok () t ∧
        t.kept.store.get? (e.nameAt 0) = some (e.component [] 0 "<a/>") ∧
        t.kept.store.get? (e.nameAt 1) = some (e.component [] 1 "<b/>") := by
  intro e blocks s
  obtain ⟨-, -, hapart, -, -, hruns, hends⟩ :=
    components_apart_iff [] (e := e) (s := s) (by decide) (fun _ code => ⟨code, rfl⟩)
  obtain ⟨t, hrun⟩ := hruns 1 rfl rfl .sound
  obtain ⟨-, hlast, howned⟩ := hends .sound t hrun
  have hown := howned.2 (by decide)
  exact ⟨hapart.2 (by decide), t, hrun, hown ⟨[], 0, 2, "vue", none, "<a/>"⟩ (by decide),
    hown ⟨[1], 1, 2, "vue", none, "<b/>"⟩ (by decide)⟩

/-- Two demos of one page, first among their siblings, have one name: both references name a
component that the page imports twice, and that has the code of the second demo. -/
theorem components_of_one_name :
    let e : Extractor :=
      { file := "/docs/x.md", root := "/docs", highlighter := fun _ code => .ok code }
    let blocks : List Node :=
      [.code "vue" none "<a/>", .group (.named "list") [.code "vue" none "<b/>"]]
    let s : State Depot := { blocks, kept := {} }
    let line := "import VueCode3e8846eaI0 from \"/VueCode3e8846eaI0.vue\"\n"
    (s.components e []).map Artifact.name = ["VueCode3e8846eaI0", "VueCode3e8846eaI0"] ∧
      ¬ ((s.components e []).map Artifact.name).Nodup ∧
      (s.components e []).map Artifact.importLine = [line, line] ∧
      ∃ t, run [] (.depotBy .sound) e s = .ok () t ∧
        t.blocks = [.markup (preamble (s.components e [])), e.reference 0 none "<a/>",
          .group (.named "list") [e.reference 0 none "<b/>"]] ∧
        t.kept.store.artifacts.entries =
          [("VueCode3e8846eaI0", ⟨"VueCode3e8846eaI0", "/VueCode3e8846eaI0.vue", "<b/>"⟩)] := by
  intro e blocks s line
  have hrun : run [] (.depotBy .sound) e s = .ok () (Effect.final (run [] (.depotBy .sound) e s)) :=
    rfl
  exact ⟨by decide +kernel, by decide +kernel, by decide +kernel, _, hrun, rfl, by decide +kernel⟩

end Pass

end DemoPages
