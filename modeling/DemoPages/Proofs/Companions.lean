import DemoPages.Proofs.Leavings
import DemoPages.Proofs.Stops

/-!
# Components beside their page

Three computations have to agree: the path of a component is a route between texts
(`artifactPath`), the page is written to a path below the output directory (`Site.written`), and the
store reads the path of the component and joins it to the output directory (`Store.target`). For a
page below the project root all three lead down by the directories between the root and the page,
and so a component comes to lie in the directory of its page (`component_beside_page`).
-/

namespace DemoPages

open Effect

/-! ### The three ways -/

namespace Place

variable {here dir P : Place}

theorem dots_not_mem_of_isName (h : ∀ x ∈ P, IsName x) : ".." ∉ P := fun hmem =>
  (h _ hmem).2.1 rfl

theorem common_append (p q : Place) : common p (p ++ q) = p.length := by
  induction p with
  | nil => cases q <;> rfl
  | cons x p ih => simp [common, ih]

/-- The route to a place below leads down only. -/
theorem route_append (p q : Place) : route p (p ++ q) = q := by
  simp [route, common_append]

/-- The text of a place is read again as the place. -/
theorem resolve_toString (here : Place) (h : ∀ x ∈ P, IsName x) :
    resolve here (.ofString P.toString) = P := by
  have hread : Path.ofString (Path.toString P.toPath) = P.toPath :=
    Path.ofString_toString fun x hx => ⟨(h x hx).1, (h x hx).2.2⟩
  have htext : Path.toString P.toPath = P.toString := rfl
  rw [← htext, hread]
  exact settle_of_not_mem (dots_not_mem_of_isName h)

/-- A file beside a page lies in the directory of the page. -/
theorem beside_toString (here : Place) {page name : String} (hpage : ∀ x ∈ dir ++ [page], IsName x)
    (hname : IsName name) : beside here (dir ++ [page]).toString name = dir ++ [name] := by
  have hpieces : Path.pieces (dir ++ [page]).toString = "" :: (dir ++ [page]) := by
    unfold Place.toString
    rw [Path.pieces_slash, Path.pieces_joinWith (by simp) fun x hx => (hpage x hx).2.2]
  have hfile : Path.isAnchored (dir ++ [page]).toString = true := by
    simp [Path.isAnchored, Place.toString]
  have hall : ∀ x ∈ dir ++ [name], IsName x := by
    intro x hx
    rcases List.mem_append.1 hx with hx | hx
    · exact hpage x (List.mem_append_left _ hx)
    · rwa [List.mem_singleton.1 hx]
  have hfilter : ((("" :: (dir ++ [page])).dropLast) ++ [name]).filter Path.isSegment =
      dir ++ [name] := by
    rw [List.dropLast_cons_of_ne_nil (by simp), List.dropLast_concat, List.cons_append,
      List.filter_cons_of_neg (by decide)]
    exact List.filter_eq_self.2 fun x hx => (hall x hx).1
  unfold beside
  rw [Path.isAnchored_of_not_mem hname.2.2, hfile, hpieces, Path.pieces_of_not_mem hname.2.2]
  simp only [Bool.false_eq_true, if_false, if_true, List.nil_append]
  rw [hfilter]
  exact settle_of_not_mem (dots_not_mem_of_isName hall)

end Place

/-- The path of a file beside a page below the root: the way down, behind a slash. -/
theorem artifactPath_beside (here root : Place) {dirs : List String} {page name : String}
    (names : ∀ x ∈ root ++ dirs ++ [page], IsName x) (hname : IsName name) :
    artifactPath here (root ++ dirs ++ [page] : Place).toString root.toString name =
      "/" ++ Text.joinWith "/" (dirs ++ [name]) := by
  have hroot : ∀ x ∈ root, IsName x := fun x hx => names x (by simp [hx])
  have hroute : Place.route root (root ++ dirs ++ [name]) = dirs ++ [name] := by
    rw [List.append_assoc, Place.route_append]
  unfold artifactPath
  rw [Place.resolve_toString here hroot, Place.beside_toString here names hname]
  simp only [hroute]
  cases dirs <;> rfl

/-- The path of a component leads down only, and is read again as the way that it was made of. -/
theorem Path.ofString_down {way : List String} (hne : way ≠ []) (names : ∀ x ∈ way, IsName x) :
    ofString (String.ofList (("/" ++ Text.joinWith "/" way).toList.dropWhile (· = '/'))) =
      ⟨.here, way⟩ := by
  have htext : Text.joinWith "/" way = Path.toString ⟨.here, way⟩ := by
    simp [Path.toString, hne]
  rw [dropWhile_joinWith fun x hx => ⟨(names x hx).2.2, ?_⟩, htext]
  · exact ofString_toString fun x hx => ⟨(names x hx).1, (names x hx).2.2⟩
  · rintro rfl
    exact absurd (names "" hx).1 (by decide)

/-- A path that leads down only is never refused but for a character of number zero, and leads down
from the output directory. -/
theorem Store.target_down (here : Place) (output : Path) {a : Artifact} {way : List String}
    (hne : way ≠ []) (names : ∀ x ∈ way, IsName x) (hpath : a.path = "/" ++ Text.joinWith "/" way) :
    target here output a =
      if Disk.hasNull (output.join ⟨.here, way⟩) then
        .error (.disk ⟨.nullByte, (output.join ⟨.here, way⟩).toString⟩)
      else .ok (Place.resolve here output ++ way) := by
  have hdots : ".." ∉ Place.resolve here output ++ way := by
    rw [List.mem_append, not_or]
    exact ⟨Place.dots_not_mem_settle _, Place.dots_not_mem_of_isName names⟩
  unfold target
  simp only [hpath, Path.ofString_down hne names, Place.settle_of_not_mem hdots]
  rw [if_pos (c := (Place.resolve here output).isPrefixOf _ = true) (by simp)]

/-! ### The components of a page -/

theorem exists_joinWith_of_mem {x : String} {xs : List String} (h : x ∈ xs) :
    ∃ before after, Text.joinWith "" xs = before ++ x ++ after := by
  induction xs with
  | nil => cases h
  | cons y xs ih =>
    by_cases hxs : xs = []
    · subst hxs
      rw [List.mem_singleton.1 h]
      exact ⟨"", "", by simp [Text.joinWith]⟩
    · rw [Text.joinWith_cons "" y hxs]
      rcases List.mem_cons.1 h with rfl | h
      · exact ⟨"", Text.joinWith "" xs, by simp⟩
      · obtain ⟨before, after, heq⟩ := ih h
        exact ⟨y ++ before, after, by simp [heq, String.append_assoc]⟩

theorem exists_enclosed_of_mem (opening closing : String) {x : String} {xs : List String}
    (h : x ∈ xs) :
    ∃ before after, opening ++ Text.joinWith "" xs ++ closing = before ++ x ++ after := by
  obtain ⟨before, after, heq⟩ := exists_joinWith_of_mem h
  exact ⟨opening ++ before, after ++ closing, by simp only [heq, String.append_assoc]⟩

/-- Every component is imported from its path. -/
theorem import_of_mem {artifacts : List Artifact} {a : Artifact} (h : a ∈ artifacts) :
    ∃ before after, preamble artifacts =
      before ++ ("import " ++ a.name ++ " from \"" ++ a.path ++ "\"\n") ++ after := by
  unfold preamble
  exact exists_enclosed_of_mem "<script setup>\n" "</script>" (List.mem_map.2 ⟨a, h, rfl⟩)

namespace Site

variable {tools : Tools} {s : Settings} {here root source : Place}

/-- The directories that lead from the project root to a page. -/
def directories (root source : Place) : List String := (source.drop root.length).dropLast

/-- The way from the output directory to the file of a component of a page. -/
def way (s : Settings) (root source : Place) (a : Artifact) : List String :=
  directories root source ++ [a.name ++ s.extension]

theorem exists_page (under : root <+: source) (below : source ≠ root) :
    ∃ page, source = root ++ directories root source ++ [page] := by
  obtain ⟨rest, rfl⟩ := under
  have hne : rest ≠ [] := by
    rintro rfl
    exact below (List.append_nil _)
  refine ⟨rest.getLast hne, ?_⟩
  unfold directories
  rw [List.drop_left, List.append_assoc, List.dropLast_append_getLast]

/-- The page is written in the directory to which the same directories lead. -/
theorem resolve_parent (here : Place) (names : ∀ x ∈ source, IsName x) (under : root <+: source)
    (below : source ≠ root) :
    Place.resolve here (written s root source).parent =
      base s here ++ directories root source := by
  obtain ⟨page, hpage⟩ := exists_page under below
  have hdrop : source.drop root.length = directories root source ++ [page] := by
    conv_lhs => rw [hpage]
    rw [List.append_assoc, List.drop_left]
  have hparent : (written s root source).parent =
      (Path.ofString s.output).join ⟨.here, directories root source⟩ := by
    unfold written
    rw [hdrop]
    simp [Path.parent, Path.join, ← List.append_assoc]
  rw [hparent]
  refine Place.resolve_join here _ fun hmem => ?_
  exact Place.dots_not_mem_of_isName names (List.mem_of_mem_drop (List.dropLast_subset _ hmem))

section Made

variable {a : Artifact} (names : ∀ x ∈ source, IsName x) (under : root <+: source)
  (below : source ≠ root) (slash : '/' ∉ s.namePrefix.toList)
  (extension : Settings.isExtension s.extension = true)
  (ha : (extractor tools s root source).Made here a)

include names slash extension ha in
theorem isName_of_mem_way : ∀ x ∈ way s root source a, IsName x := by
  obtain ⟨⟨index, hname⟩, -⟩ := ha
  obtain ⟨hsegment, hdots, hslash⟩ :=
    @isSegment_componentFile source.toString index _ _ slash extension
  intro x hx
  rcases List.mem_append.1 hx with hx | hx
  · exact names x (List.mem_of_mem_drop (List.dropLast_subset _ hx))
  · rw [List.mem_singleton.1 hx, show a.name = componentName _ _ _ from hname]
    exact ⟨hsegment, hdots, hslash⟩

include names under below slash extension ha in
theorem path_eq : a.path = "/" ++ Text.joinWith "/" (way s root source a) := by
  obtain ⟨page, hpage⟩ := exists_page under below
  have hfile := isName_of_mem_way names slash extension ha (a.name ++ s.extension)
    (List.mem_append_right _ List.mem_cons_self)
  have hroot : ∀ x ∈ root ++ directories root source ++ [page], IsName x := hpage ▸ names
  have hpath := artifactPath_beside here root hroot hfile
  rw [← hpage] at hpath
  exact ha.2.trans hpath

include names under below slash extension ha in
/-- The place of a component, below any output directory. -/
theorem target_eq (output : Path) : Store.target here output a =
    if Disk.hasNull (output.join ⟨.here, way s root source a⟩) then
      .error (.disk ⟨.nullByte, (output.join ⟨.here, way s root source a⟩).toString⟩)
    else .ok (Place.resolve here output ++ way s root source a) :=
  Store.target_down here output (by simp [way])
    (isName_of_mem_way names slash extension ha)
    (path_eq names under below slash extension ha)

include names under below slash extension in
/-- Registering components of a page leaves the code of the last one of a name in its file. -/
theorem bytes?_of_registerBy {device : Disk.Device} (orderly : device.Orderly) {output : Path}
    {artifacts : List Artifact} {d d' : Depot} (hhere : d.disk.here = here)
    (houtput : d.store.output = some output)
    (made : ∀ b ∈ artifacts, (extractor tools s root source).Made here b)
    (hlast : (artifacts.reverse.find? fun b => b.name = a.name) = some a)
    (h : Depot.registerBy device artifacts d = .ok () d') :
    d'.disk.bytes? (Place.resolve here output ++ way s root source a) =
      some (Text.Percent.utf8 a.code.toList) := by
  have htarget : ∀ b ∈ artifacts,
      Store.target here output b = .ok (Place.resolve here output ++ way s root source b) := by
    intro b hb
    obtain ⟨place, hplace⟩ := Depot.exists_target_of_registerBy houtput h hb
    rw [hhere] at hplace
    have heq := target_eq names under below slash extension (made b hb) output
    rw [hplace] at heq
    split at heq
    · cases heq
    · rw [hplace, heq]
  -- The components of one name, and these alone, lie at the place.
  have hsame : ∀ b ∈ artifacts.reverse,
      decide (d.store.place? here b = some (Place.resolve here output ++ way s root source a)) =
        decide (b.name = a.name) := by
    intro b hb
    have hb := htarget b (List.mem_reverse.1 hb)
    have hplace : d.store.place? here b = some (Place.resolve here output ++ way s root source b) :=
      Store.place?_eq_some.2 ⟨output, houtput, hb⟩
    rw [decide_eq_decide, hplace, Option.some_inj]
    simp only [way, List.append_cancel_left_eq, List.cons.injEq, and_true]
    exact ⟨name_eq_of_append_extension_eq extension extension, fun heq => by rw [heq]⟩
  rw [Depot.bytes?_registerBy orderly h, hhere, List.find?_congr hsame, hlast]

end Made

/-- **Components land beside their page**, on a disk without symbolic links. Let a page lie below
the project root, the beginning of component names hold no slash, and the extension be one that
settings allow. Then the path of each of its components leads down by the directories between the
root and the page, and holds no dots. The store never refuses the path for leading out of the output
directory, and not at all unless there is a character of number zero in it. The component lies in
the directory in which the page is written, at the place to which the path leads that the page
imports it from, and there its code is found once it is registered. -/
theorem component_beside_page (tools : Tools) {s : Settings} {root source : Place} (here : Place)
    (names : ∀ x ∈ source, IsName x) (under : root <+: source) (below : source ≠ root)
    (slash : '/' ∉ s.namePrefix.toList) (extension : Settings.isExtension s.extension = true)
    (index : Nat) (code : String) :
    let output := Path.ofString s.output
    let a := (extractor tools s root source).component here index code
    let way := (source.drop root.length).dropLast ++ [a.name ++ s.extension]
    let place := base s here ++ way
    (a.path = "/" ++ Text.joinWith "/" way ∧ Path.pieces a.path = "" :: way ∧
      "." ∉ way ∧ ".." ∉ way) ∧
    (∀ path directory, Store.target here output a ≠ .error (.escapes path directory)) ∧
    ((∀ x ∈ output.segments ++ source, '\x00' ∉ x.toList) → '\x00' ∉ s.namePrefix.toList →
      Store.target here output a = .ok place) ∧
    Place.resolve here (written s root source).parent = place.dropLast ∧
    (∀ artifacts, a ∈ artifacts → ∃ before after, preamble artifacts =
      before ++ ("import " ++ a.name ++ " from \"" ++ a.path ++ "\"\n") ++ after) ∧
    Place.resolve here (output.join
      (Path.ofString (String.ofList (a.path.toList.dropWhile (· = '/'))))) = place ∧
    ∀ (device : Disk.Device) (artifacts : List Artifact) (d d' : Depot), device.Orderly →
      d.disk.here = here → d.store.output = some output →
      (∀ b ∈ artifacts, (extractor tools s root source).Made here b) →
      (artifacts.reverse.find? fun b => b.name = a.name) = some a →
      Depot.registerBy device artifacts d = .ok () d' →
      d'.disk.bytes? place = some (Text.Percent.utf8 code.toList) := by
  intro output a way place
  have ha : (extractor tools s root source).Made here a := Extractor.made_component index code
  have hnames : ∀ x ∈ way, IsName x := isName_of_mem_way names slash extension ha
  have hpath : a.path = "/" ++ Text.joinWith "/" way :=
    path_eq names under below slash extension ha
  have htarget := target_eq names under below slash extension ha output
  change Store.target here output a = if Disk.hasNull (output.join ⟨.here, way⟩) then
    .error (.disk ⟨.nullByte, (output.join ⟨.here, way⟩).toString⟩) else .ok place at htarget
  refine ⟨⟨hpath, ?_, fun hdot => ?_, Place.dots_not_mem_of_isName hnames⟩, ?_, ?_, ?_,
    fun artifacts => import_of_mem, ?_, ?_⟩
  · rw [hpath, Path.pieces_slash,
      Path.pieces_joinWith (by simp [way]) fun x hx => (hnames x hx).2.2]
  · exact absurd (hnames "." hdot).1 (by decide)
  · intro path directory heq
    rw [htarget] at heq
    split at heq <;> cases heq
  · intro hnull hprefix
    have hclear : Disk.hasNull (output.join ⟨.here, way⟩) = false := by
      refine List.any_eq_false.2 fun x hx => ?_
      rw [List.contains_eq_mem, decide_eq_true_eq]
      rcases List.mem_append.1 (show x ∈ output.segments ++ way from hx) with hx | hx
      · exact hnull x (List.mem_append_left _ hx)
      rcases List.mem_append.1 hx with hx | hx
      · exact hnull x (List.mem_append_right _ (List.mem_of_mem_drop (List.dropLast_subset _ hx)))
      · rw [List.mem_singleton.1 hx]
        exact null_not_mem_componentFile hprefix extension
    rw [htarget, hclear]
    rfl
  · rw [resolve_parent here names under below]
    simp [place, way, directories, ← List.append_assoc]
  · rw [hpath, Path.ofString_down (by simp [way]) hnames]
    exact Place.resolve_join here output (Place.dots_not_mem_of_isName hnames)
  · intro device artifacts d d' orderly hhere houtput made hlast h
    exact bytes?_of_registerBy names under below slash extension orderly hhere houtput made hlast h

/-- A page in a directory below the root: its component lies in that directory below the output
directory. -/
theorem component_beside_page_guide :
    let s : Settings := { root := "docs" }
    let root : Place := ["site", "docs"]
    let source : Place := ["site", "docs", "guide", "x.md"]
    let a := (extractor .own s root source).component ["site"] 0 "<a/>"
    (∀ x ∈ source, IsName x) ∧ root <+: source ∧ source ≠ root ∧
      '/' ∉ s.namePrefix.toList ∧ Settings.isExtension s.extension = true ∧
      a.path = "/guide/VueCodedb30a988I0.vue" ∧
      Store.target ["site"] (.ofString s.output) a =
        .ok ["site", "dist", "guide", "VueCodedb30a988I0.vue"] ∧
      Place.resolve ["site"] (written s root source).parent = ["site", "dist", "guide"] := by
  intro s root source a
  have names : ∀ x ∈ source, IsName x := by decide
  have under : root <+: source := ⟨["guide", "x.md"], rfl⟩
  have below : source ≠ root := by decide
  have slash : '/' ∉ s.namePrefix.toList := by decide
  have extension : Settings.isExtension s.extension = true := by decide +kernel
  have hname : a.name = "VueCodedb30a988I0" := by decide +kernel
  obtain ⟨⟨hpath, -⟩, -, htarget, hparent, -⟩ :=
    component_beside_page .own ["site"] names under below slash extension 0 "<a/>"
  have hclear : ∀ x ∈ (Path.ofString s.output).segments ++ source, '\x00' ∉ x.toList := by decide
  have htarget := htarget hclear (by decide)
  have hfile : ((extractor .own s root source).component ["site"] 0 "<a/>").name =
      "VueCodedb30a988I0" := hname
  rw [hfile] at hpath htarget hparent
  have hplace : base s ["site"] ++ ((source.drop root.length).dropLast ++
      ["VueCodedb30a988I0" ++ s.extension]) =
        ["site", "dist", "guide", "VueCodedb30a988I0.vue"] := by decide
  rw [hplace] at htarget hparent
  exact ⟨names, under, below, slash, extension, hpath, htarget, hparent⟩

/-- The store refuses a component whose name begins with the character of number zero, and one whose
page is itself the project root: its path leads up. -/
theorem component_refused :
    let marked : Settings := { namePrefix := "\x00" }
    let s : Settings := {}
    let page : Place := ["docs", "x.md"]
    let a := (extractor .own marked ["docs"] page).component ["site"] 0 "<a/>"
    let b := (extractor .own s page page).component ["site"] 0 "<a/>"
    '/' ∉ marked.namePrefix.toList ∧ Settings.isExtension marked.extension = true ∧
      (∀ x ∈ page, IsName x) ∧ ["docs"] <+: page ∧ page <+: page ∧
      Store.target ["site"] (.ofString marked.output) a =
        .error (.disk ⟨.nullByte, "dist/\x003e8846eaI0.vue"⟩) ∧
      b.path = "/../VueCode3e8846eaI0.vue" ∧
      Store.target ["site"] (.ofString s.output) b = .error (.escapes b.path "dist") := by
  decide +kernel

end Site

end DemoPages
