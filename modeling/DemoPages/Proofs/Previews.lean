import Mathlib.Data.List.Nodup
import DemoPages.Cli
import DemoPages.Proofs.Contents
import DemoPages.Proofs.Layers
import DemoPages.Proofs.Leavings
import DemoPages.Proofs.Neighbours
import DemoPages.Proofs.Stops

/-!
# A page inspected and built

`inspect` lists the components of a page without writing anything, and `transform` writes them. The
two run the same pass, one over a store that is kept in memory and one over a store on the disk, and
both begin with nothing registered, so that they take in the same components. A page that was read
holds no blocks in blocks (`Page.leaves_of_read`), hence its components have different names
(`Extractor.nodup_names`) and lie at different places, and each is found where it was written
(`Site.Build.Done.bytes?_file`). So what is inspected tells what is built (`Cli.inspect_predicts`).
-/

namespace DemoPages

open Effect FrontMatter

/-! ### The names of the components of a page -/

/-- Does a block hold no blocks? -/
def Node.IsLeaf (n : Node) : Prop := ∀ kind children, n ≠ .group kind children

theorem Markdown.Token.isLeaf_of_mem_nodes {tokens : List Token} {lines : List (List Char)}
    {n : Node} (h : n ∈ nodes tokens lines) : n.IsLeaf := by
  obtain ⟨t, -, ht⟩ := List.mem_filterMap.1 h
  unfold node? at ht
  split at ht
  · cases ht
  · split at ht <;> cases ht <;> exact fun _ _ h => by cases h

theorem Page.leaves_of_parse {reader : Markdown.Reader} {text dialect : String} {blocks : List Node}
    (h : parse reader text dialect = .ok blocks) : ∀ n ∈ blocks, n.IsLeaf := by
  unfold parse at h
  generalize FrontMatter.split text.toList = parts at h
  obtain ⟨front, body⟩ := parts
  cases hreader : reader dialect with
  | error f =>
    rw [hreader] at h
    cases h
  | ok tokens =>
    rw [hreader] at h
    intro n hn
    cases front with
    | none =>
      cases h
      exact Markdown.Token.isLeaf_of_mem_nodes hn
    | some value =>
      cases h
      rcases List.mem_cons.1 hn with rfl | hn
      · exact fun _ _ h => by cases h
      · exact Markdown.Token.isLeaf_of_mem_nodes hn

/-- A page that was read holds no blocks in blocks. -/
theorem Page.leaves_of_read {reader : Markdown.Reader} {p : Path} {dialect : String} {d : Disk}
    {blocks : List Node} (h : read reader p dialect d = .ok blocks) : ∀ n ∈ blocks, n.IsLeaf := by
  unfold read at h
  split at h
  · cases h
  · split at h
    · cases h
    · exact leaves_of_parse h

namespace Extractor

variable {e : Extractor} {here : Place}

theorem name_of_mem_componentsAt {a : Artifact} {index : Nat} {n : Node} (leaf : n.IsLeaf)
    (h : a ∈ e.componentsAt here index n) : a.name = e.nameAt index := by
  cases n with
  | code l info value =>
    rw [componentsAt] at h
    split at h
    · rw [List.mem_singleton.1 h]
      rfl
    · cases h
  | group kind children => exact absurd rfl (leaf kind children)
  | raw kind value => cases h
  | frontMatter value => cases h
  | markup value => cases h
  | reference name value => cases h

theorem exists_index_of_mem {a : Artifact} {index : Nat} {ns : List Node}
    (leaves : ∀ n ∈ ns, n.IsLeaf) (h : a ∈ e.componentsFrom here index ns) :
    ∃ i, index ≤ i ∧ a.name = e.nameAt i := by
  induction ns generalizing index with
  | nil => cases h
  | cons n ns ih =>
    rw [componentsFrom] at h
    rcases List.mem_append.1 h with h | h
    · exact ⟨index, le_rfl, name_of_mem_componentsAt (leaves n List.mem_cons_self) h⟩
    · obtain ⟨i, hi, hname⟩ := ih (fun n hn => leaves n (List.mem_cons_of_mem _ hn)) h
      exact ⟨i, by omega, hname⟩

/-- The components of blocks that hold no blocks have different names. -/
theorem nodup_names {index : Nat} {ns : List Node} (leaves : ∀ n ∈ ns, n.IsLeaf) :
    ((e.componentsFrom here index ns).map Artifact.name).Nodup := by
  induction ns generalizing index with
  | nil => exact List.nodup_nil
  | cons n ns ih =>
    have hn := leaves n List.mem_cons_self
    have hns : ∀ n ∈ ns, n.IsLeaf := fun n hn => leaves n (List.mem_cons_of_mem _ hn)
    have hfirst : ((e.componentsAt here index n).map Artifact.name).Nodup := by
      cases n with
      | code l info value => rw [componentsAt]; split <;> simp
      | group kind children => exact absurd rfl (hn kind children)
      | raw kind value => exact List.nodup_nil
      | frontMatter value => exact List.nodup_nil
      | markup value => exact List.nodup_nil
      | reference name value => exact List.nodup_nil
    rw [componentsFrom, List.map_append, List.nodup_append]
    refine ⟨hfirst, ih hns, ?_⟩
    rintro _ hx _ hy rfl
    obtain ⟨a, ha, hname⟩ := List.mem_map.1 hx
    obtain ⟨b, hb, hname'⟩ := List.mem_map.1 hy
    obtain ⟨i, hi, hlater⟩ := exists_index_of_mem hns hb
    rw [name_of_mem_componentsAt hn ha] at hname
    rw [hlater, ← hname] at hname'
    have hindex := index_eq_of_componentName_eq hname'
    omega

/-- The codes of the components of a page are those of its demos. -/
theorem map_code_components (blocks : List Node) :
    (e.components here blocks).map Artifact.code = Node.codesOf e.options.lang blocks := by
  rw [← Demo.map_component_find, List.map_map, ← Demo.map_value_find]
  rfl

end Extractor

/-! ### Where the components are written -/

/-- What is read behind all slashes is no absolute path. -/
theorem Path.anchor_dropWhile (s : List Char) :
    (ofString (String.ofList (s.dropWhile (· = '/')))).anchor = .here := by
  show anchorOf (String.ofList (s.dropWhile (· = '/'))).toList = .here
  rw [String.toList_ofList]
  induction s with
  | nil => rfl
  | cons c s ih =>
    by_cases hc : c = '/'
    · rwa [List.dropWhile_cons_of_pos (by simpa using hc)]
    · rw [List.dropWhile_cons_of_neg (by simpa using hc)]
      exact (anchorOf_of_ne hc s).1

/-- A component lies where the output directory, joined with its path, leads. -/
theorem Store.target_eq_join {here : Place} {output : Path} {a : Artifact} {q : Place}
    (h : target here output a = .ok q) :
    q = Place.resolve here
      (output.join (.ofString (String.ofList (a.path.toList.dropWhile (· = '/'))))) := by
  rw [Place.resolve_join_of_here here output (Path.anchor_dropWhile _)]
  simp only [Path.ofString]
  exact (target_ok h).1

/-- Files are written one after the other. -/
theorem Depot.writeAll_append {device : Disk.Device} {l l' : List (Artifact × Place)}
    {d d' : Depot} :
    writeAll device (l ++ l') d = .ok () d' ↔
      ∃ u, writeAll device l d = .ok () u ∧ writeAll device l' u = .ok () d' := by
  induction l generalizing d with
  | nil => exact ⟨fun h => ⟨d, rfl, h⟩, fun ⟨u, h, h'⟩ => by cases h; exact h'⟩
  | cons ap l ih =>
    rw [List.cons_append, writeAll, writeAll]
    simp only [bind_ok, ih]
    constructor
    · rintro ⟨_, u, hmake, _, v, hwrite, w, hl, hl'⟩
      exact ⟨w, ⟨_, u, hmake, _, v, hwrite, hl⟩, hl'⟩
    · rintro ⟨w, ⟨_, u, hmake, _, v, hwrite, hl⟩, hl'⟩
      exact ⟨_, u, hmake, _, v, hwrite, w, hl, hl'⟩

namespace Site

/-- What a transformation begins with: nothing is registered, and the output directory is that of
the settings. -/
def State.fresh (s : Settings) (d : Disk) : State :=
  { depot := { store := { output := some (.ofString s.output) }, disk := d } }

variable {tools : Tools} {s : Settings} {root : Place} {d : Disk} {t : State}

namespace Build

variable {b : Build tools s root d.here}

/-- What is done from a fresh state: no component is removed. -/
theorem Done.steps_fresh (h : b.Done (.fresh s d) t) : ∃ registered made disk,
    Depot.writeAll .sound b.files ((State.fresh s d).depot.keep b.components) = .ok () registered ∧
    Disk.ensureDirectories b.target.parent registered.disk = .ok () made ∧
    Disk.writeText b.target b.text made = .ok () disk ∧ t.depot = { registered with disk } := by
  obtain ⟨kept, registered, made, disk, hremove, hwriteAll, hmake, hwrite, rfl⟩ := h.steps
  obtain ⟨-, rfl⟩ := EStateM.Result.ok.inj
    (show EStateM.Result.ok () (State.fresh s d).depot = .ok () kept from hremove)
  exact ⟨registered, made, disk, hwriteAll, hmake, hwrite, rfl⟩

theorem Done.nodup_names {here : Place} {b : Build tools s root here} {st st' : State}
    (h : b.Done st st') : b.names.Nodup :=
  Extractor.nodup_names fun n hn => Page.leaves_of_read h.read n (List.mem_of_mem_filter hn)

/-- From a fresh state, the store takes the components in as they come. -/
theorem Done.entries_fresh (h : b.Done (.fresh s d) t) :
    t.depot.store.artifacts.entries = b.components.map fun a => (a.name, a) := by
  obtain ⟨registered, made, disk, hwriteAll, -, -, hdepot⟩ := h.steps_fresh
  have hstore := Depot.store_writeAll .sound b.files ((State.fresh s d).depot.keep b.components)
  rw [hwriteAll, final_ok] at hstore
  rw [hdepot, hstore]
  exact Keyed.entries_foldl_put Artifact.name id h.nodup_names

/-- Components of the page that lie at one place are one component, unless it is the output
directory. -/
theorem Done.eq_of_place_eq {st st' : State} (h : b.Done st st')
    (extension : Settings.isExtension s.extension = true) {ap ap' : Artifact × Place}
    (hap : ap ∈ b.files) (hap' : ap' ∈ b.files) (hplace : ap'.2 = ap.2)
    (hbase : ap.2 ≠ base s d.here) : ap'.1 = ap.1 := by
  obtain ⟨hmem, htarget⟩ := h.valid.target hap
  obtain ⟨hmem', htarget'⟩ := h.valid.target hap'
  have made : ∀ a ∈ b.components, b.extractor.Made d.here a := fun a ha =>
    Extractor.made_of_mem_componentsFrom 0 (strip b.blocks) ha
  exact List.inj_on_of_nodup_map h.nodup_names hmem' hmem
    ((made _ hmem').name_eq (made _ hmem) extension hbase (hplace ▸ htarget') htarget)

/-- If a file lies in place of the output directory, a page that can be written lies there
itself. -/
theorem place_eq_base_of_file {made : Disk} (hdots : ".." ∉ d.here) (hhere : made.here = d.here)
    {q : Place} (hlocate : made.locate b.target = .ok q) {bytes : List UInt8}
    (hfile : made.bytes? (base s d.here) = some bytes) : b.place = base s d.here := by
  by_cases hdrop : b.source.drop root.length = []
  · rw [place, hdrop, List.append_nil]
  · have hway : made.locate { Path.ofString s.output with
        segments := (Path.ofString s.output).segments ++ b.source.drop root.length } = .ok q :=
      hlocate
    have hdirectory := Disk.look?_of_locate_append (hhere ▸ hdots) hdrop hway
    rw [hhere] at hdirectory
    cases (Disk.bytes?_eq_some.1 hfile).symm.trans hdirectory

/-- **The file of a component holds its code** after a build from a fresh state, unless the page
itself is written there. -/
theorem Done.bytes?_file (h : b.Done (.fresh s d) t) (hdots : ".." ∉ d.here)
    (extension : Settings.isExtension s.extension = true) {ap : Artifact × Place}
    (hap : ap ∈ b.files) (hplace : ap.2 ≠ b.place) :
    t.depot.disk.bytes? ap.2 = some (Text.Percent.utf8 ap.1.code.toList) := by
  obtain ⟨registered, made, disk, hwriteAll, hmake, hwrite, hdepot⟩ := h.steps_fresh
  have hdotsAll : ∀ ap ∈ b.files, ".." ∉ ap.2 := fun ap => h.valid.dots_not_mem
  have hfirst : Disk.Frame (fun _ => True) d registered.disk := by
    have hframe : Disk.Frame (fun _ => True) ((State.fresh s d).depot.keep b.components).disk
        (final (Depot.writeAll .sound b.files ((State.fresh s d).depot.keep b.components))).disk :=
      Depot.frame_writeAll Disk.Device.orderly_sound.framed
        (fun ap hap => ⟨hdotsAll ap hap, trivial⟩) _
    rwa [hwriteAll, final_ok] at hframe
  have hframe : Disk.Frame (fun _ => False) registered.disk made := by
    have hframe : Disk.Frame (fun _ => False) registered.disk
        (final (Disk.ensureDirectories b.target.parent registered.disk)) :=
      Disk.frame_ensureDirectories b.target.parent registered.disk
    rwa [hmake, final_ok] at hframe
  have hhere : made.here = d.here := hframe.here.trans hfirst.here
  obtain ⟨q, hlocate, hentry, rfl⟩ := Disk.writeText_eq_ok.1 hwrite
  have hq : q = b.place := by
    rw [Disk.locate_ok (hhere ▸ hdots) hlocate, hhere]
    exact resolve_written d.here b.dots_not_mem_source
  subst hq
  -- Before the page is written, the place holds what was written there last.
  obtain ⟨last, hlast⟩ := exists_find?_of_mem_files hap
  have hbytes := Depot.bytes?_writeAll Disk.Device.orderly_sound hdotsAll hwriteAll hlast
  rw [← hframe.others _ fun h => h] at hbytes
  have hbase : ap.2 ≠ base s d.here := by
    intro hbase
    rw [hbase] at hbytes
    exact hplace (hbase.trans (place_eq_base_of_file hdots hhere hlocate hbytes).symm)
  have hsame : last.1 = ap.1 :=
    h.eq_of_place_eq extension hap (List.mem_reverse.1 (List.mem_of_find?_eq_some hlast))
      (by simpa using List.find?_some hlast) hbase
  rw [hsame] at hbytes
  rw [hdepot]
  exact (Disk.bytes?_congr (Disk.look?_set_of_ne made hplace _)).trans hbytes

/-- The run comes by a state in which the file of a component holds its code. -/
theorem Done.written_file (h : b.Done (.fresh s d) t) {before after : List (Artifact × Place)}
    {ap : Artifact × Place} (hfiles : b.files = before ++ ap :: after) : ∃ u registered,
      Depot.writeAll .sound (before ++ [ap]) ((State.fresh s d).depot.keep b.components) =
        .ok () u ∧
      u.disk.bytes? ap.2 = some (Text.Percent.utf8 ap.1.code.toList) ∧
      Depot.writeAll .sound after u = .ok () registered := by
  obtain ⟨registered, made, disk, hwriteAll, -⟩ := h.steps_fresh
  rw [hfiles, ← List.singleton_append, ← List.append_assoc] at hwriteAll
  obtain ⟨u, hbefore, hafter⟩ := Depot.writeAll_append.1 hwriteAll
  refine ⟨u, registered, hbefore, ?_, hafter⟩
  refine Depot.bytes?_writeAll Disk.Device.orderly_sound (fun ap' hap' => ?_) hbefore
    (by simp)
  refine h.valid.dots_not_mem ?_
  rw [hfiles, ← List.singleton_append, ← List.append_assoc]
  exact List.mem_append_left _ hap'

end Build

end Site

/-! ### The settings of two commands -/

namespace Settings

variable {reader : Reader} {d : Disk} {environment : List (String × Given)} {s : Settings}

/-- Settings that were checked have an extension. -/
theorem isExtension_of_ofValues {given? : Field → Option Given} (h : ofValues given? = .ok s) :
    isExtension s.extension = true := by
  have hextension := ofValues_ok.1 h .extension
  rw [valueOf_eq_check] at hextension
  exact (check_ok.1 hextension).2 rfl

theorem isExtension_of_load {overrides : List (String × Option Given)}
    (h : load reader d environment overrides = .ok s) : isExtension s.extension = true := by
  unfold load at h
  split at h
  · cases h
  · obtain ⟨entries, -, hvalues⟩ := ofDocument_ok h
    exact isExtension_of_ofValues hvalues

/-- Overrides count for what they give to each field. -/
theorem load_congr {overrides overrides' : List (String × Option Given)} (hne : overrides ≠ [])
    (hne' : overrides' ≠ []) (h : ∀ f, fromOverrides? overrides f = fromOverrides? overrides' f) :
    load reader d environment overrides = load reader d environment overrides' := by
  have hgiven (entries : List (Key × Given)) :
      given environment overrides entries = given environment overrides' entries := by
    funext f
    rw [given, given, h f]
  unfold load
  cases config reader d with
  | error f => rfl
  | ok document =>
    cases hentries : document.entries? with
    | none => simp only [ofDocument, hentries, ne_eq, hne, hne', not_false_eq_true, true_and]
    | some entries =>
      cases htexts : texts? entries with
      | none => simp only [ofDocument, hentries, htexts]
      | some texts => simp only [ofDocument_mapping hentries htexts, hgiven]

end Settings

namespace Cli

variable {d : Disk} {environment : List (String × Settings.Given)} {tools : Tools} {s : Settings}
  {path : String} {values values' : List (Settings.Field × String)}

/-- The two commands have the same settings if they give the same root and language, and nothing
else. -/
theorem load_inspect (sameRoot : values'.lookup .root = values.lookup .root)
    (sameLanguage : values'.lookup .language = values.lookup .language)
    (noOutput : values.lookup .output = none) (noDialect : values.lookup .dialect = none) :
    Settings.load tools.configuration d environment
        (Command.overrides ⟨.inspect, path, values'⟩) =
      Settings.load tools.configuration d environment
        (Command.overrides ⟨.transform, path, values⟩) := by
  refine Settings.load_congr (by simp [Command.overrides, Verb.options])
    (by simp [Command.overrides, Verb.options]) fun f => ?_
  cases f <;>
    simp [Settings.fromOverrides?, Command.overrides, Verb.options, Settings.Field.key, sameRoot,
      sameLanguage, noOutput, noDialect]

/-- A transformation that ends well has settings. -/
theorem exists_settings {words : List String}
    (transforms : Request.ofArguments words = .command ⟨.transform, path, values⟩)
    (exits : (run tools environment words d).1.status = 0) :
    ∃ s, Settings.load tools.configuration d environment
        (Command.overrides ⟨.transform, path, values⟩) = .ok s ∧
      run tools environment words d = transform tools s path d := by
  unfold run at exits ⊢
  simp only [transforms] at exits ⊢
  cases hs : Settings.load tools.configuration d environment
      (Command.overrides ⟨.transform, path, values⟩) with
  | error f =>
    simp only [hs] at exits
    split at exits <;> cases exits
  | ok s => exact ⟨s, rfl, rfl⟩

/-- A transformation that ends well has built pages, and tells of each. -/
theorem transform_ok (h : (transform tools s path d).1.status = 0) : ∃ rs t,
    Site.run tools s path (.fresh s d) = .ok rs t ∧
    transform tools s path d = (.printing (rs.map resultLine ++
      ["Transformed " ++ Nat.repr rs.length ++ " document(s), " ++
        Nat.repr t.depot.store.names.length ++ " component(s) to " ++
        (Path.ofString s.output).toString ++ "/"]), t.depot.disk) := by
  unfold transform at h ⊢
  simp only at h ⊢
  split at h
  · cases h
  · cases h
  · rename_i rs t hrun
    exact ⟨rs, t, hrun, rfl⟩

end Cli

/-- A path at which it is itself a page leads to a file, and to no other page. -/
theorem Site.discover_of_mem {d : Disk} {p : Path} (h : p ∈ discover d p) :
    d.isFile p = true ∧ discover d p = [p] := by
  unfold discover at h ⊢
  split at h
  · rename_i hfile
    rw [if_pos hfile]
    refine ⟨hfile, List.filter_eq_self.2 fun p' hp' => ?_⟩
    rw [List.mem_singleton.1 hp']
    exact (List.mem_filter.1 h).2
  · -- What lies below a directory has a longer path.
    have hbelow := (List.mem_filter.1 (List.mem_mergeSort.1 h)).1
    unfold Disk.below at hbelow
    split at hbelow
    · cases hbelow
    · split at hbelow
      · rename_i base _ _
        obtain ⟨q, hq, heq⟩ := List.mem_map.1 hbelow
        have hlength := congrArg (fun p => p.segments.length) heq
        simp only [List.length_append, List.length_drop] at hlength
        have hlong := (List.mem_filter.1 hq).2
        simp only [Bool.and_eq_true, decide_eq_true_eq] at hlong
        omega
      · cases hbelow

namespace Cli

section Page

variable {d : Disk} {tools : Tools} {s : Settings} {root : Place}
  {b : Site.Build tools s root d.here} {t : Site.State}

/-- The components of a page that is built are those that it makes when it is inspected. -/
theorem components_ok (hroot : Site.root s d = .ok root) (h : b.Done (.fresh s d) t) :
    ∃ st, components tools s b.path { depot := { disk := d } } = .ok b.components st := by
  have hextract : ∃ registry, Site.extract b.extractor b.blocks { depot := { disk := d } } =
      .ok (Site.laidOut b.extractor d.here b.blocks b.columns)
        ⟨registry, Depot.keep b.components { disk := d }⟩ :=
    ⟨_, (Site.extract_ok b.file_ne_empty).2 ⟨b.columns, { disk := d }, _,
      ⟨h.valid.ready.read, h.valid.ready.named, h.valid.ready.shows⟩, rfl, rfl, rfl, rfl⟩⟩
  obtain ⟨registry, hextract⟩ := hextract
  have hentries : (Depot.keep b.components { disk := d }).store.artifacts.entries =
      b.components.map fun a => (a.name, a) :=
    Keyed.entries_foldl_put Artifact.name id h.nodup_names
  refine ⟨⟨registry, Depot.keep b.components { disk := d }⟩, ?_⟩
  unfold components
  rw [get_bind]
  refine (bind_of_ok (ofExcept_ok.2 ⟨h.read, rfl⟩) _).trans ?_
  refine (bind_of_ok (ofExcept_ok.2 ⟨hroot, rfl⟩) _).trans ?_
  refine (bind_of_ok hextract _).trans ?_
  rw [get_bind]
  simp only [hentries, List.map_map]
  exact congrArg (EStateM.Result.ok · _) (List.map_id _)

theorem inspect_ok {path : String} (hroot : Site.root s d = .ok root)
    (h : b.Done (.fresh s d) t) (hpath : b.path = .ofString path)
    (hfile : d.isFile (.ofString path) = true) :
    inspect tools s path d = .printing (if b.components = [] then ["No components found."]
      else b.components.map componentLine) := by
  obtain ⟨st, hcomponents⟩ := components_ok hroot h
  rw [hpath] at hcomponents
  unfold inspect
  rw [if_pos hfile, hcomponents]
  cases b.components with
  | nil => rfl
  | cons a as => rfl

/-- No list of components reads like the news that there are none. -/
theorem printing_components_ne {artifacts : List Artifact} (h : artifacts ≠ []) :
    (Outcome.printing (artifacts.map componentLine)).out ≠ "No components found.\n" := by
  cases artifacts with
  | nil => exact absurd rfl h
  | cons a as =>
    have hhead : (Outcome.printing ((a :: as).map componentLine)).out.toList.head? = some ' ' := by
      unfold Outcome.printing
      cases as with
      | nil => simp [Text.joinWith, componentLine]
      | cons a' as => simp [Text.joinWith, componentLine]
    intro heq
    rw [heq] at hhead
    cases hhead

end Page

/-- **Inspecting a page predicts its transformation**, on a disk without symbolic links and with any
tools. Let `transform` end well on a path at which it finds a page, and let `inspect` be called on
the same path instead, with the same root and language, where `transform` was given no output
directory and no dialect. Then `transform` tells of this page alone. `inspect` ends well, changes
nothing, and lists the components that were registered, in their order, or says that there are none
if there were none. Their names are different, and each has the code of its demo. That code was
written to the output directory, joined with the path that is listed, and lies there afterwards
unless the page itself was written over it. -/
theorem inspect_predicts {tools : Tools} {d : Disk} {environment : List (String × Settings.Given)}
    {words words' : List String} {path : String} {values values' : List (Settings.Field × String)}
    (hdots : ".." ∉ d.here)
    (transforms : Request.ofArguments words = .command ⟨.transform, path, values⟩)
    (inspects : Request.ofArguments words' = .command ⟨.inspect, path, values'⟩)
    (sameRoot : values'.lookup .root = values.lookup .root)
    (sameLanguage : values'.lookup .language = values.lookup .language)
    (noOutput : values.lookup .output = none) (noDialect : values.lookup .dialect = none)
    (exits : (run tools environment words d).1.status = 0)
    (page : .ofString path ∈ Site.discover d (.ofString path)) :
    ∃ (s : Settings) (root : Place) (b : Site.Build tools s root d.here) (t : Site.State),
      (Settings.load tools.configuration d environment
          (Command.overrides ⟨.transform, path, values⟩) = .ok s ∧
        Site.run tools s path (.fresh s d) = .ok [b.result] t ∧ b.path = .ofString path ∧
        b.Done (.fresh s d) t) ∧
      run tools environment words d = (.printing [resultLine b.result,
        "Transformed 1 document(s), " ++ Nat.repr b.names.length ++ " component(s) to " ++
          (Path.ofString s.output).toString ++ "/"], t.depot.disk) ∧
      run tools environment words' d = (.printing (if b.components = [] then
        ["No components found."] else b.components.map componentLine), d) ∧
      ((run tools environment words' d).1.out = "No components found.\n" ↔ b.components = []) ∧
      (t.depot.store.names = b.names ∧ b.names.Nodup ∧
        b.components.map Artifact.code = Node.codesOf s.language b.blocks ∧
        b.files.map Prod.fst = b.components) ∧
      ∀ before ap after, b.files = before ++ ap :: after →
        ap.2 = Place.resolve d.here ((Path.ofString s.output).join
          (.ofString (String.ofList (ap.1.path.toList.dropWhile (· = '/'))))) ∧
        (∃ u registered, Depot.writeAll .sound (before ++ [ap])
            ((Site.State.fresh s d).depot.keep b.components) = .ok () u ∧
          u.disk.bytes? ap.2 = some (Text.Percent.utf8 ap.1.code.toList) ∧
          Depot.writeAll .sound after u = .ok () registered) ∧
        (ap.2 ≠ b.place →
          t.depot.disk.bytes? ap.2 = some (Text.Percent.utf8 ap.1.code.toList)) := by
  obtain ⟨hfile, hfound⟩ := Site.discover_of_mem page
  obtain ⟨s, hs, htransforms⟩ := exists_settings transforms exits
  rw [htransforms] at exits
  obtain ⟨rs, t, hrun, htransform⟩ := transform_ok exits
  obtain ⟨root, hroot, hpages⟩ := Site.run_ok.1 hrun
  rw [show (Site.State.fresh s d).depot.disk = d from rfl] at hroot hpages
  rw [hfound] at hpages
  obtain ⟨r, st, rs', hpage, hrest, rfl⟩ := Site.pages_cons_ok.1 hpages
  cases hrest
  obtain ⟨b, hpath, rfl, hdone⟩ := (Site.page_built hdots rfl rfl).1 hpage
  have hinspects : run tools environment words' d = (inspect tools s path d, d) := by
    have hs' : Settings.load tools.configuration d environment
        (Command.overrides ⟨.inspect, path, values'⟩) = .ok s :=
      (load_inspect sameRoot sameLanguage noOutput noDialect).trans hs
    simp only [run, inspects, hs']
  rw [inspect_ok hroot hdone hpath hfile] at hinspects
  have hnames : t.depot.store.names = b.names := by
    unfold Store.names Keyed.keys
    rw [hdone.entries_fresh, List.map_map]
    rfl
  have extension := Settings.isExtension_of_load hs
  refine ⟨s, root, b, t, ⟨hs, hrun, hpath, hdone⟩, ?_, hinspects, ?_,
    ⟨hnames, hdone.nodup_names, ?_, (Store.targets_ok hdone.valid.targets).1⟩, ?_⟩
  · have hone : "Transformed " ++ Nat.repr 1 ++ " document(s), " =
        "Transformed 1 document(s), " := by
      decide
    rw [htransforms, htransform, hnames, List.length_singleton, hone]
    rfl
  · rw [hinspects]
    split
    · exact iff_of_true rfl ‹_›
    · exact iff_of_false (printing_components_ne ‹_›) ‹_›
  · exact (Extractor.map_code_components (strip b.blocks)).trans (codesOf_strip s.language b.blocks)
  · intro before ap after hfiles
    have hap : ap ∈ b.files := hfiles ▸ List.mem_append_right _ List.mem_cons_self
    exact ⟨Store.target_eq_join (hdone.valid.target hap).2, hdone.written_file hfiles,
      hdone.bytes?_file hdots extension hap⟩

/-- A page with two demos, inspected and transformed. -/
theorem inspect_predicts_two :
    let d : Disk := ⟨["site"], ⟨[(["site"], .directory), (["site", "x.md"],
      .file (Text.Percent.utf8 "# X\n\n```vue\n<a/>\n```\n\n```vue\n<b/>\n```\n".toList))]⟩⟩
    (run .own [] ["inspect", "x.md"] d).1 =
      .printing ["  VueCode026cb7efI1 -> /VueCode026cb7efI1.vue",
        "  VueCode026cb7efI2 -> /VueCode026cb7efI2.vue"] ∧
    ∃ (s : Settings) (root : Place) (b : Site.Build .own s root d.here) (t : Site.State),
      run .own [] ["transform", "x.md"] d = (.printing [resultLine b.result,
        "Transformed 1 document(s), " ++ Nat.repr b.names.length ++ " component(s) to " ++
          (Path.ofString s.output).toString ++ "/"], t.depot.disk) ∧
      run .own [] ["inspect", "x.md"] d = (.printing (b.components.map componentLine), d) ∧
      b.names.Nodup ∧
      ∀ ap ∈ b.files, ap.2 ≠ b.place →
        t.depot.disk.bytes? ap.2 = some (Text.Percent.utf8 ap.1.code.toList) := by
  intro d
  have hinspect : (run .own [] ["inspect", "x.md"] d).1 =
      .printing ["  VueCode026cb7efI1 -> /VueCode026cb7efI1.vue",
        "  VueCode026cb7efI2 -> /VueCode026cb7efI2.vue"] := by decide +kernel
  have exits : (run .own [] ["transform", "x.md"] d).1.status = 0 := by decide +kernel
  have page : Path.ofString "x.md" ∈ Site.discover d (.ofString "x.md") := by
    rw [Site.discover, if_pos (by decide +kernel)]
    decide +kernel
  have hdots : ".." ∉ d.here := by decide
  have transforms : Request.ofArguments ["transform", "x.md"] =
      .command ⟨.transform, "x.md", []⟩ := by decide +kernel
  have inspects : Request.ofArguments ["inspect", "x.md"] =
      .command ⟨.inspect, "x.md", []⟩ := by decide +kernel
  clear_value d
  obtain ⟨s, root, b, t, -, htransform, hrun, hnone, ⟨-, hnames, -⟩, hfiles⟩ :=
    inspect_predicts hdots transforms inspects rfl rfl rfl rfl exits page
  have hne : b.components ≠ [] := by
    refine mt hnone.2 ?_
    rw [hinspect]
    decide
  rw [if_neg hne] at hrun
  refine ⟨hinspect, s, root, b, t, htransform, hrun, hnames, fun ap hap => ?_⟩
  obtain ⟨before, after, hsplit⟩ := List.append_of_mem hap
  exact (hfiles before ap after hsplit).2.2

end Cli

end DemoPages
