import DemoPages.Proofs.Accounts
import DemoPages.Proofs.Mirrors
import DemoPages.Proofs.Names

/-!
# What lies in the output directory

Passes over pages with different digits get on without each other: a pass changes the entry, the
components and the files of its own page only (`InOrder.after`). So the output directory mirrors the
store after any session, and every page finds the components of its last pass as that pass left them
(`output_mirrors_store`), whatever its device failed to do before.

There are two exceptions. A file whose deletion failed has lost its component and stays
(`Visit.Spares`). And one place is not safe: a component whose path comes down to the output
directory itself is written there, and so is any other whose path does.
-/

namespace DemoPages

open Effect

/-! ### The components of a page -/

/-- Does a name belong to a page? -/
def Belongs (file name : String) : Prop :=
  ∃ index namePrefix, name = componentName file index namePrefix

theorem Belongs.mark_eq {file file' name : String} (h : Belongs file name)
    (h' : Belongs file' name) : Digest.mark file = Digest.mark file' := by
  obtain ⟨i, p, rfl⟩ := h
  obtain ⟨j, q, heq⟩ := h'
  exact (eq_of_componentName_eq heq).2.1

namespace Extractor

variable {e : Extractor} {here : Place}

/-- The name of a component belongs to its page, and tells the path of its file. -/
def Made (e : Extractor) (here : Place) (a : Artifact) : Prop :=
  (∃ index : Nat, a.name = e.nameAt index) ∧
    a.path = artifactPath here e.file e.root (a.name ++ e.options.extension)

theorem Made.belongs {a : Artifact} (h : e.Made here a) : Belongs e.file a.name := by
  obtain ⟨⟨index, hname⟩, -⟩ := h
  exact ⟨index, e.options.namePrefix, hname⟩

theorem made_component (index : Nat) (code : String) :
    e.Made here (e.component here index code) := by
  simp only [Made, component, and_true]
  exact ⟨index, rfl⟩

mutual

theorem made_of_mem_componentsAt {a : Artifact} (index : Nat) :
    ∀ n : Node, a ∈ e.componentsAt here index n → e.Made here a
  | .code l _ value, h => by
    rw [componentsAt] at h
    split at h
    · rw [List.mem_singleton.1 h]
      exact made_component index value
    · cases h
  | .group _ children, h => by
    rw [componentsAt] at h
    exact made_of_mem_componentsFrom 0 children h
  | .raw _ _, h => by cases h
  | .frontMatter _, h => by cases h
  | .markup _, h => by cases h
  | .reference _ _, h => by cases h

theorem made_of_mem_componentsFrom {a : Artifact} (index : Nat) :
    ∀ ns : List Node, a ∈ e.componentsFrom here index ns → e.Made here a
  | [], h => by cases h
  | n :: ns, h => by
    rw [componentsFrom] at h
    rcases List.mem_append.1 h with h | h
    · exact made_of_mem_componentsAt index n h
    · exact made_of_mem_componentsFrom (index + 1) ns h

end

end Extractor

/-- A visit whose options name files: no slash stands in the names of its components, and their
files have an extension. -/
structure Visit.Regular (v : Visit) : Prop where
  slash : '/' ∉ v.extractor.options.namePrefix.toList
  extension : Settings.isExtension v.extractor.options.extension = true

namespace Visit

theorem regular_plain {file root extension : String} {blocks : List Node}
    (h : Settings.isExtension extension = true) : (plain file root extension blocks).Regular :=
  ⟨(by decide : '/' ∉ "VueCode".toList), h⟩

variable {v : Visit} {here : Place} {output : Path}

theorem made_of_mem_components {a : Artifact} (ha : a ∈ v.components here) :
    v.extractor.Made here a :=
  Extractor.made_of_mem_componentsFrom 0 _ ha

/-- The component of a regular visit lies at a place that ends with its name and an extension, or
it is the output directory itself. -/
theorem Regular.target_cases (regular : v.Regular) {a : Artifact} (ha : a ∈ v.components here)
    {q : Place} (hq : Store.target here output a = .ok q) :
    q = Place.resolve here output ∨ ∃ dir extension,
      Settings.isExtension extension = true ∧ q = dir ++ [a.name ++ extension] := by
  obtain ⟨⟨index, hname⟩, hpath⟩ := made_of_mem_components ha
  obtain ⟨hsegment, hdots, hslash⟩ := isSegment_componentFile regular.slash regular.extension
  rw [← show a.name = componentName _ _ _ from hname] at hsegment hdots hslash
  rcases Store.target_ends_with hslash hsegment hdots hpath hq with h | ⟨dir, h⟩
  · exact Or.inl h
  · exact Or.inr ⟨dir, _, regular.extension, h⟩

end Visit

/-! ### The invariant -/

/-- May a component of this name lie at a place? It does if one of the visits makes it. -/
def Home (visits : List Visit) (here : Place) (output : Path) (name : String) (q : Place) : Prop :=
  ∃ v ∈ visits, ∃ a ∈ v.components here, a.name = name ∧ Store.target here output a = .ok q

/-- The digits in their names tell the pages of these visits apart. -/
def ToldApart (visits : List Visit) : Prop :=
  ∀ v ∈ visits, ∀ w ∈ visits, Digest.mark v.file = Digest.mark w.file → v.file = w.file

/-- A pass spares the file at the place `q`, and leaves it with these bytes: it fails where it has
the components of the last pass removed, with the fault of deleting that file. -/
def Visit.Spares (v : Visit) (here : Place) (device : Disk.Device) (s : Shared Depot) (q : Place)
    (bytes : List UInt8) : Prop :=
  ∃ f t, Depot.Spares device f q bytes (s.registry.get v.file) s.kept ∧
    v.run here (Keeper.depotBy device) s = .error (.disk f) t ∧
    t.kept = final (Depot.removeBy device (s.registry.get v.file) s.kept)

/-- Was the file at the place `q` left with these bytes by a pass of the session that spared it? -/
def Spared (here : Place) (output : Path) (disk : Disk) (visits : List (Disk.Device × Visit))
    (q : Place) (bytes : List UInt8) : Prop :=
  ∃ before device v after, visits = before ++ (device, v) :: after ∧
    v.Spares here device (depotSession here (some output) disk before) q bytes

/-- A session that is in order: the store is on account, the entries of the registry name components
of their own pages, and the output directory mirrors the store, but for the files that were
`spared`. -/
structure InOrder (visits : List Visit) (here : Place) (output : Path)
    (spared : Place → List UInt8 → Prop) (s : Shared Depot) : Prop where
  accounted : Accounted s.registry s.kept.store
  named : ∀ file, ∀ name ∈ s.registry.get file, (∃ v ∈ visits, v.file = file) ∧ Belongs file name
  mirrors : Depot.Mirrors here output (Home visits here output) spared s.kept

/-- What a pass over a page leaves alone: the entries of other pages, and the components and files
whose names do not belong to the page. -/
structure Apart (visits : List Visit) (file : String) (here : Place) (output : Path)
    (s s' : Shared Depot) : Prop where
  registry : ∀ other, other ≠ file → s'.registry.get other = s.registry.get other
  kept : Depot.Apart (Home visits here output) (Belongs file) s.kept s'.kept

/-- A page has its components: the store has the last component of each name recorded for the page,
and its code is in the file that lies there, if no other name is at home there. -/
def Current (visits : List Visit) (components : List Artifact) (file : String) (here : Place)
    (output : Path) (s : Shared Depot) : Prop :=
  ∀ name ∈ s.registry.get file, ∃ a q,
    (components.reverse.find? fun a => a.name = name) = some a ∧
    s.kept.store.get? name = some a ∧ Store.target here output a = .ok q ∧
    ((∀ other, Home visits here output other q → other = name) →
      s.kept.disk.bytes? q = some (Text.Percent.utf8 a.code.toList))

section Passes

variable {visits : List Visit} {here : Place} {output : Path} {s : Shared Depot}
  {device : Disk.Device} {v : Visit} {spared : Place → List UInt8 → Prop}

/-- Below the output directory, no two names are at home at one place. -/
theorem Home.name_eq (regular : ∀ v ∈ visits, v.Regular) {name name' : String} {q : Place}
    (h : Home visits here output name q) (h' : Home visits here output name' q)
    (hbase : q ≠ Place.resolve here output) : name = name' := by
  obtain ⟨v, hv, a, ha, rfl, hq⟩ := h
  obtain ⟨v', hv', a', ha', rfl, hq'⟩ := h'
  rcases (regular v hv).target_cases ha hq with h | ⟨dir, x, hx, rfl⟩
  · exact absurd h hbase
  rcases (regular v' hv').target_cases ha' hq' with h | ⟨dir', x', hx', heq⟩
  · exact absurd h hbase
  have hlast := (List.append_inj' heq rfl).2
  exact name_eq_of_append_extension_eq hx hx' (List.cons.inj hlast).1

theorem InOrder.mono {spared' : Place → List UInt8 → Prop}
    (h : InOrder visits here output spared s) (hsub : ∀ q bytes, spared q bytes → spared' q bytes) :
    InOrder visits here output spared' s :=
  ⟨h.accounted, h.named, h.mirrors.mono hsub⟩

/-- A session is in order before its first pass. -/
theorem InOrder.start {disk : Disk}
    (empty : ∀ q, Place.resolve disk.here output <+: q → disk.bytes? q = none) :
    InOrder visits disk.here output spared
      { kept := { store := { output := some output }, disk } } where
  accounted _ hname := by cases hname
  named _ _ hname := by cases hname
  mirrors := by
    refine ⟨rfl, rfl, fun name a ha => ?_, fun q bytes hq hbytes => ?_⟩
    · cases ha
    · rw [empty q hq] at hbytes
      cases hbytes

/-- Once the components recorded for a page are forgotten, those of its next pass are welcome. -/
theorem InOrder.welcome (told : ToldApart visits) (h : InOrder visits here output spared s)
    (hv : v ∈ visits) {d : Depot}
    (hstore : d.store = s.kept.store.without (s.registry.get v.file)) :
    Depot.Welcome here output (Home visits here output) (v.components here) d where
  homes a ha q hq := ⟨v, hv, a, ha, rfl, hq⟩
  path a ha a' ha' hname := by
    rw [(Visit.made_of_mem_components ha).2, (Visit.made_of_mem_components ha').2, hname]
  fresh a ha := by
    rw [hstore, Store.get?_without]
    split
    · rfl
    · rename_i hgone
      refine Option.eq_none_iff_forall_ne_some.2 fun a' ha' => hgone ?_
      -- A component of this name would be on account for a page with the same digits.
      obtain ⟨file, hname⟩ := h.accounted a.name (Store.mem_names.2 ⟨a', ha'⟩)
      obtain ⟨⟨w, hw, rfl⟩, hbelongs⟩ := h.named file a.name hname
      have hmark := hbelongs.mark_eq (Visit.made_of_mem_components ha).belongs
      rw [← told w hw v hv hmark]
      exact hname

/-- **A pass keeps the session in order and leaves other pages alone**, however it ends. It spares
one file at most, if it fails to delete it. -/
theorem InOrder.after (told : ToldApart visits) (h : InOrder visits here output spared s)
    (orderly : device.Orderly) (hv : v ∈ visits) :
    InOrder visits here output (fun q bytes => spared q bytes ∨ v.Spares here device s q bytes)
        (v.after here (Keeper.depotBy device) s) ∧
      Apart visits v.file here output s (v.after here (Keeper.depotBy device) s) := by
  have accounted := v.accounted_after here device h.accounted
  have hown : ∀ name ∈ s.registry.get v.file, Belongs v.file name := fun name hname =>
    (h.named v.file name hname).2
  have hmirrors : Depot.Mirrors here output (Home visits here output)
      (fun q bytes => spared q bytes ∨ v.Spares here device s q bytes) s.kept :=
    h.mirrors.mono fun _ _ => Or.inl
  have cases := v.after_cases here (Keeper.depotBy device) s
  generalize v.after here (Keeper.depotBy device) s = s' at accounted cases ⊢
  rcases cases with ⟨hkept, hget⟩ | ⟨f, removes, hget, t, hrun, hkept⟩ |
    ⟨kept, removes, hkept, hnames, hothers⟩
  · -- The keeper is told nothing.
    refine ⟨⟨accounted, fun file name hname => ?_, ?_⟩, fun file _ => hget file, ?_⟩
    · rw [hget] at hname
      exact h.named file name hname
    · rw [hkept]
      exact hmirrors
    · rw [hkept]
      exact Depot.Apart.refl s.kept
  · -- Removing fails, and the file that it fails at is spared.
    change Depot.removeBy device _ _ = _ at removes
    obtain ⟨hremoved, hapart⟩ := h.mirrors.removeBy orderly hown
    rw [removes, final_error] at hremoved hapart
    refine ⟨⟨accounted, fun file name hname => ?_, hremoved.mono ?_⟩, fun file _ => hget file,
      hapart⟩
    · rw [hget] at hname
      exact h.named file name hname
    · rintro q bytes (hspared | ⟨f', hspares⟩)
      · exact Or.inl hspared
      · obtain ⟨_, fails, -⟩ := hspares.removeBy
        obtain ⟨rfl, -⟩ := EStateM.Result.error.inj (removes.symm.trans fails)
        refine Or.inr ⟨f', t, hspares, hrun, ?_⟩
        rw [removes, final_error, hkept]
  · -- The old components are removed, and the new ones registered, perhaps not all.
    change Depot.removeBy device _ _ = _ at removes
    change s'.kept = final (Depot.registerBy device _ _) at hkept
    obtain ⟨hremoved, hapart⟩ := hmirrors.removeBy_ok orderly hown removes
    have hnew : ∀ a ∈ v.components here, Belongs v.file a.name := fun a ha =>
      (Visit.made_of_mem_components ha).belongs
    have welcome := h.welcome told hv (Depot.store_removeBy_ok removes)
    obtain ⟨hregistered, hapart'⟩ := hremoved.registerBy orderly welcome hnew
    rw [← hkept] at hregistered hapart'
    refine ⟨⟨accounted, fun file name hname => ?_, hregistered⟩, hothers, hapart.trans hapart'⟩
    by_cases hfile : file = v.file
    · subst hfile
      rw [hnames] at hname
      obtain ⟨a, ha, rfl⟩ := List.mem_map.1 hname
      exact ⟨⟨v, hv, rfl⟩, hnew a ha⟩
    · rw [hothers file hfile] at hname
      exact h.named file name hname

/-- After a pass that ends well, the page has its components. -/
theorem InOrder.current_after (told : ToldApart visits) (h : InOrder visits here output spared s)
    (orderly : device.Orderly) (hv : v ∈ visits) {t : Pass.State Depot}
    (hrun : v.run here (Keeper.depotBy device) s = .ok () t) :
    Current visits (v.components here) v.file here output
      (v.after here (Keeper.depotBy device) s) := by
  obtain ⟨hnames, kept, removes, registers⟩ := Visit.after_of_ok here _ v hrun
  change Depot.removeBy device _ _ = _ at removes
  change Depot.registerBy device _ _ = _ at registers
  obtain ⟨hremoved, -⟩ := h.mirrors.removeBy_ok orderly
    (fun name hname => (h.named v.file name hname).2) removes
  have welcome := h.welcome told hv (Depot.store_removeBy_ok removes)
  intro name hname
  rw [hnames] at hname
  exact hremoved.registerBy_ok orderly welcome registers hname

/-- A file that a pass spares is there after it, and no component that lies there is kept, unless
the place is the output directory itself. -/
theorem InOrder.of_spares (regular : ∀ v ∈ visits, v.Regular) (told : ToldApart visits)
    (h : InOrder visits here output spared s) (orderly : device.Orderly) (hv : v ∈ visits)
    {q : Place} {bytes : List UInt8} (hspares : v.Spares here device s q bytes) :
    (v.after here (Keeper.depotBy device) s).kept.disk.bytes? q = some bytes ∧
      (q ≠ Place.resolve here output → ∀ name a,
        (v.after here (Keeper.depotBy device) s).kept.store.get? name = some a →
          Store.target here output a ≠ .ok q) := by
  obtain ⟨f, t, hfile, hrun, hkept⟩ := hspares
  have hafter : (v.after here (Keeper.depotBy device) s).kept =
      final (Depot.removeBy device (s.registry.get v.file) s.kept) := by
    rw [← hkept, Visit.after, hrun, final_error]
  obtain ⟨d, hremoves, hbytes⟩ := hfile.removeBy
  refine ⟨by rw [hafter, hremoves]; exact hbytes, fun hbase name a ha hq => ?_⟩
  obtain ⟨name', hhome', hnone⟩ := Depot.Mirrors.forgotten orderly hfile h.mirrors
    fun name hname => (h.named v.file name hname).2
  obtain ⟨-, q', hq', hhome⟩ := (h.after told orderly hv).1.mirrors.placed name a ha
  rw [hq] at hq'
  cases hq'
  rw [hhome'.name_eq regular hhome hbase, ← hafter, ha] at hnone
  cases hnone

/-- A pass over another page leaves the page its components. -/
theorem Current.of_apart (told : ToldApart visits) {components : List Artifact} {file : String}
    {s' : Shared Depot} (hcurrent : Current visits components file here output s)
    (h : InOrder visits here output spared s) (hv : v ∈ visits) (hne : file ≠ v.file)
    (apart : Apart visits v.file here output s s') :
    Current visits components file here output s' := by
  intro name hname
  rw [apart.registry file hne] at hname
  obtain ⟨⟨w, hw, rfl⟩, hbelongs⟩ := h.named file name hname
  have hforeign : ¬ Belongs v.file name := fun hmem => hne (told w hw v hv (hbelongs.mark_eq hmem))
  obtain ⟨a, q, hlast, hget, htarget, hbytes⟩ := hcurrent name hname
  refine ⟨a, q, hlast, by rw [apart.kept.store name hforeign, hget], htarget, fun honly => ?_⟩
  have houtside : ¬ ∃ name', Belongs v.file name' ∧ Home visits here output name' q := by
    rintro ⟨name', hbelongs', hhome⟩
    rw [honly name' hhome] at hbelongs'
    exact hforeign hbelongs'
  rw [apart.kept.disk.others q houtside]
  exact hbytes honly

end Passes

/-! ### The output directory after a session -/

section Sessions

variable {output : Path} {disk : Disk} {visits : List (Disk.Device × Visit)}

theorem not_spared_nil {here q : Place} {bytes : List UInt8} :
    ¬ Spared here output disk [] q bytes := by
  rintro ⟨before, device, v, after, hvisits, -⟩
  simp at hvisits

/-- What a session has spared, its last pass has, or the passes before it have. -/
theorem spared_concat {here : Place} {vs : List (Disk.Device × Visit)} {device : Disk.Device}
    {v : Visit} {q : Place} {bytes : List UInt8} :
    Spared here output disk (vs ++ [(device, v)]) q bytes ↔ Spared here output disk vs q bytes ∨
      v.Spares here device (depotSession here (some output) disk vs) q bytes := by
  constructor
  · rintro ⟨before, device', w, after, hvisits, hspares⟩
    rcases List.eq_nil_or_concat after with rfl | ⟨after, last, rfl⟩
    · obtain ⟨rfl, hlast⟩ := List.append_inj' hvisits rfl
      cases hlast
      exact Or.inr hspares
    · rw [List.concat_eq_append, ← List.cons_append, ← List.append_assoc] at hvisits
      exact Or.inl ⟨before, device', w, after, (List.append_inj' hvisits rfl).1, hspares⟩
  · rintro (⟨before, device', w, after, rfl, hspares⟩ | hspares)
    · exact ⟨before, device', w, after ++ [(device, v)], by simp, hspares⟩
    · exact ⟨vs, device, v, [], rfl, hspares⟩

/-- A pass that ends well spares nothing. -/
theorem Visit.not_spares {here q : Place} {device : Disk.Device} {v : Visit} {s : Shared Depot}
    {bytes : List UInt8} (h : succeeds (v.run here (Keeper.depotBy device) s) = true) :
    ¬ v.Spares here device s q bytes := by
  rintro ⟨f, t, -, hfails, -⟩
  rw [hfails] at h
  cases h

/-- A session over some of the visits is in order, but for the files that its passes spared. -/
theorem inOrder_depotSession
    (empty : ∀ q, Place.resolve disk.here output <+: q → disk.bytes? q = none)
    (orderly : ∀ dv ∈ visits, dv.1.Orderly) (told : ToldApart (visits.map Prod.snd))
    {vs : List (Disk.Device × Visit)} (hsub : ∀ dv ∈ vs, dv ∈ visits) :
    InOrder (visits.map Prod.snd) disk.here output (Spared disk.here output disk vs)
      (depotSession disk.here (some output) disk vs) := by
  -- The induction is from the end of the session: what it spared is told from the state before.
  induction vs using List.reverseRecOn with
  | nil => exact InOrder.start empty
  | append_singleton vs dv ih =>
    obtain ⟨device, v⟩ := dv
    have hdv := hsub (device, v) (List.mem_append_right vs List.mem_cons_self)
    have hbefore := ih fun dv hdv => hsub dv (List.mem_append_left _ hdv)
    have hafter := (hbefore.after told (orderly _ hdv) (List.mem_map_of_mem hdv)).1
    rw [depotSession_append_cons, List.map_nil, session_nil]
    exact hafter.mono fun q bytes => spared_concat.2

/-- After the last pass over a page, the session leaves the page its components. -/
theorem current_session {here : Place} (orderly : ∀ dv ∈ visits, dv.1.Orderly)
    (told : ToldApart (visits.map Prod.snd)) {components : List Artifact} {file : String}
    {after : List (Disk.Device × Visit)} (hsub : ∀ dv ∈ after, dv ∈ visits)
    (hlater : ∀ dv ∈ after, dv.2.file ≠ file) {s : Shared Depot}
    {spared : Place → List UInt8 → Prop}
    (horder : InOrder (visits.map Prod.snd) here output spared s)
    (hcurrent : Current (visits.map Prod.snd) components file here output s) :
    Current (visits.map Prod.snd) components file here output
      (session here (after.map fun dv => (Keeper.depotBy dv.1, dv.2)) s) := by
  -- What is spared on the way does not matter here.
  refine (session_keeps here
    (P := fun s => InOrder (visits.map Prod.snd) here output (fun _ _ => True) s ∧
      Current (visits.map Prod.snd) components file here output s) ?_
    ⟨horder.mono fun _ _ _ => trivial, hcurrent⟩).2
  rintro kv hkv s ⟨horder, hcurrent⟩
  obtain ⟨dv, hdv, rfl⟩ := List.mem_map.1 hkv
  have hmem : dv.2 ∈ visits.map Prod.snd := List.mem_map_of_mem (hsub dv hdv)
  obtain ⟨horder', hapart⟩ := horder.after told (orderly dv (hsub dv hdv)) hmem
  exact ⟨horder'.mono fun _ _ _ => trivial,
    hcurrent.of_apart told horder hmem (Ne.symm (hlater dv hdv)) hapart⟩

end Sessions

/-- **The output directory mirrors the store.** Take any passes over pages that their digits tell
apart, with options that name files, from an empty store and an empty registry and with no file at
or below the output directory. The passes may end as they like: each has a device of its own, which
may fail to make a directory, to write a file, or to delete one. Then every file there is that of a
component in the store, or was left as it is by a pass that failed to delete it; after such a pass
the file is indeed there, and no component has it. And if the last pass over a page ended well, the
store has its components, and the file of each holds the code of the last one of that name, unless
it lies in place of the output directory, and a component of another name came to lie there too. -/
theorem output_mirrors_store (output : Path) (disk : Disk) (visits : List (Disk.Device × Visit))
    (empty : ∀ q, Place.resolve disk.here output <+: q → disk.bytes? q = none)
    (orderly : ∀ dv ∈ visits, dv.1.Orderly) (regular : ∀ dv ∈ visits, dv.2.Regular)
    (told : ToldApart (visits.map Prod.snd)) :
    let here := disk.here
    let base := Place.resolve here output
    let s := depotSession here (some output) disk visits
    (∀ q bytes, base <+: q → s.kept.disk.bytes? q = some bytes →
      (∃ name a, s.kept.store.get? name = some a ∧ Store.target here output a = .ok q) ∨
      Spared here output disk visits q bytes) ∧
    (∀ before device v after q bytes, visits = before ++ (device, v) :: after →
      v.Spares here device (depotSession here (some output) disk before) q bytes →
      let t := depotSession here (some output) disk (before ++ [(device, v)])
      t.kept.disk.bytes? q = some bytes ∧
        (q ≠ base → ∀ name a, t.kept.store.get? name = some a →
          Store.target here output a ≠ .ok q)) ∧
    ∀ before device v after, visits = before ++ (device, v) :: after →
      (∀ dv ∈ after, dv.2.file ≠ v.file) →
      (∃ t, v.run here (Keeper.depotBy device) (depotSession here (some output) disk before) =
        .ok () t) →
      ∀ name ∈ s.registry.get v.file, ∃ a q,
        ((v.components here).reverse.find? fun a => a.name = name) = some a ∧
        s.kept.store.get? name = some a ∧ Store.target here output a = .ok q ∧
        ((q = base → ∀ dv ∈ visits, ∀ b ∈ dv.2.components here,
            Store.target here output b = .ok base → b.name = name) →
          s.kept.disk.bytes? q = some (Text.Percent.utf8 a.code.toList)) := by
  intro here base s
  have regular' : ∀ v ∈ visits.map Prod.snd, v.Regular := by
    rintro _ hv
    obtain ⟨dv, hdv, rfl⟩ := List.mem_map.1 hv
    exact regular dv hdv
  have horder := inOrder_depotSession empty orderly told fun _ h => h
  have hbefore : ∀ before device v after, visits = before ++ (device, v) :: after →
      (device, v) ∈ visits ∧ InOrder (visits.map Prod.snd) here output
        (Spared here output disk before) (depotSession here (some output) disk before) := by
    intro before device v after hvisits
    refine ⟨by simp [hvisits], inOrder_depotSession empty orderly told fun dv hdv => ?_⟩
    simp [hvisits, hdv]
  refine ⟨fun q bytes hq hbytes => (horder.mirrors.sourced q bytes hq hbytes).2, ?_, ?_⟩
  · intro before device v after q bytes hvisits hspares t
    obtain ⟨hv, hbefore⟩ := hbefore before device v after hvisits
    rw [show t = v.after here _ _ from depotSession_append_cons before [] device v]
    exact hbefore.of_spares regular' told (orderly _ hv) (List.mem_map_of_mem hv) hspares
  rintro before device v after hvisits hlater ⟨t, hrun⟩ name hname
  obtain ⟨hv, hbefore⟩ := hbefore before device v after hvisits
  have hmem : v ∈ visits.map Prod.snd := List.mem_map_of_mem hv
  have hafter := (hbefore.after told (orderly _ hv) hmem).1
  have hthen := hbefore.current_after told (orderly _ hv) hmem hrun
  have hcurrent := current_session orderly told (fun dv hdv => by simp [hvisits, hdv]) hlater
    hafter hthen
  rw [← depotSession_append_cons, ← hvisits] at hcurrent
  obtain ⟨a, q, hlast, hget, htarget, hbytes⟩ := hcurrent name hname
  refine ⟨a, q, hlast, hget, htarget, fun honly => hbytes fun other hother => ?_⟩
  by_cases hbase : q = base
  · obtain ⟨w, hw, b, hb, rfl, hq⟩ := hother
    obtain ⟨dv, hdv, rfl⟩ := List.mem_map.1 hw
    exact honly hbase dv hdv b hb (hbase ▸ hq)
  · -- Below the output directory, the name alone is at home there.
    obtain ⟨-, q', htarget', hhome⟩ := horder.mirrors.placed name a hget
    rw [htarget] at htarget'
    cases htarget'
    exact hother.name_eq regular' hhome hbase

/-- A component that moves to another path and extension leaves nothing behind. -/
theorem output_mirrors_store_moved :
    let output : Path := { segments := ["out"] }
    let first := Visit.plain "/docs/x.md" "/docs" ".vue" [.code "vue" none "<a/>"]
    let moved := Visit.plain "/docs/x.md" "/" ".svelte" [.code "vue" none "<b/>"]
    let visits := [(Disk.Device.sound, first), (Disk.Device.sound, moved)]
    let disk : Disk := {}
    let s := depotSession disk.here (some output) disk visits
    s.kept.disk.bytes? ["out", "docs", "VueCode3e8846eaI0.svelte"] =
        some (Text.Percent.utf8 "<b/>".toList) ∧
      ∀ q bytes, ["out"] <+: q → s.kept.disk.bytes? q = some bytes →
        q = ["out", "docs", "VueCode3e8846eaI0.svelte"] := by
  intro output first moved visits disk s
  have empty : ∀ q, Place.resolve disk.here output <+: q → disk.bytes? q = none := by
    intro q _
    cases q <;> rfl
  have orderly : ∀ dv ∈ visits, dv.1.Orderly := by
    intro dv hdv
    simp only [visits, List.mem_cons, List.not_mem_nil, or_false] at hdv
    rcases hdv with rfl | rfl <;> exact Disk.Device.orderly_sound
  have regular : ∀ dv ∈ visits, dv.2.Regular := by
    intro dv hdv
    simp only [visits, List.mem_cons, List.not_mem_nil, or_false] at hdv
    rcases hdv with rfl | rfl <;> exact Visit.regular_plain (by decide +kernel)
  have told : ToldApart (visits.map Prod.snd) := by
    intro v hv w hw _
    simp only [visits, List.map_cons, List.map_nil, List.mem_cons, List.not_mem_nil, or_false]
      at hv hw
    rcases hv with rfl | rfl <;> rcases hw with rfl | rfl <;> rfl
  have hmirror := output_mirrors_store output disk visits empty orderly regular told
  have hsources : ∀ q bytes, ["out"] <+: q → s.kept.disk.bytes? q = some bytes →
      (∃ name a, s.kept.store.get? name = some a ∧ Store.target disk.here output a = .ok q) ∨
      Spared disk.here output disk visits q bytes := hmirror.1
  have hfirst : succeeds (first.run disk.here (Keeper.depotBy .sound)
      (depotSession disk.here (some output) disk [])) = true := by decide +kernel
  have hrun : succeeds (moved.run disk.here (Keeper.depotBy .sound)
        (depotSession disk.here (some output) disk [(.sound, first)])) = true ∧
      s.registry.get "/docs/x.md" = ["VueCode3e8846eaI0"] ∧
      s.kept.store.artifacts = ⟨[("VueCode3e8846eaI0",
        ⟨"VueCode3e8846eaI0", "/docs/VueCode3e8846eaI0.svelte", "<b/>"⟩)]⟩ := by decide +kernel
  obtain ⟨hok, hregistry, hstore⟩ := hrun
  -- Both passes end well, so none spares a file.
  have hnone : ∀ q bytes, ¬ Spared disk.here output disk visits q bytes := by
    intro q bytes
    rw [show visits = [] ++ [(.sound, first)] ++ [(.sound, moved)] from rfl, spared_concat,
      spared_concat, not_or, not_or]
    exact ⟨⟨not_spared_nil, Visit.not_spares hfirst⟩, Visit.not_spares hok⟩
  have hfiles : ∀ q bytes, ["out"] <+: q → s.kept.disk.bytes? q = some bytes → ∃ name a,
      s.kept.store.get? name = some a ∧ Store.target disk.here output a = .ok q :=
    fun q bytes hq hbytes => (hsources q bytes hq hbytes).resolve_right (hnone q bytes)
  obtain ⟨a, q, -, hget, hq, hbytes⟩ : ∃ a q, _ ∧ s.kept.store.get? "VueCode3e8846eaI0" = some a ∧
      Store.target disk.here output a = .ok q ∧ (_ → s.kept.disk.bytes? q = _) :=
    hmirror.2.2 [(.sound, first)] .sound moved [] rfl (by simp) (eq_ok_of_succeeds hok)
      "VueCode3e8846eaI0" (hregistry.symm ▸ List.mem_cons_self)
  have htarget : Store.target disk.here output
      ⟨"VueCode3e8846eaI0", "/docs/VueCode3e8846eaI0.svelte", "<b/>"⟩ =
        .ok ["out", "docs", "VueCode3e8846eaI0.svelte"] := rfl
  clear_value s
  simp only [Store.get?, Keyed.get?, hstore, List.lookup_cons, List.lookup_nil, beq_self_eq_true,
    Option.some_inj] at hget hfiles
  subst hget
  rw [htarget] at hq
  cases hq
  refine ⟨hbytes fun hbase => ?_, fun q bytes hq hq' => ?_⟩
  · cases hbase
  · obtain ⟨name, a, hget, ha⟩ := hfiles q bytes hq hq'
    split at hget
    · cases hget
      rw [htarget] at ha
      cases ha
      rfl
    · cases hget

/-- Two pages, the roots of which are the places of their own components, share one file: the pass
over the second page that finds no demo deletes it, and the first page is left without. -/
theorem output_directory_shared :
    let output : Path := { segments := ["out"] }
    let first := Visit.plain "/docs/x.md" "/docs/VueCode3e8846eaI0.vue" ".vue"
      [.code "vue" none "<a/>"]
    let second := Visit.plain "/docs/y.md" "/docs/VueCodebcdeec84I0.vue" ".vue"
      [.code "vue" none "<a/>"]
    let emptied := Visit.plain "/docs/y.md" "/docs/VueCodebcdeec84I0.vue" ".vue" []
    let visits := [(Disk.Device.sound, first), (.sound, second), (.sound, emptied)]
    let disk : Disk := {}
    let s := depotSession disk.here (some output) disk visits
    Digest.mark "/docs/x.md" ≠ Digest.mark "/docs/y.md" ∧ (∀ dv ∈ visits, dv.2.Regular) ∧
      (∃ t, first.run disk.here (Keeper.depotBy .sound)
        (depotSession disk.here (some output) disk []) = .ok () t) ∧
      "VueCode3e8846eaI0" ∈ s.registry.get "/docs/x.md" ∧
      (∃ a, s.kept.store.get? "VueCode3e8846eaI0" = some a ∧
        Store.target disk.here output a = .ok ["out"]) ∧
      s.kept.disk.bytes? ["out"] = none := by
  intro output first second emptied visits disk s
  have hrun : Digest.mark "/docs/x.md" ≠ Digest.mark "/docs/y.md" ∧
      succeeds (first.run disk.here (Keeper.depotBy .sound)
        (depotSession disk.here (some output) disk [])) = true ∧
      s.registry.get "/docs/x.md" = ["VueCode3e8846eaI0"] ∧
      s.kept.store.get? "VueCode3e8846eaI0" = some ⟨"VueCode3e8846eaI0", "/.", "<a/>"⟩ ∧
      s.kept.disk.bytes? ["out"] = none := by decide +kernel
  obtain ⟨hmark, hok, hget, hstore, hbytes⟩ := hrun
  refine ⟨hmark, fun dv hdv => ?_, eq_ok_of_succeeds hok, ?_, ⟨_, hstore, rfl⟩, hbytes⟩
  · simp only [visits, List.mem_cons, List.not_mem_nil, or_false] at hdv
    rcases hdv with rfl | rfl | rfl <;> exact Visit.regular_plain (by decide +kernel)
  · rw [hget]
    exact List.mem_cons_self

end DemoPages
