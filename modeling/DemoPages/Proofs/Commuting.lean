import DemoPages.Proofs.Leavings
import DemoPages.Proofs.Outputs

/-!
# Passes over different pages commute

Two passes over pages with different digits come to the same in both orders: the same entries, the
same components, the same pages, and the same files (`passes_commute`). For neither meets what the
other one touches. The names of their components differ in the digits, and so do the places of these
components, unless they lie in place of the output directory itself.

The state in which the two passes begin is one that a session comes to. What is needed of it is that
it is `WellKept`; pages of the session may well have digits in common.
-/

namespace DemoPages

open Effect

/-- What some passes of regular visits share: names belong to their pages, components were made by
such a visit, and what lies in the output directory can be found. -/
structure WellKept (here : Place) (output : Option Path) (s : Shared Depot) : Prop where
  directory : s.kept.store.output = output
  start : s.kept.disk.here = here
  named : ∀ file, ∀ name ∈ s.registry.get file, Belongs file name
  made : ∀ name a, s.kept.store.get? name = some a →
    a.name = name ∧ ∃ v : Visit, v.Regular ∧ a ∈ v.components here
  found : ∀ o, output = some o → ∀ q bytes, Place.resolve here o <+: q →
    s.kept.disk.bytes? q = some bytes → s.kept.disk.Found q

namespace WellKept

variable {here : Place} {output : Option Path} {s : Shared Depot} {device : Disk.Device}
  {v w : Visit} {q : Place}

theorem empty {disk : Disk}
    (empty : ∀ o, output = some o → ∀ q, Place.resolve disk.here o <+: q → disk.bytes? q = none) :
    WellKept disk.here output { kept := { store := { output }, disk } } where
  directory := rfl
  start := rfl
  named _ _ hname := by cases hname
  made _ _ ha := by cases ha
  found o ho q bytes hq hbytes := by
    rw [empty o ho q hq] at hbytes
    cases hbytes

/-- A pass keeps what is shared well kept, however it ends. -/
theorem after (h : WellKept here output s) (framed : device.Framed) (regular : v.Regular) :
    WellKept here output (v.after here (Keeper.depotBy device) s) where
  directory := (v.output_after here device s).trans h.directory
  start := (v.frame_after framed h.start).here.trans h.start
  named file name hname := by
    rcases v.mem_get_after here device s hname with hbefore | ⟨rfl, hnew⟩
    · exact h.named file name hbefore
    · obtain ⟨a, ha, rfl⟩ := List.mem_map.1 hnew
      exact (Visit.made_of_mem_components ha).belongs
  made name a ha := by
    rcases v.get?_after_cases here device s ha with hbefore | ⟨hmem, rfl⟩
    · exact h.made name a hbefore
    · exact ⟨rfl, v, regular, hmem⟩
  found o ho q bytes hq hbytes := by
    have hframe := v.frame_after framed h.start
    rcases hframe.came q bytes hbytes with hbefore | ⟨-, hfound⟩
    · exact (h.found o ho q bytes hq hbefore).mono hframe.directories
    · exact hfound

/-- A component that has a place has it at or below the output directory. -/
theorem below (h : WellKept here output s) {a : Artifact}
    (ha : s.kept.store.place? here a = some q) :
    ∃ o, output = some o ∧ Place.resolve here o <+: q ∧ Store.target here o a = .ok q := by
  obtain ⟨o, ho, htarget⟩ := Store.place?_eq_some.1 ha
  rw [h.directory] at ho
  exact ⟨o, ho, (Store.target_ok htarget).2, htarget⟩

/-- What lies where the components of a page lie can be found. -/
theorem found_of_liesAt (h : WellKept here output s) {names : List String}
    (hq : s.kept.LiesAt names q) {bytes : List UInt8}
    (hbytes : s.kept.disk.bytes? q = some bytes) : s.kept.disk.Found q := by
  obtain ⟨name, -, hplace⟩ := hq
  obtain ⟨a, -, ha⟩ := Option.bind_eq_some_iff.1 hplace
  rw [h.start] at ha
  obtain ⟨o, ho, hstart, -⟩ := h.below ha
  exact h.found o ho q bytes hstart hbytes

/-- Where a pass leaves anything, a component of its page lies, made by a regular visit. -/
theorem exists_of_leaves (h : WellKept here output s) (regular : v.Regular)
    (hleaves : v.leaves here s q ≠ none) :
    ∃ a, Belongs v.file a.name ∧ s.kept.store.place? here a = some q ∧
      ∃ u : Visit, u.Regular ∧ a ∈ u.components here := by
  rcases Visit.exists_of_leaves hleaves with ⟨a, ha, hplace⟩ | ⟨name, hname, hplace⟩
  · exact ⟨a, (Visit.made_of_mem_components ha).belongs, hplace, v, regular, ha⟩
  · obtain ⟨a, hget, ha⟩ := Option.bind_eq_some_iff.1 hplace
    obtain ⟨rfl, hmade⟩ := h.made name a hget
    rw [h.start] at ha
    exact ⟨a, h.named v.file a.name hname, ha, hmade⟩

/-- **Two pages with different digits meet nowhere but in place of the output directory.** -/
theorem meet (h : WellKept here output s) (hv : v.Regular) (hw : w.Regular)
    (marks : Digest.mark v.file ≠ Digest.mark w.file) (hq : v.leaves here s q ≠ none)
    (hq' : w.leaves here s q ≠ none) : output.map (Place.resolve here) = some q := by
  obtain ⟨a, hbelongs, hplace, u, hu, ha⟩ := h.exists_of_leaves hv hq
  obtain ⟨b, hbelongs', hplace', u', hu', hb⟩ := h.exists_of_leaves hw hq'
  obtain ⟨o, rfl, -, htarget⟩ := h.below hplace
  obtain ⟨_, heq, -, htarget'⟩ := h.below hplace'
  cases heq
  rcases hu.target_cases ha htarget with hbase | ⟨dir, x, hx, rfl⟩
  · rw [hbase]
    rfl
  rcases hu'.target_cases hb htarget' with hbase | ⟨dir', x', hx', heq⟩
  · rw [hbase]
    rfl
  · -- Below the output directory, the names would be the same, and with them the digits.
    have hlast := (List.append_inj' heq rfl).2
    have hname := name_eq_of_append_extension_eq hx hx' (List.cons.inj hlast).1
    rw [hname] at hbelongs
    exact absurd (hbelongs.mark_eq hbelongs') marks

/-! ### What a pass over another page leaves alone -/

/-- A pass that ends well leaves alone the components whose names do not belong to its page. -/
theorem get?_after_of_foreign (h : WellKept here output s) {t : Pass.State Depot}
    (hrun : v.run here (Keeper.depotBy device) s = .ok () t) {name : String}
    (hname : ¬ Belongs v.file name) :
    (v.after here (Keeper.depotBy device) s).kept.store.get? name = s.kept.store.get? name := by
  have hnone : ((v.components here).reverse.find? fun a => a.name = name) = none := by
    refine List.find?_eq_none.2 fun a ha heq => hname ?_
    have hbelongs := (Visit.made_of_mem_components (List.mem_reverse.1 ha)).belongs
    rwa [of_decide_eq_true heq] at hbelongs
  rw [Visit.get?_after hrun, hnone, Option.none_or, if_neg fun hmem => hname (h.named _ _ hmem)]

/-- A pass over another page does not change what a pass leaves. -/
theorem leaves_after (h : WellKept here output s) (framed : device.Framed)
    (marks : Digest.mark v.file ≠ Digest.mark w.file) {t : Pass.State Depot}
    (hrun : v.run here (Keeper.depotBy device) s = .ok () t) (q : Place) :
    w.leaves here (v.after here (Keeper.depotBy device) s) q = w.leaves here s q := by
  have hne : w.file ≠ v.file := fun heq => marks (congrArg Digest.mark heq.symm)
  refine Visit.leaves_congr (v.frame_after framed h.start).here (v.output_after here device s)
    (v.get_after_of_ne here _ s hne) fun name hname =>
      h.get?_after_of_foreign hrun fun hbelongs => ?_
  exact marks (hbelongs.mark_eq (h.named w.file name hname))

/-- What lies at a place after two passes over different pages. -/
theorem bytes?_after_after {device' : Disk.Device} (h : WellKept here output s) (hv : v.Regular)
    (orderly : device.Orderly) (orderly' : device'.Orderly)
    (marks : Digest.mark v.file ≠ Digest.mark w.file) {t t' : Pass.State Depot}
    (hrun : v.run here (Keeper.depotBy device) s = .ok () t)
    (hrun' : w.run here (Keeper.depotBy device') (v.after here (Keeper.depotBy device) s) =
      .ok () t') (q : Place) :
    (w.after here (Keeper.depotBy device')
        (v.after here (Keeper.depotBy device) s)).kept.disk.bytes? q =
      (w.leaves here s q).getD ((v.leaves here s q).getD (s.kept.disk.bytes? q)) := by
  have h' := h.after orderly.framed hv
  rw [Visit.bytes?_after orderly' h'.start (fun hq _ => h'.found_of_liesAt hq) hrun',
    h.leaves_after orderly.framed marks hrun,
    Visit.bytes?_after orderly h.start (fun hq _ => h.found_of_liesAt hq) hrun]

/-- The component of a name after two passes over different pages: the pass over the page that the
name belongs to says which it is. -/
theorem get?_after_after {device' : Disk.Device} (h : WellKept here output s) (hv : v.Regular)
    (framed : device.Framed) (marks : Digest.mark v.file ≠ Digest.mark w.file)
    {t t' : Pass.State Depot} (hrun : v.run here (Keeper.depotBy device) s = .ok () t)
    (hrun' : w.run here (Keeper.depotBy device') (v.after here (Keeper.depotBy device) s) =
      .ok () t') (name : String) :
    (Belongs v.file name → (w.after here (Keeper.depotBy device')
        (v.after here (Keeper.depotBy device) s)).kept.store.get? name =
      ((v.components here).reverse.find? fun a => a.name = name).or
        (if name ∈ s.registry.get v.file then none else s.kept.store.get? name)) ∧
    (¬ Belongs v.file name → (w.after here (Keeper.depotBy device')
        (v.after here (Keeper.depotBy device) s)).kept.store.get? name =
      ((w.components here).reverse.find? fun a => a.name = name).or
        (if name ∈ s.registry.get w.file then none else s.kept.store.get? name)) := by
  have h' := h.after framed hv
  have hne : w.file ≠ v.file := fun heq => marks (congrArg Digest.mark heq.symm)
  refine ⟨fun hname => ?_, fun hname => ?_⟩
  · rw [h'.get?_after_of_foreign hrun' fun hname' => marks (hname.mark_eq hname'),
      Visit.get?_after hrun]
  · rw [Visit.get?_after hrun', v.get_after_of_ne here _ s hne, h.get?_after_of_foreign hrun hname]

end WellKept

/-! ### Both orders -/

/-- Whichever of two values comes last, the outcome is the same, if one is missing or they agree. -/
theorem getD_getD_eq_iff {β : Type} (x y : Option β) (b : β) :
    x.getD (y.getD b) = y.getD (x.getD b) ↔ x = none ∨ y = none ∨ x = y := by
  cases x <;> cases y <;> simp

/-- **Passes over pages with different digits commute.** In a state that some passes by regular
visits have come to, however each of them ended, let two passes over such pages end well in both
orders. Then both orders end with the same entries, the same components, the same two pages, and the
same bytes at every place but that of the output directory itself. There, they end with the same
bytes if and only if one of the passes leaves nothing there, or both leave the same. -/
theorem passes_commute (output : Option Path) (disk : Disk) (visits : List (Disk.Device × Visit))
    (empty : ∀ o, output = some o → ∀ q, Place.resolve disk.here o <+: q → disk.bytes? q = none)
    (framed : ∀ dv ∈ visits, dv.1.Framed) (regular : ∀ dv ∈ visits, dv.2.Regular)
    {v w : Visit} (hv : v.Regular) (hw : w.Regular)
    (marks : Digest.mark v.file ≠ Digest.mark w.file)
    {d₁ d₂ d₃ d₄ : Disk.Device} (h₁ : d₁.Orderly) (h₂ : d₂.Orderly) (h₃ : d₃.Orderly)
    (h₄ : d₄.Orderly) {t₁ t₂ t₃ t₄ : Pass.State Depot} :
    let here := disk.here
    let s := depotSession here output disk visits
    let sv := v.after here (Keeper.depotBy d₁) s
    let sw := w.after here (Keeper.depotBy d₃) s
    let vw := w.after here (Keeper.depotBy d₂) sv
    let wv := v.after here (Keeper.depotBy d₄) sw
    v.run here (Keeper.depotBy d₁) s = .ok () t₁ → w.run here (Keeper.depotBy d₂) sv = .ok () t₂ →
    w.run here (Keeper.depotBy d₃) s = .ok () t₃ → v.run here (Keeper.depotBy d₄) sw = .ok () t₄ →
    (∀ file, vw.registry.names.get? file = wv.registry.names.get? file) ∧
    (∀ name, vw.kept.store.get? name = wv.kept.store.get? name) ∧
    (t₁.blocks = t₄.blocks ∧ t₂.blocks = t₃.blocks) ∧
    (∀ q, output.map (Place.resolve here) ≠ some q →
      vw.kept.disk.bytes? q = wv.kept.disk.bytes? q) ∧
    ∀ q, output.map (Place.resolve here) = some q →
      (vw.kept.disk.bytes? q = wv.kept.disk.bytes? q ↔
        v.leaves here s q = none ∨ w.leaves here s q = none ∨
          v.leaves here s q = w.leaves here s q) := by
  intro here s sv sw vw wv hrun₁ hrun₂ hrun₃ hrun₄
  have h : WellKept here output s :=
    depotSession_keeps (WellKept.empty empty) fun dv hdv _ hs => hs.after (framed dv hdv)
      (regular dv hdv)
  have hvw : vw.kept.disk.bytes? = fun q =>
      (w.leaves here s q).getD ((v.leaves here s q).getD (s.kept.disk.bytes? q)) :=
    funext (h.bytes?_after_after hv h₁ h₂ marks hrun₁ hrun₂)
  have hwv : wv.kept.disk.bytes? = fun q =>
      (v.leaves here s q).getD ((w.leaves here s q).getD (s.kept.disk.bytes? q)) :=
    funext (h.bytes?_after_after hw h₃ h₄ marks.symm hrun₃ hrun₄)
  have hbytes : ∀ q, vw.kept.disk.bytes? q = wv.kept.disk.bytes? q ↔
      v.leaves here s q = none ∨ w.leaves here s q = none ∨
        v.leaves here s q = w.leaves here s q := by
    intro q
    rw [hvw, hwv, eq_comm, getD_getD_eq_iff]
  refine ⟨fun file => ?_, fun name => ?_, ⟨?_, ?_⟩, fun q hq => ?_, fun q _ => hbytes q⟩
  · have hne : v.file ≠ w.file := fun heq => marks (congrArg Digest.mark heq)
    rw [Visit.registry_after_of_ok here _ w hrun₂, Visit.registry_after_of_ok here _ v hrun₁,
      Visit.registry_after_of_ok here _ v hrun₄, Visit.registry_after_of_ok here _ w hrun₃]
    exact Keyed.get?_put_put_comm _ hne _ _ file
  · obtain ⟨hown, hother⟩ := h.get?_after_after hv h₁.framed marks hrun₁ hrun₂ name
    obtain ⟨hown', hother'⟩ := h.get?_after_after hw h₃.framed marks.symm hrun₃ hrun₄ name
    by_cases hname : Belongs v.file name
    · have hname' : ¬ Belongs w.file name := fun hname' => marks (hname.mark_eq hname')
      exact (hown hname).trans (hother' hname').symm
    by_cases hname' : Belongs w.file name
    · exact (hother hname).trans (hown' hname').symm
    · -- A name of neither page is left alone by all four passes.
      have hsv := h.after h₁.framed hv
      have hsw := h.after h₃.framed hw
      rw [hsv.get?_after_of_foreign hrun₂ hname', h.get?_after_of_foreign hrun₁ hname,
        hsw.get?_after_of_foreign hrun₄ hname, h.get?_after_of_foreign hrun₃ hname']
  · exact v.blocks_eq_of_ok here _ hrun₁ hrun₄
  · exact w.blocks_eq_of_ok here _ hrun₂ hrun₃
  · refine (hbytes q).2 ?_
    by_contra hboth
    simp only [not_or] at hboth
    exact hq (h.meet hv hw marks hboth.1 hboth.2.1)

/-- Two pages in one directory, one of which had a component before: both orders come to the
same. -/
theorem passes_commute_docs :
    let output : Path := { segments := ["out"] }
    let before := Visit.plain "/docs/x.md" "/docs" ".vue" [.code "vue" none "<old/>"]
    let v := Visit.plain "/docs/x.md" "/docs" ".svelte" [.code "vue" none "<a/>"]
    let w := Visit.plain "/docs/y.md" "/docs" ".vue" [.code "vue" none "<b/>"]
    let disk : Disk := {}
    let s := depotSession disk.here (some output) disk [(.sound, before)]
    let sv := v.after disk.here (Keeper.depotBy .sound) s
    let sw := w.after disk.here (Keeper.depotBy .sound) s
    let vw := w.after disk.here (Keeper.depotBy .sound) sv
    let wv := v.after disk.here (Keeper.depotBy .sound) sw
    (∃ t₁ t₂ t₃ t₄, v.run disk.here (Keeper.depotBy .sound) s = .ok () t₁ ∧
      w.run disk.here (Keeper.depotBy .sound) sv = .ok () t₂ ∧
      w.run disk.here (Keeper.depotBy .sound) s = .ok () t₃ ∧
      v.run disk.here (Keeper.depotBy .sound) sw = .ok () t₄ ∧
      t₁.blocks = t₄.blocks ∧ t₂.blocks = t₃.blocks) ∧
    (∀ name, vw.kept.store.get? name = wv.kept.store.get? name) ∧
    ∀ q, vw.kept.disk.bytes? q = wv.kept.disk.bytes? q := by
  intro output before v w disk s sv sw vw wv
  have empty : ∀ o, some output = some o → ∀ q, Place.resolve disk.here o <+: q →
      disk.bytes? q = none := by
    intro _ _ q _
    cases q <;> rfl
  have framed : ∀ dv ∈ [(Disk.Device.sound, before)], dv.1.Framed := by
    intro dv hdv
    rw [List.mem_singleton.1 hdv]
    exact Disk.Device.orderly_sound.framed
  have regular : ∀ dv ∈ [(Disk.Device.sound, before)], dv.2.Regular := by
    intro dv hdv
    rw [List.mem_singleton.1 hdv]
    exact Visit.regular_plain (by decide +kernel)
  have hv : v.Regular := Visit.regular_plain (by decide +kernel)
  have hw : w.Regular := Visit.regular_plain (by decide +kernel)
  have marks : Digest.mark v.file ≠ Digest.mark w.file := by decide +kernel
  have hruns : succeeds (v.run disk.here (Keeper.depotBy .sound) s) = true ∧
      succeeds (w.run disk.here (Keeper.depotBy .sound) sv) = true ∧
      succeeds (w.run disk.here (Keeper.depotBy .sound) s) = true ∧
      succeeds (v.run disk.here (Keeper.depotBy .sound) sw) = true ∧
      v.leaves disk.here s ["out"] = none := by decide +kernel
  obtain ⟨h₁, h₂, h₃, h₄, hleaves⟩ := hruns
  obtain ⟨t₁, hrun₁⟩ := eq_ok_of_succeeds h₁
  obtain ⟨t₂, hrun₂⟩ := eq_ok_of_succeeds h₂
  obtain ⟨t₃, hrun₃⟩ := eq_ok_of_succeeds h₃
  obtain ⟨t₄, hrun₄⟩ := eq_ok_of_succeeds h₄
  have orderly := Disk.Device.orderly_sound
  have hcommute := passes_commute (some output) disk [(.sound, before)] empty framed regular hv hw
    marks orderly orderly orderly orderly hrun₁ hrun₂ hrun₃ hrun₄
  obtain ⟨-, hget, hblocks, hothers, hbase⟩ := hcommute
  refine ⟨⟨t₁, t₂, t₃, t₄, hrun₁, hrun₂, hrun₃, hrun₄, hblocks⟩, ?_, fun q => ?_⟩
  · simp only [vw, wv, sv, sw, s]
    exact hget
  by_cases hq : (some output).map (Place.resolve disk.here) = some q
  · obtain rfl : ["out"] = q := Option.some.inj hq
    simp only [vw, wv, sv, sw, s] at hleaves ⊢
    exact (hbase ["out"] hq).2 (Or.inl hleaves)
  · simp only [vw, wv, sv, sw, s]
    exact hothers q hq

/-- Two pages, the roots of which are the places of their own components, share one file: it holds
the code of the page that comes last. -/
theorem output_directory_contested :
    let output : Path := { segments := ["out"] }
    let v := Visit.plain "/docs/x.md" "/docs/VueCode3e8846eaI0.vue" ".vue" [.code "vue" none "<a/>"]
    let w := Visit.plain "/docs/y.md" "/docs/VueCodebcdeec84I0.vue" ".vue" [.code "vue" none "<b/>"]
    let disk : Disk := {}
    let s := depotSession disk.here (some output) disk []
    let sv := v.after disk.here (Keeper.depotBy .sound) s
    let sw := w.after disk.here (Keeper.depotBy .sound) s
    let vw := w.after disk.here (Keeper.depotBy .sound) sv
    let wv := v.after disk.here (Keeper.depotBy .sound) sw
    v.Regular ∧ w.Regular ∧ Digest.mark v.file ≠ Digest.mark w.file ∧
      (∃ t, v.run disk.here (Keeper.depotBy .sound) s = .ok () t) ∧
      (∃ t, w.run disk.here (Keeper.depotBy .sound) sv = .ok () t) ∧
      (∃ t, w.run disk.here (Keeper.depotBy .sound) s = .ok () t) ∧
      (∃ t, v.run disk.here (Keeper.depotBy .sound) sw = .ok () t) ∧
      vw.kept.disk.bytes? ["out"] = some (Text.Percent.utf8 "<b/>".toList) ∧
      wv.kept.disk.bytes? ["out"] = some (Text.Percent.utf8 "<a/>".toList) := by
  intro output v w disk s sv sw vw wv
  have hruns : Digest.mark v.file ≠ Digest.mark w.file ∧
      succeeds (v.run disk.here (Keeper.depotBy .sound) s) = true ∧
      succeeds (w.run disk.here (Keeper.depotBy .sound) sv) = true ∧
      succeeds (w.run disk.here (Keeper.depotBy .sound) s) = true ∧
      succeeds (v.run disk.here (Keeper.depotBy .sound) sw) = true ∧
      vw.kept.disk.bytes? ["out"] = some (Text.Percent.utf8 "<b/>".toList) ∧
      wv.kept.disk.bytes? ["out"] = some (Text.Percent.utf8 "<a/>".toList) := by decide +kernel
  obtain ⟨marks, h₁, h₂, h₃, h₄, hvw, hwv⟩ := hruns
  exact ⟨Visit.regular_plain (by decide +kernel), Visit.regular_plain (by decide +kernel), marks,
    eq_ok_of_succeeds h₁, eq_ok_of_succeeds h₂, eq_ok_of_succeeds h₃, eq_ok_of_succeeds h₄,
    hvw, hwv⟩

end DemoPages
