import DemoPages.Proofs.Mirrors
import DemoPages.Proofs.Outcomes

/-!
# Files stay below the output directory

A store is told to remove names and to register components, which come with any name and any path.
Whatever it is told, and however that ends, no file changes but at places that are `Inside` its
output directory. One call is `Confined` so (`confined_call`), and calls compose.
-/

namespace DemoPages

open Effect

/-- What a call has a keeper do. -/
def Call.act {σ : Type} (k : Keeper σ) : Call → EStateM Fault σ Unit
  | .remove names => k.remove names
  | .register artifacts => k.register artifacts

namespace Depot

variable {device : Disk.Device} {d d' d'' : Depot}

/-- Does a place lie at or below the output directory, if there is one? -/
def Inside (d : Depot) (q : Place) : Prop :=
  ∃ output, d.store.output = some output ∧ Place.resolve d.disk.here output <+: q

/-- The output directory stays, and so do all files that are not inside it. -/
structure Confined (d d' : Depot) : Prop where
  output : d'.store.output = d.store.output
  disk : Disk.Frame d.Inside d.disk d'.disk

namespace Confined

theorem refl (d : Depot) : Confined d d := ⟨rfl, Disk.Frame.refl d.disk⟩

/-- Where a depot was confined, it has the same inside. -/
theorem inside_iff (h : Confined d d') {q : Place} : d'.Inside q ↔ d.Inside q := by
  unfold Inside
  rw [h.output, h.disk.here]

theorem trans (h : Confined d d') (h' : Confined d' d'') : Confined d d'' where
  output := h'.output.trans h.output
  disk := h.disk.trans (h'.disk.mono fun _ => h.inside_iff.1)

/-- A file that changed lies inside. -/
theorem inside_of_ne (h : Confined d d') {q : Place} (hq : d'.disk.bytes? q ≠ d.disk.bytes? q) :
    d.Inside q := by
  by_contra hout
  exact hq (h.disk.others q hout)

end Confined

/-- The place of a component, if its path is accepted, lies inside. -/
theorem inside_of_target {output : Path} (houtput : d.store.output = some output) {a : Artifact}
    {q : Place} (h : Store.target d.disk.here output a = .ok q) : d.Inside q :=
  ⟨output, houtput, (Store.target_ok h).2⟩

/-- Removing one component deletes no file but its own. -/
theorem confined_removeOne (framed : device.Framed) (name : String) (d : Depot) :
    Confined d (final (removeOne device name d)) := by
  refine ⟨?_, ?_⟩
  · rw [store_removeOne]
    rfl
  · unfold removeOne
    split
    · exact Disk.Frame.refl d.disk
    · split
      · exact Disk.Frame.refl d.disk
      · rename_i output houtput
        split
        · exact Disk.Frame.refl d.disk
        · rename_i q htarget
          rw [disk_onDisk]
          refine (framed.deletes q (Store.dots_not_mem_target htarget) d.disk).mono ?_
          rintro _ rfl
          exact inside_of_target houtput htarget

theorem confined_removeBy (framed : device.Framed) (names : List String) (d : Depot) :
    Confined d (final (removeBy device names d)) := by
  induction names generalizing d with
  | nil => exact Confined.refl d
  | cons name names ih =>
    exact bind_keeps (R := Confined) Confined.trans (confined_removeOne framed name) (fun _ => ih) d

/-- Registering components writes no file if the path of one is refused, and their own if not. -/
theorem confined_registerBy (framed : device.Framed) (artifacts : List Artifact) (d : Depot) :
    Confined d (final (registerBy device artifacts d)) := by
  refine ⟨?_, ?_⟩
  · rcases store_registerBy device artifacts d with hstore | hstore <;> rw [hstore]
    rfl
  · unfold registerBy
    split
    · exact Disk.Frame.refl d.disk
    · rename_i output houtput
      split
      · exact Disk.Frame.refl d.disk
      · rename_i places htargets
        refine frame_writeAll framed (fun ap hap => ?_) (d.keep artifacts)
        have htarget := (Store.targets_ok htargets).2 ap hap
        exact ⟨Store.dots_not_mem_target htarget, inside_of_target houtput htarget⟩

/-- Whatever a depot is told, it stays confined, however that ends. -/
theorem confined_call (framed : device.Framed) (call : Call) (d : Depot) :
    Confined d (final (call.act (Keeper.depotBy device) d)) := by
  cases call with
  | remove names => exact confined_removeBy framed names d
  | register artifacts => exact confined_registerBy framed artifacts d

/-- A depot after some calls, each with a device. -/
def afterCalls (calls : List (Disk.Device × Call)) (d : Depot) : Depot :=
  calls.foldl (fun d dc => final (dc.2.act (Keeper.depotBy dc.1) d)) d

theorem confined_afterCalls {calls : List (Disk.Device × Call)}
    (framed : ∀ dc ∈ calls, dc.1.Framed) (d : Depot) : Confined d (afterCalls calls d) := by
  induction calls generalizing d with
  | nil => exact Confined.refl d
  | cons dc calls ih =>
    exact (confined_call (framed dc List.mem_cons_self) dc.2 d).trans
      (ih (fun dc' h => framed dc' (List.mem_cons_of_mem _ h)) _)

/-- **No file outside the output directory is created, changed or deleted.** After any calls, a
further one changes files only at or below the place of the output directory, whatever names and
paths the components have and whether it ends well or not; so all of them together do. Without an
output directory, no file changes at all. -/
theorem changes_inside {calls : List (Disk.Device × Call)} (framed : ∀ dc ∈ calls, dc.1.Framed)
    (framed' : device.Framed) (call : Call) (d : Depot) (q : Place) :
    let before := afterCalls calls d
    let after := final (call.act (Keeper.depotBy device) before)
    after.disk.bytes? q ≠ before.disk.bytes? q ∨ after.disk.bytes? q ≠ d.disk.bytes? q →
      ∃ output, d.store.output = some output ∧ Place.resolve d.disk.here output <+: q := by
  intro before after h
  have hbefore := confined_afterCalls framed d
  have hcall := confined_call framed' call before
  rcases h with hstep | hall
  · exact hbefore.inside_iff.1 (hcall.inside_of_ne hstep)
  · exact (hbefore.trans hcall).inside_of_ne hall

/-- A path that climbs out and comes back is accepted, and one that climbs out is refused when its
component is registered anew, so that the file of the first stays. -/
theorem changes_inside_come_back :
    let d : Depot := { store := { output := some (.ofString "out") } }
    let calls := [(Disk.Device.sound, Call.register [⟨"A", "/../out/./a.vue", "<a/>"⟩])]
    let call := Call.register [⟨"A", "/../b.vue", "<b/>"⟩]
    let before := afterCalls calls d
    let after := final (call.act (Keeper.depotBy .sound) before)
    after.disk.bytes? ["out", "a.vue"] ≠ d.disk.bytes? ["out", "a.vue"] ∧
      (∀ q, after.disk.bytes? q ≠ before.disk.bytes? q ∨ after.disk.bytes? q ≠ d.disk.bytes? q →
        ["out"] <+: q) ∧
      Effect.succeeds (call.act (Keeper.depotBy .sound) before) = false := by
  intro d calls call before after
  have framed : ∀ dc ∈ calls, dc.1.Framed := by
    intro dc hdc
    obtain rfl := List.mem_singleton.1 hdc
    exact Disk.Device.orderly_sound.framed
  refine ⟨by decide +kernel, fun q hq => ?_, by decide +kernel⟩
  obtain ⟨output, houtput, hunder⟩ :=
    changes_inside framed Disk.Device.orderly_sound.framed call d q hq
  cases houtput
  exact hunder

end Depot

end DemoPages
