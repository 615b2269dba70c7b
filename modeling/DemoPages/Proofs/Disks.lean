import DemoPages.Disk
import DemoPages.Proofs.Effects

/-!
# What the operations of a disk leave alone

Directories, once there, stay, and an operation changes no file but the one that it is about. That
is `Disk.Frame`, a relation between the disk before and after that composes: `frame_writeText` and
its like hold however the operation ends, so they hold of any sequence of operations that stops at
the first fault.

A device is `Framed` if its operations are framed so, and `Orderly` if those that end well also did
what they are for. An orderly device may fail at any of them: to make a directory, to write a file,
which it may leave half written, or to delete one, which it may leave as it is.
-/

namespace DemoPages

namespace Disk

open Effect

variable {d d' d'' : Disk} {p q : Place}

/-! ### Entries -/

@[simp] theorem look?_nil (d : Disk) : d.look? [] = some .directory := if_pos rfl

theorem look?_set_self (d : Disk) (h : p ≠ []) (e : Entry) : (d.set p e).look? p = some e := by
  simp [look?, set, h]

theorem look?_set_of_ne (d : Disk) (h : q ≠ p) (e : Entry) :
    (d.set p e).look? q = d.look? q := by
  simp [look?, set, Keyed.get?_put_of_ne _ _ h]

theorem look?_clear_self (d : Disk) (h : p ≠ []) : (d.clear p).look? p = none := by
  simp [look?, clear, h]

theorem look?_clear_of_ne (d : Disk) (h : q ≠ p) : (d.clear p).look? q = d.look? q := by
  simp [look?, clear, Keyed.get?_erase_of_ne _ h]

theorem bytes?_eq_some {bytes : List UInt8} :
    d.bytes? p = some bytes ↔ d.look? p = some (.file bytes) := by
  unfold bytes?
  cases d.look? p with
  | none => simp
  | some e => cases e <;> simp

theorem bytes?_congr (h : d'.look? p = d.look? p) : d'.bytes? p = d.bytes? p := by
  rw [bytes?, bytes?, h]

/-! ### Following a path -/

/-- Can the place be found, that is, do only directories lead to it? -/
def Found (d : Disk) (p : Place) : Prop := d.locate (Place.toPath p) = .ok p

/-- Where directories stay, paths lead where they led. -/
theorem walk_mono (h : ∀ p, d.look? p = some .directory → d'.look? p = some .directory)
    {base : Place} {segments : List String} (hwalk : d.walk base segments = .ok q) :
    d'.walk base segments = .ok q := by
  induction segments generalizing base with
  | nil => exact hwalk
  | cons s rest ih =>
    rw [walk] at hwalk ⊢
    split at hwalk
    · cases hwalk
    · cases hwalk
    · rename_i hdir
      simp only [h _ hdir]
      exact ih hwalk

theorem Found.mono (h : ∀ p, d.look? p = some .directory → d'.look? p = some .directory)
    (hfound : d.Found p) : d'.Found p := by
  unfold Found locate at hfound ⊢
  split at hfound
  · cases hfound
  · rename_i hnull
    rw [if_neg hnull]
    exact walk_mono h hfound

theorem walk_of_not_mem {base : Place} {segments : List String} (h : ".." ∉ segments)
    (hwalk : d.walk base segments = .ok q) : q = base ++ segments := by
  induction segments generalizing base with
  | nil =>
    cases hwalk
    exact (List.append_nil _).symm
  | cons s rest ih =>
    rw [List.mem_cons, not_or] at h
    rw [walk] at hwalk
    split at hwalk
    · cases hwalk
    · cases hwalk
    · rw [if_neg (Ne.symm h.1)] at hwalk
      rw [ih h.2 hwalk, List.append_assoc]
      rfl

/-- A path without double dots leads to its own place, if it leads anywhere. -/
theorem found_of_locate (h : ".." ∉ p) (hlocate : d.locate (Place.toPath p) = .ok q) :
    q = p ∧ d.Found p := by
  have hq : q = p := by
    unfold locate at hlocate
    split at hlocate
    · cases hlocate
    · exact walk_of_not_mem h hlocate
  subst hq
  exact ⟨rfl, hlocate⟩

/-! ### Frames -/

/-- How a disk may change while files come and go at the places `touched`: the current directory
and all directories stay, the other files stay as they are, and a file that came can be found. -/
structure Frame (touched : Place → Prop) (d d' : Disk) : Prop where
  here : d'.here = d.here
  directories : ∀ p, d.look? p = some .directory → d'.look? p = some .directory
  others : ∀ p, ¬ touched p → d'.bytes? p = d.bytes? p
  came : ∀ p bytes, d'.bytes? p = some bytes → d.bytes? p = some bytes ∨ touched p ∧ d'.Found p

namespace Frame

variable {touched touched' : Place → Prop}

theorem refl (d : Disk) : Frame touched d d where
  here := rfl
  directories _ h := h
  others _ _ := rfl
  came _ _ h := Or.inl h

/-- Frames compose. -/
theorem trans (h : Frame touched d d') (h' : Frame touched d' d'') : Frame touched d d'' where
  here := h'.here.trans h.here
  directories p hp := h'.directories p (h.directories p hp)
  others p hp := (h'.others p hp).trans (h.others p hp)
  came p bytes hbytes := by
    rcases h'.came p bytes hbytes with hbefore | hcame
    · rcases h.came p bytes hbefore with hfirst | ⟨htouched, hfound⟩
      · exact Or.inl hfirst
      · exact Or.inr ⟨htouched, hfound.mono h'.directories⟩
    · exact Or.inr hcame

theorem mono (h : Frame touched d d') (hsub : ∀ p, touched p → touched' p) :
    Frame touched' d d' where
  here := h.here
  directories := h.directories
  others p hp := h.others p fun ht => hp (hsub p ht)
  came p bytes hbytes := (h.came p bytes hbytes).imp_right fun hc => ⟨hsub p hc.1, hc.2⟩

end Frame

/-! ### Making directories -/

theorem frame_makeDirectory {touched : Place → Prop} (p : Path) (d : Disk) :
    Frame touched d (final (makeDirectory p d)) := by
  unfold makeDirectory
  split
  · exact Frame.refl d
  · rename_i place _
    split
    · exact Frame.refl d
    · rename_i hnew
      rw [not_or, Bool.not_eq_true, Option.isSome_eq_false_iff, Option.isNone_iff_eq_none] at hnew
      have hplace : place ≠ [] := by
        rintro rfl
        cases hnew.2
      -- Nothing was at the place, so no file is lost there.
      have hbytes : ∀ q, (d.set place .directory).bytes? q = d.bytes? q := by
        intro q
        by_cases hq : q = place
        · subst hq
          rw [bytes?, bytes?, look?_set_self d hplace, hnew.2]
        · exact bytes?_congr (look?_set_of_ne d hq _)
      refine ⟨rfl, fun q hq => ?_, fun q _ => hbytes q, fun q bytes hq => Or.inl ?_⟩
      · by_cases hqp : q = place
        · subst hqp
          exact look?_set_self d hplace _
        · exact (look?_set_of_ne d hqp _).trans hq
      · exact (hbytes q).symm.trans hq

theorem final_ensureDirectory (p : Path) (d : Disk) :
    final (ensureDirectory p d) = final (makeDirectory p d) := by
  unfold ensureDirectory
  cases makeDirectory p d with
  | ok _ u => rfl
  | error f u =>
    simp only
    split <;> rfl

theorem frame_ensureDirectory {touched : Place → Prop} (p : Path) (d : Disk) :
    Frame touched d (final (ensureDirectory p d)) := by
  rw [final_ensureDirectory]
  exact frame_makeDirectory p d

theorem frame_ensureSegments {touched : Place → Prop} (p : Path) (n : Nat) (d : Disk) :
    Frame touched d (final (ensureSegments p n d)) := by
  induction n generalizing d with
  | zero => exact frame_ensureDirectory _ d
  | succ n ih =>
    have hfirst : Frame touched d (final (ensureDirectory _ d)) :=
      frame_ensureDirectory { p with segments := p.segments.take (n + 1) } d
    simp only [ensureSegments]
    split
    · rename_i f u h
      rw [h, final_error] at hfirst
      split
      · exact hfirst.trans
          (bind_keeps (R := Frame touched) Frame.trans ih (fun _ => frame_ensureDirectory _) u)
      · exact hfirst
    · exact hfirst

/-- Making directories touches no file. -/
theorem frame_ensureDirectories {touched : Place → Prop} (p : Path) (d : Disk) :
    Frame touched d (final (ensureDirectories p d)) :=
  frame_ensureSegments p p.segments.length d

/-! ### Files come and go -/

theorem writeText_ok {text : String} (hdots : ".." ∉ p)
    (h : writeText (Place.toPath p) text d = .ok () d') :
    d.Found p ∧ p ≠ [] ∧ d.look? p ≠ some .directory ∧
      d' = d.set p (.file (Text.Percent.utf8 text.toList)) := by
  unfold writeText writeBytes at h
  split at h
  · cases h
  · rename_i place hlocate
    obtain ⟨rfl, hfound⟩ := found_of_locate hdots hlocate
    split at h
    · cases h
    · rename_i hentry
      cases h
      refine ⟨hfound, ?_, hentry, rfl⟩
      rintro rfl
      exact hentry (look?_nil d)

theorem writeText_error {text : String} {path : Path} {f : Fault}
    (h : writeText path text d = .error f d') : d' = d := by
  unfold writeText writeBytes at h
  split at h
  · cases h
    rfl
  · split at h <;> cases h
    rfl

/-- A text that is written is there. -/
theorem bytes?_writeText {text : String} (hdots : ".." ∉ p)
    (h : writeText (Place.toPath p) text d = .ok () d') :
    d'.bytes? p = some (Text.Percent.utf8 text.toList) := by
  obtain ⟨-, hne, -, rfl⟩ := writeText_ok hdots h
  exact bytes?_eq_some.2 (look?_set_self d hne _)

theorem frame_writeText (hdots : ".." ∉ p) (text : String) (d : Disk) :
    Frame (· = p) d (final (writeText (Place.toPath p) text d)) := by
  cases h : writeText (Place.toPath p) text d with
  | error f u =>
    rw [final_error, writeText_error h]
    exact Frame.refl d
  | ok _ u =>
    obtain ⟨hfound, -, hentry, rfl⟩ := writeText_ok hdots h
    have hdirectories : ∀ q, d.look? q = some .directory →
        (d.set p (.file (Text.Percent.utf8 text.toList))).look? q = some .directory := by
      intro q hq
      have hne : q ≠ p := by
        rintro rfl
        exact hentry hq
      exact (look?_set_of_ne d hne _).trans hq
    refine ⟨rfl, hdirectories, fun q hq => bytes?_congr (look?_set_of_ne d hq _), ?_⟩
    intro q bytes hbytes
    by_cases hq : q = p
    · subst hq
      exact Or.inr ⟨rfl, hfound.mono hdirectories⟩
    · rw [final_ok, bytes?_congr (look?_set_of_ne d hq _)] at hbytes
      exact Or.inl hbytes

/-- Deleting brings no file about. -/
theorem bytes?_of_deleteFile {path : Path} {bytes : List UInt8}
    (h : (final (deleteFile path d)).bytes? q = some bytes) : d.bytes? q = some bytes := by
  unfold deleteFile at h
  split at h
  · exact h
  · exact h
  · rename_i place _
    split at h
    · exact h
    · exact h
    · rename_i hentry
      have hplace : place ≠ [] := by
        rintro rfl
        cases hentry
      by_cases hq : q = place
      · subst hq
        rw [final_ok, bytes?, look?_clear_self d hplace] at h
        cases h
      · rwa [final_ok, bytes?_congr (look?_clear_of_ne d hq)] at h

theorem frame_deleteFile (hdots : ".." ∉ p) (d : Disk) :
    Frame (· = p) d (final (deleteFile (Place.toPath p) d)) := by
  have hcame : ∀ q bytes, (final (deleteFile (Place.toPath p) d)).bytes? q = some bytes →
      d.bytes? q = some bytes := fun q bytes => bytes?_of_deleteFile
  revert hcame
  unfold deleteFile
  split
  · exact fun _ => Frame.refl d
  · exact fun _ => Frame.refl d
  · rename_i place hlocate
    obtain ⟨rfl, -⟩ := found_of_locate hdots hlocate
    split
    · exact fun _ => Frame.refl d
    · exact fun _ => Frame.refl d
    · rename_i hentry
      intro hcame
      refine ⟨rfl, fun q hq => ?_, fun q hq => bytes?_congr (look?_clear_of_ne d hq),
        fun q bytes hbytes => Or.inl (hcame q bytes hbytes)⟩
      have hne : q ≠ place := by
        rintro rfl
        rw [hq] at hentry
        cases hentry
      exact (look?_clear_of_ne d hne).trans hq

/-- A file that can be found is gone once it is deleted. -/
theorem bytes?_deleteFile (h : ∀ bytes, d.bytes? p = some bytes → d.Found p) :
    (final (deleteFile (Place.toPath p) d)).bytes? p = none := by
  cases hbytes : d.bytes? p with
  | some bytes =>
    have hentry := bytes?_eq_some.1 hbytes
    have hne : p ≠ [] := by
      rintro rfl
      cases hentry
    have hlocate : d.locate (Place.toPath p) = .ok p := h bytes hbytes
    simp only [deleteFile, hlocate, hentry, final_ok]
    rw [bytes?, look?_clear_self d hne]
  | none =>
    rw [Option.eq_none_iff_forall_ne_some]
    intro bytes hafter
    rw [bytes?_of_deleteFile hafter] at hbytes
    cases hbytes

/-! ### Devices -/

/-- A device whose operations touch no file but the one that they are about. -/
structure Device.Framed (device : Device) : Prop where
  makes : ∀ path d, Frame (fun _ => False) d (final (device.ensureDirectories path d))
  writes : ∀ p, ".." ∉ p → ∀ text d,
    Frame (· = p) d (final (device.writeText (Place.toPath p) text d))
  deletes : ∀ p, ".." ∉ p → ∀ d, Frame (· = p) d (final (device.deleteFile (Place.toPath p) d))

/-- A device whose operations touch no file but the one that they are about, and whose writing and
deleting, if they end well, did write and delete: a file that could be found is gone. -/
structure Device.Orderly (device : Device) : Prop where
  makes : ∀ path d, Frame (fun _ => False) d (final (device.ensureDirectories path d))
  writes : ∀ p, ".." ∉ p → ∀ text d,
    Frame (· = p) d (final (device.writeText (Place.toPath p) text d))
  written : ∀ p, ".." ∉ p → ∀ text d d', device.writeText (Place.toPath p) text d = .ok () d' →
    d'.bytes? p = some (Text.Percent.utf8 text.toList)
  deletes : ∀ p, ".." ∉ p → ∀ d, Frame (· = p) d (final (device.deleteFile (Place.toPath p) d))
  deleted : ∀ p d d', (∀ bytes, d.bytes? p = some bytes → d.Found p) →
    device.deleteFile (Place.toPath p) d = .ok () d' → d'.bytes? p = none

theorem Device.Orderly.framed {device : Device} (orderly : device.Orderly) : device.Framed :=
  ⟨orderly.makes, orderly.writes, orderly.deletes⟩

/-- A disk that is in order has an orderly device. -/
theorem Device.orderly_sound : Device.sound.Orderly where
  makes path d := frame_ensureDirectories path d
  writes _ hdots text d := frame_writeText hdots text d
  written _ hdots _ _ _ h := bytes?_writeText hdots h
  deletes _ hdots d := frame_deleteFile hdots d
  deleted p d d' h hdelete := by
    have hgone := bytes?_deleteFile h
    rwa [show Disk.deleteFile (Place.toPath p) d = .ok () d' from hdelete] at hgone

end Disk

end DemoPages
