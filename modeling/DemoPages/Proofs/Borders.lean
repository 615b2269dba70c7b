import DemoPages.Proofs.Previews
import DemoPages.Proofs.Routes

/-!
# Paths across the border

Registering refuses the paths that lead out of the output directory, and no others. A path may climb
out on its way: what counts is where it leads when it is followed from the output directory piece by
piece (`follow`), so `prefix_follow_iff` compares the directories that it climbs out of with those
that it comes down through. All paths are looked at before anything is taken in or written; so one
that leads out, wherever it stands, leaves the store and the disk as they were
(`registerBy_refuses_iff`).
-/

namespace DemoPages

open Effect

/-! ### Following a path -/

namespace Place

/-- Where one piece of a path leads from a place: nothing and a single dot lead nowhere else, and
double dots lead to the directory above. -/
def followPiece (place : Place) (piece : String) : Place :=
  if piece = "" ∨ piece = "." then place
  else if piece = ".." then place.dropLast
  else place ++ [piece]

/-- Where the pieces of a path lead from a place, one after the other. -/
def follow (place : Place) (pieces : List String) : Place := pieces.foldl followPiece place

theorem followPiece_of_not_segment (place : Place) {piece : String}
    (h : Path.isSegment piece = false) : followPiece place piece = place := by
  rw [followPiece, if_pos]
  simpa [Path.isSegment, or_iff_not_imp_left] using h

theorem followPiece_of_segment {place : Place} (hplace : ".." ∉ place) {piece : String}
    (h : Path.isSegment piece = true) : followPiece place piece = settle (place ++ [piece]) := by
  have hne : ¬ (piece = "" ∨ piece = ".") := by
    simpa [Path.isSegment] using h
  rw [followPiece, if_neg hne]
  split
  · rename_i hdots
    rw [hdots, settle_concat_dots, settle_of_not_mem hplace]
  · rename_i hdots
    rw [settle_concat _ hdots, settle_of_not_mem hplace]

/-- Taking out first what names nothing makes no difference. -/
theorem settle_append_filter {base : Place} (hbase : ".." ∉ base) (pieces : List String) :
    settle (base ++ pieces.filter Path.isSegment) = follow base pieces := by
  induction pieces generalizing base with
  | nil =>
    rw [List.filter_nil, List.append_nil, settle_of_not_mem hbase]
    rfl
  | cons piece pieces ih =>
    rw [follow, List.foldl_cons]
    cases hpiece : Path.isSegment piece with
    | false =>
      rw [List.filter_cons_of_neg (by simp [hpiece]), followPiece_of_not_segment _ hpiece]
      exact ih hbase
    | true =>
      rw [List.filter_cons_of_pos hpiece, followPiece_of_segment hbase hpiece, List.append_cons,
        settle_append]
      exact ih (dots_not_mem_settle _)

/-- **A path leads to a place at or below the one it starts from** if it comes down through the
directories that it has climbed out of. -/
theorem prefix_follow_iff {base : Place} (hbase : ".." ∉ base) (pieces : List String) :
    base <+: follow base pieces ↔
      base.drop (base.length - (climb (pieces.filter Path.isSegment)).1) <+:
        (climb (pieces.filter Path.isSegment)).2 := by
  rw [← settle_append_filter hbase, settle_append_climb hbase]
  generalize base.length - (climb (pieces.filter Path.isSegment)).1 = n
  nth_rewrite 1 [← List.take_append_drop n base]
  exact List.prefix_append_right_inj _

end Place

/-! ### Paths that can be looked up -/

namespace Path

/-- The place of a path, unless a segment of it holds the character of number zero. -/
def resolved? (here : Place) (p : Path) : Option Place :=
  if Disk.hasNull p then none else some (Place.resolve here p)

/-- Slashes at the start of a path below a directory make no difference. -/
theorem ofString_dropWhile (s : String) :
    ofString (String.ofList (s.toList.dropWhile (· = '/'))) =
      ⟨.here, (pieces s).filter isSegment⟩ := by
  refine congrArg₂ Path.mk (anchor_dropWhile s.toList) ?_
  suffices h : ∀ l : List Char, (pieces (String.ofList (l.dropWhile (· = '/')))).filter isSegment =
      (pieces (String.ofList l)).filter isSegment by
    rw [h, String.ofList_toList]
  intro l
  induction l with
  | nil => rfl
  | cons c l ih =>
    by_cases hc : c = '/'
    · have hslash : String.ofList ('/' :: l) = "/" ++ String.ofList l := by
        rw [← String.toList_inj]
        simp
      rw [List.dropWhile_cons_of_pos (by simpa using hc), ih, hc, hslash, pieces_slash]
      rfl
    · rw [List.dropWhile_cons_of_neg (by simpa using hc)]

theorem resolved?_eq_some {here base : Place} {p : Path} :
    p.resolved? here = some base ↔ Disk.hasNull p = false ∧ Place.resolve here p = base := by
  rw [resolved?]
  cases Disk.hasNull p <;> simp

theorem resolved?_eq_none {here : Place} {p : Path} :
    p.resolved? here = none ↔ Disk.hasNull p = true := by
  rw [resolved?]
  cases Disk.hasNull p <;> simp

theorem hasNull_join (p : Path) (way : List String) :
    Disk.hasNull (p.join ⟨.here, way⟩) = (Disk.hasNull p || Disk.hasNull ⟨.here, way⟩) := by
  rw [join, if_pos rfl]
  exact List.any_append

theorem hasNull_of_not_mem {s : String} (h : '\x00' ∉ s.toList) :
    Disk.hasNull ⟨.here, (pieces s).filter isSegment⟩ = false := by
  refine List.any_eq_false.2 fun x hx hnull => h ?_
  obtain ⟨piece, hpiece, rfl⟩ := List.mem_map.1 (List.mem_filter.1 hx).1
  rw [String.toList_ofList] at hnull
  exact (Text.mem_of_mem_split hpiece (List.contains_iff_mem.1 hnull)).1

end Path

/-! ### What is refused -/

namespace Store

variable {here base : Place} {output : Path} {artifacts : List Artifact}

theorem target_of_unresolved (h : output.resolved? here = none) (a : Artifact) :
    ∃ f, target here output a = .error (.disk f) := by
  refine ⟨_, if_pos ?_⟩
  rw [Path.ofString_dropWhile, Path.hasNull_join, Path.resolved?_eq_none.1 h, Bool.true_or]

/-- A component has its place where its path leads from the output directory, unless that is outside
of it. -/
theorem target_of_resolved (h : output.resolved? here = some base) {a : Artifact}
    (clear : '\x00' ∉ a.path.toList) :
    target here output a =
      if base <+: Place.follow base (Path.pieces a.path) then
        .ok (Place.follow base (Path.pieces a.path))
      else .error (.escapes a.path output.toString) := by
  obtain ⟨houtput, rfl⟩ := Path.resolved?_eq_some.1 h
  have hwhole : Disk.hasNull
      (output.join ⟨.here, (Path.pieces a.path).filter Path.isSegment⟩) = false := by
    rw [Path.hasNull_join, houtput, Path.hasNull_of_not_mem clear, Bool.false_or]
  have hbase : ".." ∉ Place.resolve here output := Place.dots_not_mem_settle _
  simp only [target, Path.ofString_dropWhile, hwhole, Bool.false_eq_true, if_false,
    Place.settle_append_filter hbase, List.isPrefixOf_iff_prefix]

/-- The paths of some components are all looked up, or the first that leads out is reported. -/
theorem targets_cases (h : output.resolved? here = some base)
    (clear : ∀ a ∈ artifacts, '\x00' ∉ a.path.toList) :
    (∀ a ∈ artifacts, base <+: Place.follow base (Path.pieces a.path)) ∧
        (∃ places, targets here output artifacts = .ok places) ∨
      ∃ before a after, artifacts = before ++ a :: after ∧
        (∀ b ∈ before, base <+: Place.follow base (Path.pieces b.path)) ∧
        ¬ base <+: Place.follow base (Path.pieces a.path) ∧
        targets here output artifacts = .error (.escapes a.path output.toString) := by
  induction artifacts with
  | nil => exact Or.inl ⟨fun a ha => absurd ha List.not_mem_nil, [], rfl⟩
  | cons a as ih =>
    have ha := target_of_resolved h (clear a List.mem_cons_self)
    by_cases hin : base <+: Place.follow base (Path.pieces a.path)
    · rw [if_pos hin] at ha
      rcases ih fun b hb => clear b (List.mem_cons_of_mem _ hb) with
        ⟨hall, places, hplaces⟩ | ⟨before, b, after, rfl, hbefore, hout, herror⟩
      · refine Or.inl ⟨List.forall_mem_cons.2 ⟨hin, hall⟩,
          Place.follow base (Path.pieces a.path) :: places, ?_⟩
        rw [targets, ha, hplaces]
        rfl
      · refine Or.inr ⟨a :: before, b, after, rfl, List.forall_mem_cons.2 ⟨hin, hbefore⟩, hout, ?_⟩
        rw [targets, ha, herror]
        rfl
    · rw [if_neg hin] at ha
      refine Or.inr ⟨[], a, as, rfl, fun b hb => absurd hb List.not_mem_nil, hin, ?_⟩
      rw [targets, ha]

theorem targets_of_unresolved (h : output.resolved? here = none) {path out : String} :
    targets here output artifacts ≠ .error (.escapes path out) := by
  cases artifacts with
  | nil =>
    intro heq
    cases heq
  | cons a as =>
    obtain ⟨f, hf⟩ := target_of_unresolved h a
    rw [targets, hf]
    intro heq
    cases heq

end Store

namespace Depot

variable {device : Disk.Device} {d d' : Depot}

theorem onDisk_error {α : Type} {act : Disk.Action α} {f : Fault} (h : onDisk act d = .error f d') :
    ∃ cause, f = .disk cause := by
  unfold onDisk at h
  split at h
  · cases h
  · cases h
    exact ⟨_, rfl⟩

/-- Writing fails at the disk only. -/
theorem writeAll_error {l : List (Artifact × Place)} {f : Fault}
    (h : writeAll device l d = .error f d') : ∃ cause, f = .disk cause := by
  induction l generalizing d with
  | nil => cases h
  | cons ap rest ih =>
    rcases bind_error.1 h with hdirectories | ⟨_, u, -, h⟩
    · exact onDisk_error hdirectories
    · rcases bind_error.1 h with hwrite | ⟨_, u', -, hrest⟩
      · exact onDisk_error hwrite
      · exact ih hrest

/-- A path is reported before anything is taken in. -/
theorem registerBy_escapes {output : Path} (houtput : d.store.output = some output)
    {artifacts : List Artifact} {path out : String} :
    registerBy device artifacts d = .error (.escapes path out) d' ↔
      Store.targets d.disk.here output artifacts = .error (.escapes path out) ∧ d' = d := by
  simp only [registerBy, houtput]
  cases Store.targets d.disk.here output artifacts with
  | error f => simp [eq_comm]
  | ok places =>
    refine iff_of_false (fun h => ?_) (by simp)
    obtain ⟨cause, hcause⟩ := writeAll_error h
    cases hcause

/-- **Exactly the paths that lead out are refused, and then nothing has happened.** Registering
reports a path that leads out when, followed piece by piece from the output directory, some path
does not come to lie at or below it. It may lead up and come back, through the directories that it
has climbed out of; a directory whose name only begins like one of these is another. The report
names the first path that leads out, and the store and the disk are as they were. -/
theorem registerBy_refuses_iff {output : Path} (houtput : d.store.output = some output)
    {artifacts : List Artifact} (clear : ∀ a ∈ artifacts, '\x00' ∉ a.path.toList) :
    let leadsOut := fun (base : Place) (a : Artifact) =>
      ¬ base <+: Place.follow base (Path.pieces a.path)
    ((∃ path out d', registerBy device artifacts d = .error (.escapes path out) d') ↔
        ∃ base, output.resolved? d.disk.here = some base ∧ ∃ a ∈ artifacts, leadsOut base a) ∧
      (∀ path out d', registerBy device artifacts d = .error (.escapes path out) d' →
        d' = d ∧ ∃ base before a after, output.resolved? d.disk.here = some base ∧
          artifacts = before ++ a :: after ∧ (∀ b ∈ before, ¬ leadsOut base b) ∧ leadsOut base a ∧
          path = a.path ∧ out = output.toString) ∧
      ∀ base, output.resolved? d.disk.here = some base → ∀ a ∈ artifacts,
        let way := Place.climb ((Path.pieces a.path).filter Path.isSegment)
        leadsOut base a ↔ ¬ base.drop (base.length - way.1) <+: way.2 := by
  intro leadsOut
  have hrefused : ∀ path out d', registerBy device artifacts d = .error (.escapes path out) d' →
      d' = d ∧ ∃ base before a after, output.resolved? d.disk.here = some base ∧
        artifacts = before ++ a :: after ∧ (∀ b ∈ before, ¬ leadsOut base b) ∧ leadsOut base a ∧
        path = a.path ∧ out = output.toString := by
    intro path out d' h
    obtain ⟨htargets, hd⟩ := (registerBy_escapes houtput).1 h
    refine ⟨hd, ?_⟩
    cases hbase : output.resolved? d.disk.here with
    | none => exact absurd htargets (Store.targets_of_unresolved hbase)
    | some base =>
      rcases Store.targets_cases hbase clear with
        ⟨-, places, hplaces⟩ | ⟨before, a, after, hsplit, hbefore, hout, herror⟩
      · rw [hplaces] at htargets
        cases htargets
      · rw [herror] at htargets
        cases htargets
        exact ⟨base, before, a, after, rfl, hsplit, fun b hb => not_not.2 (hbefore b hb), hout,
          rfl, rfl⟩
  refine ⟨⟨?_, ?_⟩, hrefused, ?_⟩
  · rintro ⟨path, out, d', h⟩
    obtain ⟨-, base, before, a, after, hbase, rfl, -, hout, -⟩ := hrefused path out d' h
    exact ⟨base, hbase, a, List.mem_append_right _ List.mem_cons_self, hout⟩
  · rintro ⟨base, hbase, a, ha, hout⟩
    rcases Store.targets_cases hbase clear with ⟨hall, -⟩ | ⟨-, b, -, -, -, -, herror⟩
    · exact absurd (hall a ha) hout
    · exact ⟨b.path, output.toString, d, (registerBy_escapes houtput).2 ⟨herror, rfl⟩⟩
  · intro base hbase a ha
    obtain ⟨-, rfl⟩ := Path.resolved?_eq_some.1 hbase
    exact not_congr (Place.prefix_follow_iff (Place.dots_not_mem_settle _) _)

/-- A component that would replace one, a path that leads up and comes back, and one into a
directory beside; there the last path alone is refused. -/
theorem registerBy_refuses_beside :
    let d : Depot :=
      { store := { output := some (.ofString "out")
                   artifacts := ⟨[("A", ⟨"A", "/a.vue", "<a/>"⟩)]⟩ }
        disk := .ofHere ["ws"] }
    let artifacts : List Artifact :=
      [⟨"A", "/a.vue", "<b/>"⟩, ⟨"B", "/../out/./b.vue", "<b/>"⟩, ⟨"C", "/../outer/c.vue", "<c/>"⟩]
    (∀ a ∈ artifacts, '\x00' ∉ a.path.toList) ∧
      (∃ path out, registerBy .sound artifacts d = .error (.escapes path out) d) ∧
      ∀ path out d', registerBy .sound (artifacts.take 2) d ≠ .error (.escapes path out) d' := by
  intro d artifacts
  have clear : ∀ a ∈ artifacts, '\x00' ∉ a.path.toList := by decide
  have hbase : Path.resolved? d.disk.here (.ofString "out") = some ["ws", "out"] := by decide
  obtain ⟨hiff, hrefused, -⟩ := @registerBy_refuses_iff .sound d _ rfl _ clear
  obtain ⟨hiff', -⟩ := @registerBy_refuses_iff .sound d _ rfl (artifacts.take 2)
    fun a ha => clear a (List.take_subset 2 _ ha)
  refine ⟨clear, ?_, ?_⟩
  · obtain ⟨path, out, d', h⟩ := hiff.2 ⟨_, hbase, _, List.getLast_mem (by decide), by decide⟩
    obtain ⟨rfl, -⟩ := hrefused path out d' h
    exact ⟨path, out, h⟩
  · intro path out d' h
    obtain ⟨base, hbase', a, ha, hout⟩ := hiff'.1 ⟨path, out, d', h⟩
    rw [hbase] at hbase'
    cases hbase'
    revert a
    decide

end Depot

end DemoPages
