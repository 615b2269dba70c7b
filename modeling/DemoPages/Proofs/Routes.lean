import DemoPages.Proofs.Stops

/-!
# Routes lead back

The path of a component is a route from the project root to a name beside its page. Written down
behind the root, it leads to that name again (`artifactPath_leads_back`): where it leads is a matter
of how many directories a list of segments leads up and of the way down from there (`climb`), and
the route leads up to the last directory that both places have in common, and no further.
-/

namespace DemoPages

/-! ### Texts of paths -/

namespace Path

/-- The text of the directory of a file: what stands in front of its last slash, without the slashes
at the end of it unless there is nothing else. -/
def directory (file : String) : String :=
  let head := file.toList.rdropWhile (· ≠ '/')
  String.ofList (if head.all (· = '/') then head else head.rdropWhile (· = '/'))

/-- The text of `name` as it is read from the directory `dir`, unless it is absolute. -/
def joined (dir name : String) : String :=
  if isAnchored name then name
  else if dir = "" ∨ dir.toList.getLast? = some '/' then dir ++ name
  else dir ++ "/" ++ name

/-- A text as an absolute path without double dots. -/
def absolute (here : Place) (s : String) : Path where
  anchor := if (ofString s).anchor = .here then .root else (ofString s).anchor
  segments := Place.resolve here (ofString s)

/-! ### Segments of joined texts -/

theorem segments_ofString (s : String) : (ofString s).segments = (pieces s).filter isSegment := rfl

theorem pieces_append_slash (s t : String) : pieces (s ++ "/" ++ t) = pieces s ++ pieces t := by
  rw [pieces, String.toList_append, String.toList_append, List.append_assoc]
  exact (congrArg _ (Text.split_append_cons '/' s.toList t.toList)).trans List.map_append

theorem segments_append_slash (s t : String) :
    (ofString (s ++ "/" ++ t)).segments = (ofString s).segments ++ (ofString t).segments := by
  rw [segments_ofString, pieces_append_slash, List.filter_append]
  rfl

theorem segments_slash (s : String) : (ofString ("/" ++ s)).segments = (ofString s).segments := by
  rw [segments_ofString, pieces_slash]
  rfl

/-- Slashes at the end name nothing. -/
theorem segments_rdropWhile (l : List Char) :
    (ofString (String.ofList (l.rdropWhile (· = '/')))).segments =
      (ofString (String.ofList l)).segments := by
  induction l using List.reverseRecOn with
  | nil => rfl
  | append_singleton l c ih =>
    by_cases hc : c = '/'
    · subst hc
      have hslash : String.ofList (l ++ ['/']) = String.ofList l ++ "/" ++ "" := by
        simp [String.ofList_append]
      rw [List.rdropWhile_concat_pos _ _ _ (by simp), ih, hslash, segments_append_slash]
      exact (List.append_nil _).symm
    · rw [List.rdropWhile_concat_neg _ _ _ (by simpa using hc)]

/-- A file without a slash names no directory; otherwise its directory is the text up to its last
slash. -/
theorem directory_cases (file : String) :
    '/' ∉ file.toList ∧ directory file = "" ∨
      ∃ front last : List Char, file.toList = front ++ '/' :: last ∧ '/' ∉ last ∧
        directory file = String.ofList (if (front ++ ['/']).all (· = '/') then front ++ ['/']
          else (front ++ ['/']).rdropWhile (· = '/')) := by
  by_cases hslash : '/' ∈ file.toList
  · right
    obtain ⟨last, front, hsplit, hlast⟩ :=
      List.eq_append_cons_of_mem (List.mem_reverse.2 hslash)
    have hfile : file.toList = front.reverse ++ '/' :: last.reverse := by
      rw [← List.reverse_reverse file.toList, hsplit]
      simp
    have hbehind : last.dropWhile (· ≠ '/') = [] :=
      List.dropWhile_eq_nil_iff.2 fun c hc => by
        simpa using fun h : c = '/' => hlast (h ▸ hc)
    have hhead : file.toList.rdropWhile (· ≠ '/') = front.reverse ++ ['/'] := by
      rw [List.rdropWhile, hsplit, List.dropWhile_append, hbehind, List.isEmpty_nil, if_pos rfl,
        List.dropWhile_cons_of_neg (by simp), List.reverse_cons]
    refine ⟨front.reverse, last.reverse, hfile, by simpa using hlast, ?_⟩
    rw [directory, hhead]
  · left
    have hhead : file.toList.rdropWhile (· ≠ '/') = [] :=
      List.rdropWhile_eq_nil_iff.2 fun c hc => by
        simpa using fun h : c = '/' => hslash (h ▸ hc)
    refine ⟨hslash, ?_⟩
    rw [directory, hhead]
    rfl

/-- The directory of a file is named by all pieces but the last. -/
theorem segments_directory (file : String) :
    (ofString (directory file)).segments = (pieces file).dropLast.filter isSegment := by
  rcases directory_cases file with ⟨hslash, hdir⟩ | ⟨front, last, hfile, hlast, hdir⟩
  · rw [hdir, pieces_of_not_mem hslash]
    rfl
  · have hpieces : pieces file = pieces (String.ofList front) ++ [String.ofList last] := by
      rw [pieces, hfile, Text.split_append_cons, List.map_append, Text.split_of_not_mem hlast,
        pieces, String.toList_ofList]
      rfl
    have hends : (ofString (String.ofList (front ++ ['/']))).segments =
        (ofString (String.ofList front)).segments := by
      rw [← segments_rdropWhile, List.rdropWhile_concat_pos _ _ _ (by simp), segments_rdropWhile]
    rw [hdir, hpieces, List.dropLast_concat, ← segments_ofString, ← hends]
    split
    · rfl
    · exact segments_rdropWhile _

/-! ### Absolute texts -/

theorem anchor_eq_here_iff (s : String) : (ofString s).anchor = .here ↔ isAnchored s = false := by
  show anchorOf s.toList = .here ↔ isAnchored s = false
  unfold isAnchored
  generalize s.toList = l
  cases l with
  | nil => exact iff_of_true rfl rfl
  | cons c l =>
    by_cases hc : c = '/'
    · subst hc
      refine iff_of_false (fun h => ?_) (by simp)
      unfold anchorOf at h
      split at h <;> simp_all
    · exact iff_of_true (anchorOf_of_ne hc l).1 (by simpa using hc)

theorem isAnchored_of_prefix {s t : String} (h : s.toList <+: t.toList) (hne : s ≠ "") :
    isAnchored s = isAnchored t := by
  obtain ⟨rest, hrest⟩ := h
  unfold isAnchored
  rw [← hrest]
  cases hs : s.toList with
  | nil => exact absurd (String.toList_eq_nil_iff.1 hs) hne
  | cons c cs => rfl

/-- A file and its directory are both absolute, or both not. -/
theorem isAnchored_directory (file : String) : isAnchored (directory file) = isAnchored file := by
  rcases directory_cases file with ⟨hslash, hdir⟩ | ⟨front, last, hfile, hlast, hdir⟩
  · rw [hdir, isAnchored_of_not_mem hslash]
    rfl
  · have hhead : front ++ ['/'] <+: file.toList := ⟨last, by simp [hfile]⟩
    refine isAnchored_of_prefix ?_ fun hempty => ?_
    · rw [hdir, String.toList_ofList]
      split
      · exact hhead
      · exact (List.rdropWhile_prefix _ _).trans hhead
    · rw [hdir, ← String.toList_eq_nil_iff, String.toList_ofList] at hempty
      split at hempty
      · simp at hempty
      · rename_i hall
        exact hall (List.all_eq_true.2 (List.rdropWhile_eq_nil_iff.1 hempty))

/-! ### A name in a directory -/

section Joined

variable {name : String} (hname : isAnchored name = false) (dir : String)
include hname

theorem segments_joined :
    (ofString (joined dir name)).segments =
      (ofString dir).segments ++ (ofString name).segments := by
  rw [joined, if_neg (by simp [hname])]
  split
  · rename_i hdir
    rcases hdir with rfl | hslash
    · rw [String.empty_append]
      rfl
    · obtain ⟨front, hfront⟩ := List.getLast?_eq_some_iff.1 hslash
      have hdir : dir = String.ofList front ++ "/" ++ "" := by
        rw [← String.toList_inj]
        simp [hfront]
      rw [hdir, segments_append_slash, String.append_empty, segments_append_slash]
      simp [segments_ofString, pieces, Text.split, isSegment]
  · exact segments_append_slash dir name

theorem isAnchored_joined : isAnchored (joined dir name) = isAnchored dir := by
  rw [joined, if_neg (by simp [hname])]
  by_cases hdir : dir = ""
  · subst hdir
    rw [if_pos (Or.inl rfl), String.empty_append, hname]
    rfl
  · symm
    split
    · exact isAnchored_of_prefix (by simp) hdir
    · exact isAnchored_of_prefix (by simp [List.append_assoc]) hdir

end Joined

end Path

/-! ### Up and down -/

namespace Place

/-- One more segment: double dots take back the last step down, or lead up. -/
def climbBy (way : Nat × List String) (s : String) : Nat × List String :=
  if s = ".." then
    if way.2 = [] then (way.1 + 1, []) else (way.1, way.2.dropLast)
  else (way.1, way.2 ++ [s])

/-- How many directories some segments lead up, and what they lead down from there. -/
def climb (segments : List String) : Nat × List String := segments.foldl climbBy (0, [])

theorem climb_concat (segments : List String) (s : String) :
    climb (segments ++ [s]) = climbBy (climb segments) s := by
  rw [climb, List.foldl_append]
  rfl

/-- **Segments lead up, and then down**: from any place, they take away as many directories as they
lead up, and add what they lead down. -/
theorem settle_append_climb {base : Place} (hbase : ".." ∉ base) (segments : List String) :
    settle (base ++ segments) =
      base.take (base.length - (climb segments).1) ++ (climb segments).2 := by
  induction segments using List.reverseRecOn with
  | nil => simp [climb, settle_of_not_mem hbase]
  | append_singleton segments s ih =>
    rw [← List.append_assoc, climb_concat, climbBy]
    split
    · rename_i hs
      subst hs
      rw [settle_concat_dots, ih]
      split
      · rename_i hdown
        rw [hdown, List.append_nil, List.append_nil, List.dropLast_eq_take, List.take_take,
          List.length_take]
        congr 1
        omega
      · rename_i hdown
        rw [List.dropLast_append_of_ne_nil hdown]
    · rename_i hs
      rw [settle_concat _ hs, ih, List.append_assoc]

theorem climb_replicate_append (k : Nat) {down : List String} (h : ".." ∉ down) :
    climb (List.replicate k ".." ++ down) = (k, down) := by
  induction down using List.reverseRecOn with
  | nil =>
    rw [List.append_nil]
    induction k with
    | zero => rfl
    | succ k ih => rw [List.replicate_succ', climb_concat, ih, climbBy, if_pos rfl, if_pos rfl]
  | append_singleton down s ih =>
    rw [List.mem_append, List.mem_singleton, not_or] at h
    rw [← List.append_assoc, climb_concat, ih h.1, climbBy, if_neg (Ne.symm h.2)]

/-! ### The last directory in common -/

/-- The longest place that two places both begin with. -/
structure IsMeet (r p q : Place) : Prop where
  left : r <+: p
  right : r <+: q
  longest : ∀ s, s <+: p → s <+: q → s <+: r

theorem isMeet_take_common (p q : Place) : IsMeet (p.take (common p q)) p q := by
  induction p generalizing q with
  | nil => exact ⟨List.nil_prefix, List.nil_prefix, fun s hs _ => hs⟩
  | cons a p ih =>
    cases q with
    | nil => exact ⟨List.nil_prefix, List.nil_prefix, fun s _ hs => hs⟩
    | cons b q =>
      rw [common]
      split
      · rename_i hab
        subst hab
        rw [List.take_succ_cons]
        refine ⟨(List.prefix_cons_inj a).2 (ih q).left, (List.prefix_cons_inj a).2 (ih q).right, ?_⟩
        intro s hp hq
        cases s with
        | nil => exact List.nil_prefix
        | cons c s =>
          obtain ⟨rfl, hp'⟩ := List.cons_prefix_cons.1 hp
          exact (List.prefix_cons_inj c).2 ((ih q).longest s hp' (List.cons_prefix_cons.1 hq).2)
      · rename_i hab
        refine ⟨List.nil_prefix, List.nil_prefix, fun s hp hq => ?_⟩
        cases s with
        | nil => exact List.nil_prefix
        | cons c s =>
          have hp' := (List.cons_prefix_cons.1 hp).1
          have hq' := (List.cons_prefix_cons.1 hq).1
          exact absurd (hp'.symm.trans hq') hab

/-- The one place lies at or below the other when they have all of that one in common. -/
theorem IsMeet.prefix_iff {r p q : Place} (h : IsMeet r p q) : p <+: q ↔ p.length ≤ r.length := by
  refine ⟨fun hpq => (h.longest p List.prefix_rfl hpq).length_le, fun hle => ?_⟩
  rw [← h.left.eq_of_length_le hle]
  exact h.right

theorem common_le_length (p q : Place) : common p q ≤ p.length := by
  induction p generalizing q with
  | nil => exact Nat.le_refl 0
  | cons a p ih =>
    cases q with
    | nil => exact Nat.zero_le _
    | cons b q =>
      have := ih q
      rw [common, List.length_cons]
      split <;> omega

theorem length_take_common (p q : Place) : (p.take (common p q)).length = common p q := by
  rw [List.length_take, Nat.min_eq_left (common_le_length p q)]

/-- A route, followed from where it starts, leads to its target. -/
theorem settle_append_route {start target : Place} (hstart : ".." ∉ start)
    (htarget : ".." ∉ target) : settle (start ++ route start target) = target := by
  have hle := common_le_length start target
  have hdown : ".." ∉ target.drop (common start target) := fun h =>
    htarget (List.drop_subset _ _ h)
  have hshared : start.take (common start target) = target.take (common start target) := by
    have h := List.prefix_iff_eq_take.1 (isMeet_take_common start target).right
    rwa [length_take_common] at h
  rw [settle_append_climb hstart, route, climb_replicate_append _ hdown, Nat.sub_sub_self hle,
    hshared, List.take_append_drop]

theorem mem_of_mem_settle {x : String} {segments : List String} (h : x ∈ settle segments) :
    x ∈ segments := by
  induction segments using List.reverseRecOn with
  | nil => exact h
  | append_singleton segments s ih =>
    rw [List.mem_append]
    by_cases hs : s = ".."
    · rw [hs, settle_concat_dots] at h
      exact Or.inl (ih (List.dropLast_subset _ h))
    · rw [settle_concat _ hs, List.mem_append] at h
      exact h.imp_left ih

/-! ### Where a component lies -/

theorem resolve_ofString (here : Place) (s : String) :
    resolve here (Path.ofString s) =
      settle ((if Path.isAnchored s then [] else here) ++ (Path.ofString s).segments) := by
  have h := Path.anchor_eq_here_iff s
  rw [resolve]
  cases hs : Path.isAnchored s with
  | true => rw [if_neg fun hhere => by simpa [hs] using h.1 hhere, if_pos rfl]
  | false => rw [if_pos (h.2 hs), if_neg Bool.false_ne_true]

section Here

variable {here : Place} (hhere : ∀ x ∈ here, IsName x)
include hhere

theorem isPiece_of_mem_resolve (p : Path) (hp : ∀ x ∈ p.segments, Path.IsPiece x) :
    ∀ x ∈ resolve here p, Path.IsPiece x := by
  intro x hx
  rcases List.mem_append.1 (mem_of_mem_settle hx) with hx | hx
  · split at hx
    · exact ⟨(hhere x hx).1, (hhere x hx).2.2⟩
    · cases hx
  · exact hp x hx

/-- A name beside a file is read in the directory of the file. -/
theorem beside_eq_resolve_joined (file name : String) :
    beside here file name =
      resolve here (Path.ofString (Path.joined (Path.directory file) name)) := by
  rw [resolve_ofString, beside]
  cases hname : Path.isAnchored name with
  | true =>
    rw [Path.joined, if_pos hname, hname]
    rfl
  | false =>
    have hnames : here.filter Path.isSegment = here :=
      List.filter_eq_self.2 fun x hx => (hhere x hx).1
    rw [Path.isAnchored_joined hname, Path.isAnchored_directory, Path.segments_joined hname,
      Path.segments_directory, Path.segments_ofString]
    cases hfile : Path.isAnchored file with
    | true => simp [List.filter_append]
    | false => simp [List.filter_append, hnames]

end Here

end Place

/-! ### The path of a component -/

theorem Path.segments_slash_joinWith {xs : List String} (h : ∀ x ∈ xs, IsPiece x) :
    (ofString ("/" ++ Text.joinWith "/" xs)).segments = xs :=
  congrArg Path.segments (ofString_toString (p := ⟨.root, xs⟩) h)

theorem Path.isAnchored_toString_append {p : Path} (h : p.anchor ≠ .here) (s : String) :
    isAnchored (p.toString ++ s) = true := by
  obtain ⟨anchor, segments⟩ := p
  cases anchor with
  | here => exact absurd rfl h
  | root => simp [isAnchored, Path.toString]
  | doubleRoot => simp [isAnchored, Path.toString]

section Artifact

variable {here : Place} (hhere : ∀ x ∈ here, IsName x)
include hhere

/-- A path of a component is read as the route that it was written for. -/
theorem segments_artifactPath (file root name : String) :
    (Path.ofString (artifactPath here file root name)).segments =
      Place.route (Path.absolute here root).segments
        (Path.absolute here (Path.joined (Path.directory file) name)).segments := by
  have hbeside := Place.beside_eq_resolve_joined hhere file name
  have hpiece : ∀ x ∈ Place.route (Place.resolve here (.ofString root))
      (Place.beside here file name), Path.IsPiece x := by
    intro x hx
    rcases List.mem_append.1 hx with hx | hx
    · rw [List.eq_of_mem_replicate hx]
      exact ⟨by decide, by decide⟩
    · rw [hbeside] at hx
      exact Place.isPiece_of_mem_resolve hhere _ (fun _ => Path.isPiece_of_mem_ofString) x
        (List.drop_subset _ _ hx)
  show (Path.ofString (artifactPath here file root name)).segments =
    Place.route (Place.resolve here (.ofString root)) (Place.resolve here (.ofString _))
  rw [← hbeside, artifactPath]
  split
  · rename_i hroute
    rw [hroute]
    decide
  · exact Path.segments_slash_joinWith hpiece

/-- **The path of a component leads back**: behind the root it leads to the name beside the page. It
leads up from the root to the last directory that the two have in common, and down from there, so it
leads up at all unless the name lies at or below the root. -/
theorem artifactPath_leads_back (file root name : String) :
    let start := Path.absolute here root
    let target := Path.absolute here (Path.joined (Path.directory file) name)
    let path := artifactPath here file root name
    (Path.absolute here (start.toString ++ path)).segments = target.segments ∧
      (∃ shared, Place.IsMeet shared start.segments target.segments ∧
        (Path.ofString path).segments =
          List.replicate (start.segments.length - shared.length) ".." ++
            target.segments.drop shared.length ∧
        ".." ∉ target.segments.drop shared.length) ∧
      (".." ∈ (Path.ofString path).segments ↔ ¬ start.segments <+: target.segments) := by
  intro start target path
  have hroute : (Path.ofString path).segments = Place.route start.segments target.segments :=
    segments_artifactPath hhere file root name
  have hstart : ".." ∉ start.segments := Place.dots_not_mem_settle _
  have htarget : ".." ∉ target.segments := Place.dots_not_mem_settle _
  have hmeet := Place.isMeet_take_common start.segments target.segments
  have hlength := Place.length_take_common start.segments target.segments
  have hdown : ".." ∉ target.segments.drop (Place.common start.segments target.segments) :=
    fun h => htarget (List.drop_subset _ _ h)
  refine ⟨?_, ⟨_, hmeet, ?_, ?_⟩, ?_⟩
  · -- Behind the root, the path adds its segments to those of the root.
    have hanchor : start.anchor ≠ .here := by
      show (if _ then _ else _) ≠ Anchor.here
      split
      · exact Anchor.noConfusion
      · assumption
    obtain ⟨t, ht⟩ : ∃ t, path = "/" ++ t := by
      show ∃ t, artifactPath here file root name = "/" ++ t
      rw [artifactPath]
      split
      · exact ⟨".", rfl⟩
      · exact ⟨_, rfl⟩
    have hread : Path.ofString start.toString = start :=
      Path.ofString_toString
        (Place.isPiece_of_mem_resolve hhere _ fun _ => Path.isPiece_of_mem_ofString)
    have hwhole : (Path.ofString (start.toString ++ path)).segments =
        start.segments ++ Place.route start.segments target.segments := by
      rw [← hroute, ht, ← String.append_assoc, Path.segments_append_slash, hread,
        Path.segments_slash]
    show Place.resolve here (.ofString (start.toString ++ path)) = target.segments
    rw [Place.resolve_ofString, Path.isAnchored_toString_append hanchor, if_pos rfl, hwhole]
    exact Place.settle_append_route hstart htarget
  · rw [hroute, hlength, Place.route]
  · rwa [hlength]
  · rw [hroute, hmeet.prefix_iff, hlength, Place.route, List.mem_append, List.mem_replicate,
      or_iff_left hdown, and_iff_left rfl]
    omega

end Artifact

/-- A root below the working directory, and a name above it, written with segments to spare. -/
theorem artifactPath_leads_back_up :
    (∀ x ∈ ["tmp", "ws"], IsName x) ∧
      artifactPath ["tmp", "ws"] "guide//x.md" "docs/./deep/" "../../y.vue" = "/../../../y.vue" ∧
      (Path.absolute ["tmp", "ws"] ("/tmp/ws/docs/deep" ++ "/../../../y.vue")).segments =
        ["tmp", "y.vue"] := by
  have hhere : ∀ x ∈ ["tmp", "ws"], IsName x := by decide
  have hpath : artifactPath ["tmp", "ws"] "guide//x.md" "docs/./deep/" "../../y.vue" =
      "/../../../y.vue" := by decide
  have hstart : (Path.absolute ["tmp", "ws"] "docs/./deep/").toString = "/tmp/ws/docs/deep" := by
    decide
  have htarget : (Path.absolute ["tmp", "ws"]
      (Path.joined (Path.directory "guide//x.md") "../../y.vue")).segments = ["tmp", "y.vue"] := by
    decide
  have h := (artifactPath_leads_back hhere "guide//x.md" "docs/./deep/" "../../y.vue").1
  rw [hpath, hstart, htarget] at h
  exact ⟨hhere, hpath, h⟩

end DemoPages
