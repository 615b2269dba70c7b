import Mathlib.Data.List.Induction
import DemoPages.Store
import DemoPages.Proofs.Pieces

/-!
# Where the files of components lie

The path of a component is read off a route from the project root to a name beside its page, written
down with slashes and read again below the output directory. `target_ends_with` follows the name all
the way: if the store accepts the path, its place ends with the name, or it is the output directory
itself. The latter happens when the route has no way down, because the project root lies at or below
the place of the component.
-/

namespace DemoPages

/-! ### Pieces of a text -/

namespace Text

theorem toList_joinWith_cons (x : String) (r : List String) :
    ∃ t, (joinWith "/" (x :: r)).toList = x.toList ++ t := by
  cases r with
  | nil => exact ⟨[], (List.append_nil _).symm⟩
  | cons y r => exact ⟨'/' :: (joinWith "/" (y :: r)).toList, by simp [joinWith]⟩

/-- Behind a slash, a joined text ends with its last piece behind a slash. -/
theorem toList_joinWith_concat (xs : List String) (z : String) :
    ∃ front, ("/" ++ joinWith "/" (xs ++ [z])).toList = front ++ '/' :: z.toList := by
  induction xs with
  | nil => exact ⟨[], by simp [joinWith]⟩
  | cons x xs ih =>
    obtain ⟨front, hfront⟩ := ih
    refine ⟨'/' :: x.toList ++ front, ?_⟩
    rw [List.cons_append, joinWith_cons "/" x (by simp), String.append_assoc, String.toList_append,
      String.toList_append, hfront]
    simp

theorem dropWhile_append_of_not_mem {s : List Char} (h : '/' ∉ s) (hne : s ≠ []) (t : List Char) :
    (s ++ t).dropWhile (· = '/') = s ++ t := by
  cases s with
  | nil => exact absurd rfl hne
  | cons c s =>
    have hc : c ≠ '/' := by
      rintro rfl
      exact h List.mem_cons_self
    rw [List.cons_append, List.dropWhile_cons_of_neg (by simpa using hc)]

end Text

namespace Path

theorem pieces_of_not_mem {s : String} (h : '/' ∉ s.toList) : pieces s = [s] := by
  simp [pieces, Text.split_of_not_mem h]

theorem isAnchored_of_not_mem {s : String} (h : '/' ∉ s.toList) : isAnchored s = false := by
  unfold isAnchored
  cases hcs : s.toList with
  | nil => rfl
  | cons c cs =>
    have hc : c ≠ '/' := by
      rintro rfl
      exact h (hcs ▸ List.mem_cons_self)
    simpa using hc

theorem pieces_joinWith {xs : List String} (hne : xs ≠ []) (h : ∀ x ∈ xs, '/' ∉ x.toList) :
    pieces (Text.joinWith "/" xs) = xs := by
  induction xs with
  | nil => exact absurd rfl hne
  | cons x xs ih =>
    by_cases hxs : xs = []
    · subst hxs
      exact pieces_of_not_mem (h x List.mem_cons_self)
    · have hrest := ih hxs fun y hy => h y (List.mem_cons_of_mem _ hy)
      have hx := pieces_of_not_mem (h x List.mem_cons_self)
      unfold pieces at hrest hx ⊢
      rw [Text.joinWith_cons "/" x hxs, String.toList_append, String.toList_append,
        show ("/" : String).toList = ['/'] from rfl, List.append_assoc, List.singleton_append,
        Text.split_append_cons, List.map_append, hx, hrest]
      rfl

theorem dropWhile_joinWith {xs : List String} (h : ∀ x ∈ xs, '/' ∉ x.toList ∧ x ≠ "") :
    String.ofList (("/" ++ Text.joinWith "/" xs).toList.dropWhile (· = '/')) =
      Text.joinWith "/" xs := by
  rw [String.toList_append, show ("/" : String).toList = ['/'] from rfl, List.singleton_append,
    List.dropWhile_cons_of_pos (by simp)]
  cases xs with
  | nil => rfl
  | cons x xs =>
    obtain ⟨hslash, hx⟩ := h x List.mem_cons_self
    obtain ⟨t, ht⟩ := Text.toList_joinWith_cons x xs
    rw [ht, Text.dropWhile_append_of_not_mem hslash (fun h0 => hx (String.toList_eq_nil_iff.1 h0)),
      ← ht, String.ofList_toList]

/-- Behind a slash, slashes join pieces that are read off again. -/
theorem pieces_dropWhile_joinWith {xs : List String} (hne : xs ≠ [])
    (h : ∀ x ∈ xs, '/' ∉ x.toList ∧ x ≠ "") :
    pieces (String.ofList (("/" ++ Text.joinWith "/" xs).toList.dropWhile (· = '/'))) = xs := by
  rw [dropWhile_joinWith h]
  exact pieces_joinWith hne fun y hy => (h y hy).1

/-- A text that ends with a name behind a slash, read without the slashes it begins with, ends with
that name. -/
theorem pieces_dropWhile_concat {s z : String} {front : List Char}
    (hs : s.toList = front ++ '/' :: z.toList) (hslash : '/' ∉ z.toList) (hz : z ≠ "") :
    ∃ xs, pieces (String.ofList (s.toList.dropWhile (· = '/'))) = xs ++ [z] := by
  have hdrop := Text.dropWhile_append_of_not_mem hslash
    (fun h0 => hz (String.toList_eq_nil_iff.1 h0)) []
  have hpieces := pieces_of_not_mem hslash
  rw [List.append_nil] at hdrop
  rw [hs, List.dropWhile_append]
  split
  · refine ⟨[], ?_⟩
    rw [List.dropWhile_cons_of_pos (by simp), hdrop, String.ofList_toList, hpieces]
    rfl
  · refine ⟨(Text.split '/' (front.dropWhile (· = '/'))).map String.ofList, ?_⟩
    unfold pieces at hpieces ⊢
    rw [String.toList_ofList, Text.split_append_cons, List.map_append, hpieces]

end Path

/-! ### Places -/

namespace Place

theorem settle_concat (xs : List String) {s : String} (h : s ≠ "..") :
    settle (xs ++ [s]) = settle xs ++ [s] := by
  simp [settle, h]

theorem settle_concat_dots (xs : List String) :
    settle (xs ++ [".."]) = (settle xs).dropLast := by
  simp [settle]

theorem dots_not_mem_settle (xs : List String) : ".." ∉ settle xs := by
  induction xs using List.reverseRecOn with
  | nil => simp [settle]
  | append_singleton xs s ih =>
    by_cases h : s = ".."
    · subst h
      rw [settle_concat_dots]
      exact fun hmem => ih (List.dropLast_subset _ hmem)
    · rw [settle_concat xs h]
      simp [ih, Ne.symm h]

theorem settle_of_not_mem {xs : List String} (h : ".." ∉ xs) : settle xs = xs := by
  induction xs using List.reverseRecOn with
  | nil => rfl
  | append_singleton xs s ih =>
    simp only [List.mem_append, List.mem_singleton, not_or] at h
    rw [settle_concat xs (Ne.symm h.2), ih h.1]

/-- Double dots alone lead to a directory above, or to where they start from. -/
theorem settle_append_replicate {xs : List String} (h : ".." ∉ xs) (k : Nat) :
    settle (xs ++ List.replicate k "..") <+: xs := by
  induction k with
  | zero =>
    refine ⟨[], ?_⟩
    rw [List.replicate_zero, List.append_nil, List.append_nil, settle_of_not_mem h]
  | succ k ih =>
    rw [List.replicate_succ', ← List.append_assoc, settle_concat_dots]
    exact (List.dropLast_prefix _).trans ih

/-- A name read beside a file lies at the end of its place. -/
theorem beside_eq_concat (here : Place) (file : String) {name : String}
    (hslash : '/' ∉ name.toList) (hsegment : Path.isSegment name = true) (hdots : name ≠ "..") :
    ∃ dir, beside here file name = dir ++ [name] := by
  simp only [beside, Path.pieces_of_not_mem hslash, List.filter_append,
    List.filter_cons_of_pos hsegment, List.filter_nil]
  exact ⟨_, settle_concat _ hdots⟩

/-- A route to a place that ends with a name ends with that name, or only leads up. -/
theorem route_eq (start dir : Place) (name : String) :
    (∃ way, route start (dir ++ [name]) = way ++ [name]) ∨
      ∃ k, route start (dir ++ [name]) = List.replicate k ".." := by
  simp only [route]
  by_cases h : common start (dir ++ [name]) ≤ dir.length
  · left
    rw [List.drop_append_of_le_length h, ← List.append_assoc]
    exact ⟨_, rfl⟩
  · right
    have hlength : (dir ++ [name]).length ≤ common start (dir ++ [name]) := by
      rw [List.length_append, List.length_singleton]
      omega
    rw [List.drop_eq_nil_of_le hlength, List.append_nil]
    exact ⟨_, rfl⟩

end Place

/-! ### The place of a component's file -/

namespace Store

/-- What an accepted path comes to. -/
theorem target_ok {here : Place} {output : Path} {a : Artifact} {place : Place}
    (h : target here output a = .ok place) :
    place = Place.settle (Place.resolve here output ++
        (Path.pieces (String.ofList (a.path.toList.dropWhile (· = '/')))).filter Path.isSegment) ∧
      Place.resolve here output <+: place := by
  unfold target at h
  simp only at h
  split at h
  · cases h
  · split at h
    · rename_i hstart
      cases h
      refine ⟨?_, List.isPrefixOf_iff_prefix.1 hstart⟩
      simp only [Path.ofString]
    · cases h

/-- The way down from the output directory is the route, written with slashes and read again. -/
theorem target_route {here' : Place} {output : Path} {a : Artifact} {place : Place}
    {r : List String} (hne : r ≠ []) (hr : ∀ x ∈ r, '/' ∉ x.toList ∧ x ≠ "")
    (hpath : a.path = "/" ++ Text.joinWith "/" r) (h : target here' output a = .ok place) :
    place = Place.settle (Place.resolve here' output ++ r.filter Path.isSegment) := by
  rw [(target_ok h).1, hpath, Path.pieces_dropWhile_joinWith hne hr]

/-- Where the route goes down to a name, the place of the component ends with it. -/
theorem target_of_route_concat {here here' : Place} {output : Path} {a : Artifact} {place : Place}
    {way : List String} {file root name last : String} (hslash : '/' ∉ last.toList)
    (hsegment : Path.isSegment last = true) (hdots : last ≠ "..")
    (hroute : Place.route (Place.resolve here (.ofString root)) (Place.beside here file name) =
      way ++ [last])
    (hpath : a.path = artifactPath here file root name) (h : target here' output a = .ok place) :
    ∃ dir, place = dir ++ [last] := by
  obtain ⟨hplace, -⟩ := target_ok h
  have hname : last ≠ "" := by
    rintro rfl
    cases hsegment
  have hjoin : a.path = "/" ++ Text.joinWith "/" (way ++ [last]) := by
    rw [hpath, artifactPath, hroute]
    cases way <;> rfl
  obtain ⟨front, hfront⟩ := Text.toList_joinWith_concat way last
  obtain ⟨xs, hxs⟩ := Path.pieces_dropWhile_concat (hjoin ▸ hfront) hslash hname
  rw [hxs, List.filter_append, List.filter_cons_of_pos hsegment, List.filter_nil,
    ← List.append_assoc, Place.settle_concat _ hdots] at hplace
  exact ⟨_, hplace⟩

/-- Where the route only leads up, it cannot lead out, so the component lies in place of the output
directory. -/
theorem target_of_route_replicate {here here' : Place} {output : Path} {a : Artifact}
    {place : Place} {k : Nat} {file root name : String}
    (hroute : Place.route (Place.resolve here (.ofString root)) (Place.beside here file name) =
      List.replicate k "..")
    (hpath : a.path = artifactPath here file root name) (h : target here' output a = .ok place) :
    place = Place.resolve here' output := by
  have hbase : ".." ∉ Place.resolve here' output := Place.dots_not_mem_settle _
  have hup : ∃ k, place = Place.settle (Place.resolve here' output ++ List.replicate k "..") := by
    cases k with
    | zero =>
      refine ⟨0, target_route (r := ["."]) (by simp) (by decide) ?_ h⟩
      rw [hpath, artifactPath, hroute]
      rfl
    | succ k =>
      refine ⟨k + 1, ?_⟩
      rw [target_route (r := List.replicate (k + 1) "..") (by simp) ?_ ?_ h]
      · rw [List.filter_replicate_of_pos (by decide)]
      · intro x hx
        rw [List.eq_of_mem_replicate hx]
        decide
      · rw [hpath, artifactPath, hroute]
        rfl
  obtain ⟨k, hk⟩ := hup
  have hback := Place.settle_append_replicate hbase k
  rw [← hk] at hback
  exact hback.eq_of_length_le (target_ok h).2.length_le

/-- The place of a component ends as the place of its name beside the page does, unless it is the
output directory itself. -/
theorem target_ends_with_last {here here' : Place} {output : Path} {a : Artifact}
    {place dir : Place} {file root name last : String} (hslash : '/' ∉ last.toList)
    (hsegment : Path.isSegment last = true) (hdots : last ≠ "..")
    (hbeside : Place.beside here file name = dir ++ [last])
    (hpath : a.path = artifactPath here file root name) (h : target here' output a = .ok place) :
    place = Place.resolve here' output ∨ ∃ dir, place = dir ++ [last] := by
  rcases Place.route_eq (Place.resolve here (.ofString root)) dir last with ⟨way, hway⟩ | ⟨k, hk⟩
  · exact Or.inr (target_of_route_concat hslash hsegment hdots (hbeside ▸ hway) hpath h)
  · exact Or.inl (target_of_route_replicate (hbeside ▸ hk) hpath h)

/-- **The place of a component ends with the name of its file**, unless it is the output directory
itself. -/
theorem target_ends_with {here here' : Place} {output : Path} {a : Artifact} {place : Place}
    {file root name : String} (hslash : '/' ∉ name.toList) (hsegment : Path.isSegment name = true)
    (hdots : name ≠ "..") (hpath : a.path = artifactPath here file root name)
    (h : target here' output a = .ok place) :
    place = Place.resolve here' output ∨ ∃ dir, place = dir ++ [name] := by
  obtain ⟨dir, hbeside⟩ := Place.beside_eq_concat here file hslash hsegment hdots
  exact target_ends_with_last hslash hsegment hdots hbeside hpath h

end Store

end DemoPages
