import DemoPages.Proofs.Names
import DemoPages.Proofs.Routes

/-!
# Names decode

The name of a component tells its beginning, its index and the digits of its page
(`componentName_inj`), and the name of its file tells the extension too (`append_extension_inj`).
The place of the file ends with its name where the route from the project root goes down to it;
where the root lies at or below the file there is no way down, and the place is the output directory
itself. So files with different names lie at different places, but for that one
(`artifactName_decodes`).
-/

namespace DemoPages

/-! ### Names and file names -/

theorem componentName_inj {file file' : String} {i j : Int} {p q : String} :
    componentName file i p = componentName file' j q ↔
      p = q ∧ i = j ∧ (Digest.md5 file).toList.take 8 = (Digest.md5 file').toList.take 8 := by
  constructor
  · intro h
    obtain ⟨hstart, hmark, hindex⟩ := eq_of_componentName_eq h
    unfold Digest.mark at hmark
    exact ⟨hstart, Text.decimal_inj hindex, hmark⟩
  · rintro ⟨rfl, rfl, hmark⟩
    rw [componentName, componentName, hmark]

theorem append_extension_inj {name name' x x' : String} (hx : Settings.isExtension x = true)
    (hx' : Settings.isExtension x' = true) : name ++ x = name' ++ x' ↔ name = name' ∧ x = x' := by
  constructor
  · intro h
    obtain rfl := name_eq_of_append_extension_eq hx hx' h
    exact ⟨rfl, (String.append_right_inj name).1 h⟩
  · rintro ⟨rfl, rfl⟩
    rfl

/-! ### Routes -/

namespace Place

/-- From below a place, the route to it only leads up. -/
theorem route_of_prefix {start target : Place} (h : target <+: start) :
    ∃ k, route start target = List.replicate k ".." := by
  have hmeet := (isMeet_take_common start target).longest target h List.prefix_rfl
  have hshared := hmeet.length_le
  rw [length_take_common] at hshared
  refine ⟨start.length - common start target, ?_⟩
  rw [route, List.drop_eq_nil_of_le hshared, List.append_nil]

/-- From anywhere else, it ends with the last step down. -/
theorem exists_route_concat {start dir : Place} {name : String} (h : ¬ dir ++ [name] <+: start) :
    ∃ way, route start (dir ++ [name]) = way ++ [name] := by
  have hmeet := isMeet_take_common start (dir ++ [name])
  have hlength := length_take_common start (dir ++ [name])
  have hshared : common start (dir ++ [name]) ≤ dir.length := by
    by_contra hlong
    refine h ?_
    rw [← hmeet.right.eq_of_length_le (by
      rw [hlength, List.length_append, List.length_singleton]
      omega)]
    exact hmeet.left
  rw [route, List.drop_append_of_le_length hshared, ← List.append_assoc]
  exact ⟨_, rfl⟩

/-- Is the project root the place of the file `name` beside the page `file`, or something below? -/
def RootWithin (here : Place) (file root name : String) : Prop :=
  beside here file name <+: resolve here (.ofString root)

instance (here : Place) (file root name : String) : Decidable (RootWithin here file root name) :=
  inferInstanceAs (Decidable (_ <+: _))

end Place

/-! ### Places -/

namespace Store

variable {here here' : Place} {output : Path} {a : Artifact} {place : Place}
  {file root name : String}

/-- With the root within, the file lies in place of the output directory. -/
theorem target_of_rootWithin (within : Place.RootWithin here file root name)
    (hpath : a.path = artifactPath here file root name) (h : target here' output a = .ok place) :
    place = Place.resolve here' output := by
  obtain ⟨k, hroute⟩ := Place.route_of_prefix within
  exact target_of_route_replicate hroute hpath h

/-- Otherwise its place ends with its name. -/
theorem target_of_not_rootWithin (hslash : '/' ∉ name.toList)
    (hsegment : Path.isSegment name = true) (hdots : name ≠ "..")
    (without : ¬ Place.RootWithin here file root name)
    (hpath : a.path = artifactPath here file root name) (h : target here' output a = .ok place) :
    ∃ dir, place = dir ++ [name] := by
  obtain ⟨dir, hbeside⟩ := Place.beside_eq_concat here file hslash hsegment hdots
  unfold Place.RootWithin at without
  rw [hbeside] at without
  obtain ⟨way, hroute⟩ := Place.exists_route_concat without
  exact target_of_route_concat hslash hsegment hdots (hbeside ▸ hroute) hpath h

end Store

/-- **Names decode.** For pages with a path, all indices and all beginnings, there is a name, and
two names are the same if and only if the beginnings, the indices and the first eight digits of the
pages are. With extensions behind them, the names of the files are the same if and only if the
extensions are, too. Files at one place below an output directory, with beginnings that hold no
slash, have one name, unless the place is the output directory itself and the project root of one of
them is the place of the component or something below; any file with the root so lies there, if it
lies anywhere. -/
theorem artifactName_decodes {f g : String} (hf : f ≠ "") (hg : g ≠ "") (i j : Int)
    (p q : String) :
    artifactName f i p = .ok (componentName f i p) ∧
    artifactName g j q = .ok (componentName g j q) ∧
    (artifactName f i p = artifactName g j q ↔
      p = q ∧ i = j ∧ (Digest.md5 f).toList.take 8 = (Digest.md5 g).toList.take 8) ∧
    ∀ x y : String, Settings.isExtension x = true → Settings.isExtension y = true →
      (componentName f i p ++ x = componentName g j q ++ y ↔
        (p = q ∧ i = j ∧ (Digest.md5 f).toList.take 8 = (Digest.md5 g).toList.take 8) ∧ x = y) ∧
      ∀ (here₁ here₂ here : Place) (root₁ root₂ : String) (output : Path) (a b : Artifact)
        (place : Place), a.path = artifactPath here₁ f root₁ (componentName f i p ++ x) →
        b.path = artifactPath here₂ g root₂ (componentName g j q ++ y) →
        Store.target here output a = .ok place →
        (Place.RootWithin here₁ f root₁ (componentName f i p ++ x) →
          place = Place.resolve here output) ∧
        ('/' ∉ p.toList → '/' ∉ q.toList → Store.target here output b = .ok place →
          componentName f i p = componentName g j q ∧ x = y ∨
            place = Place.resolve here output ∧
              (Place.RootWithin here₁ f root₁ (componentName f i p ++ x) ∨
                Place.RootWithin here₂ g root₂ (componentName g j q ++ y))) := by
  have hname : artifactName f i p = .ok (componentName f i p) := if_neg hf
  have hname' : artifactName g j q = .ok (componentName g j q) := if_neg hg
  refine ⟨hname, hname', ?_, fun x y hx hy => ⟨?_, ?_⟩⟩
  · rw [hname, hname', Except.ok.injEq]
    exact componentName_inj
  · rw [append_extension_inj hx hy, componentName_inj]
  · intro here₁ here₂ here root₁ root₂ output a b place ha hb hat
    refine ⟨fun within => Store.target_of_rootWithin within ha hat, fun hp hq hbt => ?_⟩
    by_cases within : Place.RootWithin here₁ f root₁ (componentName f i p ++ x)
    · exact Or.inr ⟨Store.target_of_rootWithin within ha hat, Or.inl within⟩
    by_cases within' : Place.RootWithin here₂ g root₂ (componentName g j q ++ y)
    · exact Or.inr ⟨Store.target_of_rootWithin within' hb hbt, Or.inr within'⟩
    -- Both places end with the names of their files.
    left
    obtain ⟨hsegment, hdots, hslash⟩ := @isSegment_componentFile f i p x hp hx
    obtain ⟨hsegment', hdots', hslash'⟩ := @isSegment_componentFile g j q y hq hy
    obtain ⟨dir, rfl⟩ := Store.target_of_not_rootWithin hslash hsegment hdots within ha hat
    obtain ⟨dir', hplace⟩ := Store.target_of_not_rootWithin hslash' hsegment' hdots' within' hb hbt
    have hlast := (List.append_inj' hplace (by
      rw [List.length_singleton, List.length_singleton])).2
    exact (append_extension_inj hx hy).1 (List.cons.inj hlast).1

/-- An index and its opposite, behind a beginning that looks like digits and an index. -/
theorem artifactName_decodes_signs :
    let file (index : Int) := componentName "/docs/x.md" index "I3e8846eaI" ++ ".vue"
    let component (index : Int) : Artifact := ⟨componentName "/docs/x.md" index "I3e8846eaI",
      artifactPath [] "/docs/x.md" "/docs" (file index), "<a/>"⟩
    artifactName "/docs/x.md" 1 "I3e8846eaI" ≠ artifactName "/docs/x.md" (-1) "I3e8846eaI" ∧
      file 1 ≠ file (-1) ∧
      Store.target [] (.ofString "out") (component 1) = .ok ["out", file 1] ∧
      Store.target [] (.ofString "out") (component (-1)) ≠ .ok ["out", file 1] := by
  intro file component
  obtain ⟨-, -, hnames, hfiles⟩ := artifactName_decodes (f := "/docs/x.md") (g := "/docs/x.md")
    (by decide) (by decide) 1 (-1) "I3e8846eaI" "I3e8846eaI"
  obtain ⟨hfile, hplaces⟩ := hfiles ".vue" ".vue" (by decide +kernel) (by decide +kernel)
  have hat : Store.target [] (.ofString "out") (component 1) = .ok ["out", file 1] := by
    decide +kernel
  have hpath (index : Int) : (component index).path = artifactPath [] "/docs/x.md" "/docs"
      (componentName "/docs/x.md" index "I3e8846eaI" ++ ".vue") := by
    dsimp only [component, file]
  refine ⟨fun h => ?_, fun h => ?_, hat, fun h => ?_⟩
  · exact absurd (hnames.1 h).2.1 (by decide)
  · exact absurd (hfile.1 h).1.2.1 (by decide)
  · rcases (hplaces [] [] [] "/docs" "/docs" (.ofString "out") (component 1) (component (-1))
      ["out", file 1] (hpath 1) (hpath (-1)) hat).2 (by decide) (by decide) h with
      ⟨hname, -⟩ | ⟨hplace, -⟩
    · exact absurd (componentName_inj.1 hname).2.1 (by decide)
    · exact absurd (congrArg List.length hplace) (by decide)

namespace Store

/-- Two components whose project roots are the places of the components have different names, and
one place. -/
theorem target_shared :
    let first : Artifact := ⟨"VueCode3e8846eaI0",
      artifactPath [] "/docs/x.md" "/docs/VueCode3e8846eaI0.vue" "VueCode3e8846eaI0.vue", "<a/>"⟩
    let second : Artifact := ⟨"VueCodebcdeec84I0",
      artifactPath [] "/docs/y.md" "/docs/VueCodebcdeec84I0.vue" "VueCodebcdeec84I0.vue", "<b/>"⟩
    artifactName "/docs/x.md" 0 "VueCode" = .ok first.name ∧
      artifactName "/docs/y.md" 0 "VueCode" = .ok second.name ∧ first.name ≠ second.name ∧
      target [] (.ofString "out") first = .ok ["out"] ∧
      target [] (.ofString "out") second = .ok ["out"] := by
  decide +kernel

end Store

end DemoPages
