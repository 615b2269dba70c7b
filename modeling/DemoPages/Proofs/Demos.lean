import DemoPages.Pass
import DemoPages.Proofs.Effects

/-!
# The demos of a page, in the order of its text

`Node.codes` and `Extractor.components` read the codes and the components off a page by one
recursion over its blocks. `find` lists the demos in that order (`map_value_find`,
`map_component_find`), and replacements are computed in that order: if all are there, each code was
shown once (`ofDemos_ok`), and if one fails, the codes up to it were shown (`ofDemos_error`).
-/

namespace DemoPages

/-! ### Codes and components -/

mutual

/-- The codes of the demos at a block or below it. -/
def Node.codes (lang : String) : Node → List String
  | .code l _ value => if l = lang then [value] else []
  | .group _ children => Node.codesOf lang children
  | _ => []

/-- The codes of the demos of some blocks. -/
def Node.codesOf (lang : String) : List Node → List String
  | [] => []
  | n :: ns => n.codes lang ++ Node.codesOf lang ns

end

namespace Extractor

variable (e : Extractor) (here : Place)

/-- The name of the component at `index` among its siblings. -/
def nameAt (index : Nat) : String := componentName e.file index e.options.namePrefix

/-- The component of a code at `index` among its siblings. -/
def component (index : Nat) (code : String) : Artifact where
  name := e.nameAt index
  path := artifactPath here e.file e.root (e.nameAt index ++ e.options.extension)
  code := code

mutual

/-- The components of the demos at the block that stands at `index`, or below it. -/
def componentsAt (index : Nat) : Node → List Artifact
  | .code l _ value => if l = e.options.lang then [e.component here index value] else []
  | .group _ children => componentsFrom 0 children
  | _ => []

/-- The components of the demos of some siblings, the first of which stands at `index`. -/
def componentsFrom (index : Nat) : List Node → List Artifact
  | [] => []
  | n :: ns => componentsAt index n ++ componentsFrom (index + 1) ns

end

/-- The components of the demos of a page. -/
def components (blocks : List Node) : List Artifact := e.componentsFrom here 0 blocks

end Extractor

/-! ### Finding follows the order of the text -/

namespace Demo

mutual

theorem map_value_ofNode (lang : String) (groups : List Nat) (siblings index : Nat) :
    ∀ n : Node, (ofNode lang groups siblings index n).map value = n.codes lang
  | .code l info v => by
    by_cases h : l = lang <;> simp [ofNode, Node.codes, h]
  | .group _ children => by
    rw [ofNode, Node.codes]
    exact map_value_ofNodes lang _ _ 0 children
  | .raw _ _ => by simp [ofNode, Node.codes]
  | .frontMatter _ => by simp [ofNode, Node.codes]
  | .markup _ => by simp [ofNode, Node.codes]
  | .reference _ _ => by simp [ofNode, Node.codes]

theorem map_value_ofNodes (lang : String) (groups : List Nat) (siblings index : Nat) :
    ∀ ns : List Node, (ofNodes lang groups siblings index ns).map value = Node.codesOf lang ns
  | [] => by simp [ofNodes, Node.codesOf]
  | n :: ns => by
    rw [ofNodes, Node.codesOf, List.map_append, map_value_ofNode lang groups siblings index n,
      map_value_ofNodes lang groups siblings (index + 1) ns]

end

theorem map_value_find (blocks : List Node) (lang : String) :
    (find blocks lang).map value = Node.codesOf lang blocks :=
  map_value_ofNodes lang [] blocks.length 0 blocks

section Components

variable (e : Extractor) (here : Place)

mutual

theorem map_component_ofNode (groups : List Nat) (siblings index : Nat) :
    ∀ n : Node, (ofNode e.options.lang groups siblings index n).map
      (fun d => e.component here d.index d.value) = e.componentsAt here index n
  | .code l info v => by
    by_cases h : l = e.options.lang <;> simp [ofNode, Extractor.componentsAt, h]
  | .group _ children => by
    rw [ofNode, Extractor.componentsAt]
    exact map_component_ofNodes _ _ 0 children
  | .raw _ _ => by simp [ofNode, Extractor.componentsAt]
  | .frontMatter _ => by simp [ofNode, Extractor.componentsAt]
  | .markup _ => by simp [ofNode, Extractor.componentsAt]
  | .reference _ _ => by simp [ofNode, Extractor.componentsAt]

theorem map_component_ofNodes (groups : List Nat) (siblings index : Nat) :
    ∀ ns : List Node, (ofNodes e.options.lang groups siblings index ns).map
      (fun d => e.component here d.index d.value) = e.componentsFrom here index ns
  | [] => by simp [ofNodes, Extractor.componentsFrom]
  | n :: ns => by
    rw [ofNodes, Extractor.componentsFrom, List.map_append,
      map_component_ofNode groups siblings index n,
      map_component_ofNodes groups siblings (index + 1) ns]

end

theorem map_component_find (blocks : List Node) :
    (find blocks e.options.lang).map (fun d => e.component here d.index d.value) =
      e.components here blocks :=
  map_component_ofNodes e here [] blocks.length 0 blocks

end Components

end Demo

/-! ### Replacements are computed in that order -/

/-- The component that shows a demo: what the last token with the preview key gives it, if that
token has a value. -/
def Options.wrapperFor (o : Options) (info : Option String) : String :=
  match (Attributes.tokens info).reverse.find? fun t => t.key = o.previewKey with
  | some ⟨_, .text value⟩ => value
  | _ => o.wrapper

theorem Options.component_parse (o : Options) (info : Option String) :
    o.component (Attributes.parse info) = o.wrapperFor info := by
  unfold component wrapperFor Attributes.parse Attributes.ofTokens
  rw [Keyed.get?_foldl_put]
  cases (Attributes.tokens info).reverse.find? fun t => t.key = o.previewKey with
  | none => simp
  | some t =>
    obtain ⟨key, value⟩ := t
    cases value <;> simp

namespace Extractor

variable (e : Extractor) (here : Place)

/-- The text that shows a code, nothing if the highlighter gives up. -/
def shows (shown : List String) (code : String) : String :=
  match e.highlighter shown code with
  | .ok text => text
  | .error _ => ""

/-- The highlighter gives up on the code at an index, and on none in front of it. -/
structure GivesUp (shown codes : List String) (n : Nat) (code : String) (f : Fault) : Prop where
  nth : codes[n]? = some code
  fails : e.highlighter (shown ++ codes.take n) code = .error f
  earlier : ∀ m < n, ∀ code, codes[m]? = some code →
    ∃ text, e.highlighter (shown ++ codes.take m) code = .ok text

/-- The reference that stands for the demo at `index`, shown as `text`. -/
def reference (index : Nat) (info : Option String) (text : String) : Node :=
  .reference (e.nameAt index)
    (referenceMarkup (e.options.wrapperFor info) (e.nameAt index) text
      ((Attributes.tokens info).map Token.param))

/-- What a demo becomes that is shown as `text`. -/
def replacement (text : String) (demo : Demo) : Replacement where
  groups := demo.groups
  index := demo.index
  node := e.reference demo.index demo.info text
  artifact := e.component here demo.index demo.value

/-- What some demos become after the codes `shown`. -/
def replacements : (shown : List String) → List Demo → List Replacement
  | _, [] => []
  | shown, demo :: demos =>
    e.replacement here (e.shows shown demo.value) demo :: replacements (shown ++ [demo.value]) demos

variable {e} in
/-- There is one code at most that a highlighter gives up on first. -/
theorem GivesUp.fault_eq {shown codes : List String} {n m : Nat} {code code' : String}
    {f f' : Fault} (h : e.GivesUp shown codes n code f) (h' : e.GivesUp shown codes m code' f') :
    f = f' := by
  rcases Nat.lt_trichotomy n m with hlt | rfl | hlt
  · obtain ⟨text, shows⟩ := h'.earlier n hlt code h.nth
    cases shows.symm.trans h.fails
  · obtain rfl := Option.some.inj (h.nth.symm.trans h'.nth)
    exact Except.error.inj (h.fails.symm.trans h'.fails)
  · obtain ⟨text, shows⟩ := h.earlier m hlt code' h'.nth
    cases shows.symm.trans h'.fails

theorem replacements_append (shown : List String) (as bs : List Demo) :
    e.replacements here shown (as ++ bs) =
      e.replacements here shown as ++ e.replacements here (shown ++ as.map Demo.value) bs := by
  induction as generalizing shown with
  | nil => simp [replacements]
  | cons a as ih => simp [replacements, ih]

theorem map_artifact_replacements (shown : List String) (demos : List Demo) :
    (e.replacements here shown demos).map Replacement.artifact =
      demos.map fun d => e.component here d.index d.value := by
  induction demos generalizing shown with
  | nil => rfl
  | cons d ds ih =>
    rw [replacements, List.map_cons, List.map_cons, ih]
    rfl

end Extractor

namespace Replacement

open Effect

variable {e : Extractor} {here : Place} {shown shown' : List String}

theorem ofDemo_ok {demo : Demo} {r : Replacement}
    (h : ofDemo here e.file e.root e.highlighter e.options demo shown = .ok r shown') :
    e.file ≠ "" ∧ (∃ text, e.highlighter shown demo.value = .ok text) ∧
      shown' = shown ++ [demo.value] ∧
      r = e.replacement here (e.shows shown demo.value) demo := by
  simp only [ofDemo, bind_ok, ofExcept_ok] at h
  obtain ⟨name, u, ⟨hname, rfl⟩, text, v, htext, hr⟩ := h
  have hfile : e.file ≠ "" := by
    intro h0
    simp [artifactName, h0] at hname
  rw [artifactName, if_neg hfile] at hname
  cases hname
  unfold showCode at htext
  cases hshow : e.highlighter shown demo.value with
  | error f => rw [hshow] at htext; cases htext
  | ok t =>
    rw [hshow] at htext
    cases htext
    cases hr
    refine ⟨hfile, ⟨_, rfl⟩, rfl, ?_⟩
    simp [Extractor.replacement, Extractor.reference, Extractor.component, Extractor.shows,
      Extractor.nameAt, hshow, ← Options.component_parse, Attributes.parse, Attributes.ofTokens]

theorem ofDemo_error {demo : Demo} {f : Fault}
    (h : ofDemo here e.file e.root e.highlighter e.options demo shown = .error f shown') :
    (e.file = "" ∧ f = .emptyIdentity ∧ shown' = shown) ∨
      (e.highlighter shown demo.value = .error f ∧ shown' = shown ++ [demo.value]) := by
  simp only [ofDemo, bind_error, ofExcept_ok, ofExcept_error] at h
  rcases h with ⟨hname, rfl⟩ | ⟨name, u, ⟨-, rfl⟩, htext | ⟨text, v, -, hr⟩⟩
  · left
    by_cases hfile : e.file = ""
    · rw [artifactName, if_pos hfile] at hname
      cases hname
      exact ⟨hfile, rfl, rfl⟩
    · rw [artifactName, if_neg hfile] at hname
      cases hname
  · right
    unfold showCode at htext
    cases hshow : e.highlighter shown demo.value with
    | error f' =>
      rw [hshow] at htext
      cases htext
      exact ⟨rfl, rfl⟩
    | ok t => rw [hshow] at htext; cases htext
  · cases hr

/-- If all demos have become something, every code was shown once, in order. -/
theorem ofDemos_ok {demos : List Demo} {rs : List Replacement}
    (h : ofDemos here e.file e.root e.highlighter e.options demos shown = .ok rs shown') :
    (demos ≠ [] → e.file ≠ "") ∧ shown' = shown ++ demos.map Demo.value ∧
      rs = e.replacements here shown demos ∧
      ∀ n code, (demos.map Demo.value)[n]? = some code →
        ∃ text, e.highlighter (shown ++ (demos.map Demo.value).take n) code = .ok text := by
  induction demos generalizing shown rs with
  | nil =>
    cases h
    simp [Extractor.replacements]
  | cons d ds ih =>
    simp only [ofDemos, bind_ok] at h
    obtain ⟨r, u, hr, rs', v, hrs, hdone⟩ := h
    cases hdone
    obtain ⟨hfile, htext, rfl, rfl⟩ := ofDemo_ok hr
    obtain ⟨-, rfl, rfl, hcalls⟩ := ih hrs
    refine ⟨fun _ => hfile, by simp, rfl, ?_⟩
    intro n code hn
    cases n with
    | zero =>
      simp only [List.map_cons, List.getElem?_cons_zero, Option.some.injEq] at hn
      subst hn
      simpa using htext
    | succ n =>
      have := hcalls n code (by simpa using hn)
      simpa using this

/-- If a demo fails, the codes up to it were shown, and its own was the last, which is the first
that the highlighter gives up on. -/
theorem ofDemos_error {demos : List Demo} {f : Fault}
    (h : ofDemos here e.file e.root e.highlighter e.options demos shown = .error f shown') :
    (e.file = "" ∧ f = .emptyIdentity ∧ shown' = shown) ∨
      ∃ n code, e.GivesUp shown (demos.map Demo.value) n code f ∧
        shown' = shown ++ (demos.map Demo.value).take (n + 1) := by
  induction demos generalizing shown with
  | nil => cases h
  | cons d ds ih =>
    simp only [ofDemos, bind_error] at h
    rcases h with hd | ⟨r, u, hr, hds | ⟨rs, v, -, hdone⟩⟩
    · rcases ofDemo_error hd with hunnamed | ⟨hcall, rfl⟩
      · exact Or.inl hunnamed
      · exact Or.inr ⟨0, d.value, ⟨by simp, by simpa using hcall, by simp⟩, by simp⟩
    · obtain ⟨hfile, htext, rfl, -⟩ := ofDemo_ok hr
      rcases ih hds with ⟨hfile', -⟩ | ⟨n, code, gives, rfl⟩
      · exact absurd hfile' hfile
      · refine Or.inr ⟨n + 1, code, ⟨by simpa using gives.nth, by simpa using gives.fails, ?_⟩,
          by simp⟩
        intro m hm code' hcode
        cases m with
        | zero =>
          simp only [List.map_cons, List.getElem?_cons_zero, Option.some.injEq] at hcode
          subst hcode
          simpa using htext
        | succ m => simpa using gives.earlier m (by omega) code' (by simpa using hcode)
    · cases hdone

end Replacement

end DemoPages
