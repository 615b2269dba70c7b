import DemoPages.Proofs.Demos

/-!
# Rewriting a page in one recursion

`Extractor.rewrite` turns a page into the page with references by one recursion over its blocks,
which looks at each block once and at its place among its siblings. Collecting the replacements and
putting them in one by one comes to the same (`splice_replacements`): a replacement touches the
block that its demo stood at and no other, so the later ones still find theirs.
-/

namespace DemoPages

namespace Extractor

variable (e : Extractor)

mutual

/-- What the block at `index` becomes after the codes `shown`: a demo becomes its reference, a
group keeps its kind, any other block stays. -/
def rewriteAt (shown : List String) (index : Nat) : Node → Node
  | .code l info value =>
    if l = e.options.lang then e.reference index info (e.shows shown value)
    else .code l info value
  | .group kind children => .group kind (rewriteFrom shown 0 children)
  | n => n

/-- What some siblings become, the first of which stands at `index`. -/
def rewriteFrom (shown : List String) (index : Nat) : List Node → List Node
  | [] => []
  | n :: ns =>
    rewriteAt shown index n :: rewriteFrom (shown ++ n.codes e.options.lang) (index + 1) ns

end

/-- What the blocks of a page become after the codes `shown`. -/
def rewrite (shown : List String) (blocks : List Node) : List Node := e.rewriteFrom shown 0 blocks

end Extractor

/-! ### Replacements below a group -/

/-- A demo below the group at `g`, as seen from there. -/
def Demo.below (g : Nat) (demo : Demo) : Demo := { demo with groups := g :: demo.groups }

/-- A replacement below the group at `g`, as seen from there. -/
def Replacement.below (g : Nat) (r : Replacement) : Replacement :=
  { r with groups := g :: r.groups }

namespace Demo

mutual

theorem ofNode_cons (lang : String) (g : Nat) (groups : List Nat) (siblings index : Nat) :
    ∀ n : Node, ofNode lang (g :: groups) siblings index n =
      (ofNode lang groups siblings index n).map (below g)
  | .code l info v => by
    by_cases h : l = lang <;> simp [ofNode, below, h]
  | .group _ children => by
    rw [ofNode, ofNode, List.cons_append]
    exact ofNodes_cons lang g _ _ 0 children
  | .raw _ _ => by simp [ofNode]
  | .frontMatter _ => by simp [ofNode]
  | .markup _ => by simp [ofNode]
  | .reference _ _ => by simp [ofNode]

theorem ofNodes_cons (lang : String) (g : Nat) (groups : List Nat) (siblings index : Nat) :
    ∀ ns : List Node, ofNodes lang (g :: groups) siblings index ns =
      (ofNodes lang groups siblings index ns).map (below g)
  | [] => by simp [ofNodes]
  | n :: ns => by
    rw [ofNodes, ofNodes, List.map_append, ofNode_cons lang g groups siblings index n,
      ofNodes_cons lang g groups siblings (index + 1) ns]

end

end Demo

theorem Extractor.replacements_map_below (e : Extractor) (here : Place) (g : Nat)
    (shown : List String) (demos : List Demo) :
    e.replacements here shown (demos.map (Demo.below g)) =
      (e.replacements here shown demos).map (Replacement.below g) := by
  induction demos generalizing shown with
  | nil => rfl
  | cons d ds ih =>
    simp only [List.map_cons, replacements]
    rw [show (Demo.below g d).value = d.value from rfl, ih]
    rfl

namespace Replacement

/-! ### Putting replacements in -/

theorem apply_below (pre post children : List Node) (kind : GroupKind) (r : Replacement) :
    apply (pre ++ .group kind children :: post) (r.below pre.length) =
      pre ++ .group kind (apply children r) :: post := by
  show putAt r.index r.node (pre.length :: r.groups) _ = _
  simp [putAt, apply]

theorem splice_below (pre post children : List Node) (kind : GroupKind) (rs : List Replacement) :
    splice (pre ++ .group kind children :: post) (rs.map (below pre.length)) =
      pre ++ .group kind (splice children rs) :: post := by
  induction rs generalizing children with
  | nil => rfl
  | cons r rs ih =>
    show splice (apply _ (r.below pre.length)) _ = _
    rw [apply_below, ih]
    rfl

theorem splice_append (blocks : List Node) (as bs : List Replacement) :
    splice blocks (as ++ bs) = splice (splice blocks as) bs := List.foldl_append

section Splice

variable (e : Extractor) (here : Place)

mutual

/-- The replacements of one block put in what it becomes, and leave its siblings. -/
theorem splice_ofNode (siblings : Nat) :
    ∀ (n : Node) (shown : List String) (pre post : List Node),
      splice (pre ++ n :: post)
          (e.replacements here shown (Demo.ofNode e.options.lang [] siblings pre.length n)) =
        pre ++ e.rewriteAt shown pre.length n :: post
  | .code l info value, shown, pre, post => by
    by_cases h : l = e.options.lang
    · simp [Demo.ofNode, Extractor.rewriteAt, h, Extractor.replacements, splice, apply, putAt,
        Extractor.replacement]
    · simp [Demo.ofNode, Extractor.rewriteAt, h, Extractor.replacements, splice]
  | .group kind children, shown, pre, post => by
    rw [Demo.ofNode, Extractor.rewriteAt, List.nil_append, Demo.ofNodes_cons,
      Extractor.replacements_map_below, splice_below]
    have inside := splice_ofNodes children.length children shown []
    rw [List.nil_append, List.length_nil] at inside
    rw [inside, List.nil_append]
  | .raw _ _, shown, pre, post => by
    simp [Demo.ofNode, Extractor.rewriteAt, Extractor.replacements, splice]
  | .frontMatter _, shown, pre, post => by
    simp [Demo.ofNode, Extractor.rewriteAt, Extractor.replacements, splice]
  | .markup _, shown, pre, post => by
    simp [Demo.ofNode, Extractor.rewriteAt, Extractor.replacements, splice]
  | .reference _ _, shown, pre, post => by
    simp [Demo.ofNode, Extractor.rewriteAt, Extractor.replacements, splice]

/-- The replacements of some siblings put in what they become, behind the siblings before them. -/
theorem splice_ofNodes (siblings : Nat) :
    ∀ (ns : List Node) (shown : List String) (pre : List Node),
      splice (pre ++ ns)
          (e.replacements here shown (Demo.ofNodes e.options.lang [] siblings pre.length ns)) =
        pre ++ e.rewriteFrom shown pre.length ns
  | [], shown, pre => by
    simp [Demo.ofNodes, Extractor.rewriteFrom, Extractor.replacements, splice]
  | n :: ns, shown, pre => by
    rw [Demo.ofNodes, Extractor.rewriteFrom, Extractor.replacements_append, splice_append,
      splice_ofNode siblings n shown pre ns, Demo.map_value_ofNode]
    have rest := splice_ofNodes siblings ns (shown ++ n.codes e.options.lang)
      (pre ++ [e.rewriteAt shown pre.length n])
    simpa using rest

end

/-- Putting in all replacements of a page rewrites it. -/
theorem splice_replacements (shown : List String) (blocks : List Node) :
    splice blocks (e.replacements here shown (Demo.find blocks e.options.lang)) =
      e.rewrite shown blocks := by
  have h := splice_ofNodes e here blocks.length blocks shown []
  rw [List.nil_append, List.length_nil, List.nil_append] at h
  exact h

end Splice

end Replacement

end DemoPages
