import DemoPages.Layout
import DemoPages.Proofs.Pieces

/-!
# Folding references

A page is laid out in two steps: the indices of its references are collected, and the page is made
anew from them. `columns_eq_fold` says that this comes to one recursion, `fold`, which goes on to
the first reference and takes away those behind it; what folding keeps is read off there
(`columns_folds`).
-/

namespace DemoPages

/-- The text of a reference. -/
def Node.referenceValue? : Node → Option String
  | .reference _ value => some value
  | _ => none

/-- A block with what stands inside it changed, if it is a group. -/
def Node.mapInside (f : List Node → List Node) : Node → Node
  | .group kind children => .group kind (f children)
  | n => n

@[simp] theorem Node.isReference_mapInside (f : List Node → List Node) (n : Node) :
    (n.mapInside f).isReference = n.isReference := by
  cases n <;> rfl

namespace Layout

/-- The blocks with `w` for the first reference and without the others. -/
def fold (w : Node) : List Node → List Node
  | [] => []
  | b :: bs =>
    if b.isReference then w :: bs.filter fun b => !b.isReference else b :: fold w bs

/-! ### One recursion -/

theorem fold_of_no_reference (w : Node) {blocks : List Node}
    (h : ∀ b ∈ blocks, b.isReference = false) : fold w blocks = blocks := by
  induction blocks with
  | nil => rfl
  | cons b bs ih =>
    simp only [fold, h b List.mem_cons_self, Bool.false_eq_true, if_false]
    rw [ih fun b hb => h b (List.mem_cons_of_mem _ hb)]

/-- Folding finds the first reference, and takes away those behind it. -/
theorem fold_append_cons (w : Node) {before after : List Node} {reference : Node}
    (href : reference.isReference = true) (hbefore : ∀ b ∈ before, b.isReference = false) :
    fold w (before ++ reference :: after) =
      before ++ w :: after.filter fun b => !b.isReference := by
  induction before with
  | nil => simp [fold, href]
  | cons b bs ih =>
    have hb := hbefore b List.mem_cons_self
    rw [List.cons_append, fold, if_neg (by simp [hb]),
      ih fun b hb => hbefore b (List.mem_cons_of_mem _ hb), List.cons_append]

/-- A page has no reference at its top level, or a first one. -/
theorem first_cases (blocks : List Node) :
    (∀ b ∈ blocks, b.isReference = false) ∨
      ∃ before reference after, blocks = before ++ reference :: after ∧
        reference.isReference = true ∧ ∀ b ∈ before, b.isReference = false := by
  induction blocks with
  | nil => exact Or.inl fun b hb => by cases hb
  | cons b bs ih =>
    by_cases hb : b.isReference = true
    · exact Or.inr ⟨[], b, bs, rfl, hb, fun b hb => by cases hb⟩
    · rw [Bool.not_eq_true] at hb
      rcases ih with hnone | ⟨before, reference, after, rfl, href, hbefore⟩
      · exact Or.inl (List.forall_mem_cons.2 ⟨hb, hnone⟩)
      · exact Or.inr
          ⟨b :: before, reference, after, rfl, href, List.forall_mem_cons.2 ⟨hb, hbefore⟩⟩

/-! ### Two steps come to one recursion -/

/-- What stands at the indices of the references is the references. -/
theorem filterMap_indices (blocks : List Node) :
    (indices blocks).filterMap (fun i => blocks[i]?) = blocks.filter Node.isReference := by
  have hget : ∀ p ∈ blocks.zipIdx.filter fun p => p.1.isReference, blocks[p.2]? = some p.1 :=
    fun p hp => List.mem_zipIdx_iff_getElem?.1 (List.mem_of_mem_filter hp)
  have hfilter : (blocks.zipIdx.filter fun p => p.1.isReference).map Prod.fst =
      (blocks.zipIdx.map Prod.fst).filter Node.isReference := by
    rw [List.filter_map]
    rfl
  calc (indices blocks).filterMap (fun i => blocks[i]?)
    _ = (blocks.zipIdx.filter fun p => p.1.isReference).filterMap fun p => blocks[p.2]? := by
      rw [indices, List.filterMap_map]
      rfl
    _ = (blocks.zipIdx.filter fun p => p.1.isReference).filterMap (some ∘ Prod.fst) :=
      List.filterMap_congr hget
    _ = (blocks.zipIdx.filter fun p => p.1.isReference).map Prod.fst := by
      rw [List.filterMap_eq_map]
    _ = blocks.filter Node.isReference := by
      rw [hfilter, List.zipIdx_map_fst]

theorem filter_zipIdx_of_no_reference {blocks : List Node}
    (h : ∀ b ∈ blocks, b.isReference = false) (start : Nat) :
    (blocks.zipIdx start).filter (fun p => p.1.isReference) = [] := by
  refine List.filter_eq_nil_iff.2 fun p hp => ?_
  rw [h p.1 (List.fst_mem_of_mem_zipIdx hp)]
  exact Bool.false_ne_true

theorem indices_of_no_reference {blocks : List Node} (h : ∀ b ∈ blocks, b.isReference = false) :
    indices blocks = [] := by
  rw [indices, filter_zipIdx_of_no_reference h, List.map_nil]

/-- The first index is that of the first reference. -/
theorem indices_append_cons {before : List Node} {reference : Node} (after : List Node)
    (href : reference.isReference = true) (hbefore : ∀ b ∈ before, b.isReference = false) :
    ∃ others, indices (before ++ reference :: after) = before.length :: others := by
  rw [indices, List.zipIdx_append, List.filter_append, filter_zipIdx_of_no_reference hbefore,
    List.nil_append, List.zipIdx_cons, List.filter_cons_of_pos (by simpa using href), List.map_cons,
    Nat.zero_add]
  exact ⟨_, rfl⟩

/-- The blocks that do not stand at the first index are kept unless they are references. -/
theorem rebuilt_of_ne (w : Node) {blocks : List Node} {first start : Nat}
    (h : ∀ p ∈ blocks.zipIdx start, p.2 ≠ first) :
    (((blocks.zipIdx start).filter fun p => p.2 = first || !p.1.isReference).map
        fun p => if p.2 = first then w else p.1) =
      blocks.filter fun b => !b.isReference := by
  have hfilter : (blocks.zipIdx start).filter (fun p => p.2 = first || !p.1.isReference) =
      (blocks.zipIdx start).filter ((fun b => !b.isReference) ∘ Prod.fst) :=
    List.filter_congr fun p hp => by simp [h p hp]
  have hmap : ∀ p ∈ (blocks.zipIdx start).filter ((fun b => !b.isReference) ∘ Prod.fst),
      (if p.2 = first then w else p.1) = p.1 :=
    fun p hp => if_neg (h p (List.mem_of_mem_filter hp))
  rw [hfilter, List.map_congr_left hmap, ← List.filter_map, List.zipIdx_map_fst]

/-- The page made anew has `w` at the first index, what stands in front of it, and what stands
behind it and is no reference. -/
theorem rebuilt_append_cons (w reference : Node) {before : List Node} (after : List Node)
    (hbefore : ∀ b ∈ before, b.isReference = false) :
    (((before ++ reference :: after).zipIdx.filter
        fun p => p.2 = before.length || !p.1.isReference).map
        fun p => if p.2 = before.length then w else p.1) =
      before ++ w :: after.filter fun b => !b.isReference := by
  have hfront : ∀ p ∈ before.zipIdx, p.2 ≠ before.length := by
    intro p hp
    have := List.snd_lt_of_mem_zipIdx hp
    omega
  have hback : ∀ p ∈ after.zipIdx (before.length + 1), p.2 ≠ before.length := by
    intro p hp
    have := List.le_snd_of_mem_zipIdx hp
    omega
  have hkept : before.filter (fun b => !b.isReference) = before :=
    List.filter_eq_self.2 fun b hb => by simp [hbefore b hb]
  rw [List.zipIdx_append, List.zipIdx_cons, Nat.zero_add, List.filter_append, List.map_append,
    rebuilt_of_ne w hfront, hkept, List.filter_cons_of_pos (by simp), List.map_cons, if_pos rfl,
    rebuilt_of_ne w hback]

/-! ### Columns -/

theorem columns_of_le {blocks : List Node} {count : Int} {component : String} (h : count ≤ 1) :
    columns blocks count component = blocks := if_pos h

/-- **Two steps come to one recursion.** -/
theorem columns_eq_fold (blocks : List Node) {count : Int} (component : String) (h : 1 < count) :
    columns blocks count component =
      fold (wrapper component count (blocks.filter Node.isReference)) blocks := by
  rw [columns, if_neg (by omega)]
  rcases first_cases blocks with hnone | ⟨before, reference, after, rfl, href, hbefore⟩
  · rw [indices_of_no_reference hnone, fold_of_no_reference _ hnone]
  · obtain ⟨others, hindices⟩ := indices_append_cons after href hbefore
    rw [hindices, fold_append_cons _ href hbefore, ← filterMap_indices, hindices]
    exact rebuilt_append_cons _ reference after hbefore

theorem columns_of_no_reference {blocks : List Node} (count : Int) (component : String)
    (h : ∀ b ∈ blocks, b.isReference = false) : columns blocks count component = blocks := by
  by_cases hcount : count ≤ 1
  · exact columns_of_le hcount
  · rw [columns_eq_fold blocks component (by omega), fold_of_no_reference _ h]

/-- A block in front that is no reference stays in front. -/
theorem columns_cons_of_not_reference {b : Node} (hb : b.isReference = false) (blocks : List Node)
    (count : Int) (component : String) :
    columns (b :: blocks) count component = b :: columns blocks count component := by
  by_cases hcount : count ≤ 1
  · rw [columns_of_le hcount, columns_of_le hcount]
  · have hlt : 1 < count := by omega
    rw [columns_eq_fold _ component hlt, columns_eq_fold _ component hlt,
      List.filter_cons_of_neg (by simp [hb]), fold, if_neg (by simp [hb])]

theorem columns_markup_cons (text : String) (blocks : List Node) {count : Int} {component : String}
    (h : 1 < count) :
    columns (.markup text :: blocks) count component =
      .markup text :: fold (wrapper component count (blocks.filter Node.isReference)) blocks := by
  rw [columns_cons_of_not_reference rfl, columns_eq_fold blocks component h]

/-! ### What folding keeps -/

theorem map_referenceText_filter (blocks : List Node) :
    (blocks.filter Node.isReference).map referenceText = blocks.filterMap Node.referenceValue? := by
  induction blocks with
  | nil => rfl
  | cons b bs ih =>
    cases b with
    | reference name value =>
      rw [List.filter_cons_of_pos rfl, List.map_cons, ih]
      rfl
    | _ => exact ih

/-- No reference is left. -/
theorem not_isReference_of_mem_fold {w : Node} (hw : w.isReference = false) {blocks : List Node} :
    ∀ b ∈ fold w blocks, b.isReference = false := by
  induction blocks with
  | nil => exact fun b hb => by cases hb
  | cons b bs ih =>
    by_cases hb : b.isReference = true
    · rw [fold, if_pos hb]
      refine List.forall_mem_cons.2 ⟨hw, fun c hc => ?_⟩
      simpa using (List.mem_filter.1 hc).2
    · rw [fold, if_neg hb]
      exact List.forall_mem_cons.2 ⟨by simpa using hb, ih⟩

/-- A page stays as it is only where there is nothing to fold. -/
theorem columns_eq_self_iff {blocks : List Node} {count : Int} (component : String) :
    columns blocks count component = blocks ↔
      count ≤ 1 ∨ ∀ b ∈ blocks, b.isReference = false := by
  constructor
  · intro h
    by_cases hcount : count ≤ 1
    · exact Or.inl hcount
    · rw [columns_eq_fold blocks component (by omega)] at h
      exact Or.inr fun b hb => not_isReference_of_mem_fold rfl b (h.symm ▸ hb)
  · rintro (hcount | hnone)
    · exact columns_of_le hcount
    · exact columns_of_no_reference count component hnone

/-- What stands inside the groups has no part in it. -/
theorem fold_map_mapInside (f : List Node → List Node) {w : Node} (hw : w.mapInside f = w)
    (blocks : List Node) :
    fold w (blocks.map (Node.mapInside f)) = (fold w blocks).map (Node.mapInside f) := by
  induction blocks with
  | nil => rfl
  | cons b bs ih =>
    rw [List.map_cons, fold, fold, Node.isReference_mapInside]
    split
    · rw [List.map_cons, hw, List.filter_map]
      congr 3
      funext c
      simp
    · rw [List.map_cons, ih]

theorem filterMap_referenceValue?_mapInside (f : List Node → List Node) (blocks : List Node) :
    (blocks.map (Node.mapInside f)).filterMap Node.referenceValue? =
      blocks.filterMap Node.referenceValue? := by
  rw [List.filterMap_map]
  refine List.filterMap_congr fun b _ => ?_
  cases b <;> rfl

theorem columns_map_mapInside (f : List Node → List Node) (blocks : List Node) (count : Int)
    (component : String) :
    columns (blocks.map (Node.mapInside f)) count component =
      (columns blocks count component).map (Node.mapInside f) := by
  by_cases hcount : count ≤ 1
  · rw [columns_of_le hcount, columns_of_le hcount]
  · have hlt : 1 < count := by omega
    rw [columns_eq_fold _ component hlt, columns_eq_fold _ component hlt, wrapper, wrapper,
      map_referenceText_filter, map_referenceText_filter, filterMap_referenceValue?_mapInside]
    exact fold_map_mapInside f rfl blocks

/-- **References are folded into one block, and nothing else changes.** In one column, or without
a reference at the top level, a page stays as it is. Otherwise the first of its references makes
room for the block that holds the texts of all of them, in their order, and the others go; around
that block stand all other blocks, in their order. To lay out a page again, in any number of
columns, changes nothing. What stands inside the groups has no part in it, and stays. A block in
front that is no reference stays in front. -/
theorem columns_folds (blocks : List Node) (component : String) :
    (∀ count : Int, (count ≤ 1 ∨ ∀ b ∈ blocks, b.isReference = false) →
      columns blocks count component = blocks) ∧
    (∀ (count : Int) before name value after, 1 < count →
      blocks = before ++ .reference name value :: after →
      (∀ b ∈ before, b.isReference = false) →
      columns blocks count component =
          before ++
            .markup ("<" ++ component ++ " columns=\"" ++ Text.decimal count ++ "\">" ++
              Text.joinWith "" (blocks.filterMap Node.referenceValue?) ++
              "</" ++ component ++ ">") ::
            after.filter (fun b => !b.isReference) ∧
        before ++ after.filter (fun b => !b.isReference) =
          blocks.filter fun b => !b.isReference) ∧
    (∀ (count count' : Int) component', 1 < count →
      columns (columns blocks count component) count' component' =
        columns blocks count component) ∧
    (∀ (count : Int) f, columns (blocks.map (Node.mapInside f)) count component =
      (columns blocks count component).map (Node.mapInside f)) ∧
    ∀ (count : Int) b, b.isReference = false →
      columns (b :: blocks) count component = b :: columns blocks count component := by
  refine ⟨fun count h => ?_, fun count before name value after hlt hblocks hbefore => ⟨?_, ?_⟩,
    fun count count' component' hlt => ?_, fun count f => columns_map_mapInside f blocks count _,
    fun count b hb => columns_cons_of_not_reference hb blocks count component⟩
  · rcases h with hle | hnone
    · exact columns_of_le hle
    · exact columns_of_no_reference count component hnone
  · subst hblocks
    rw [columns_eq_fold _ component hlt, fold_append_cons _ rfl hbefore, wrapper,
      map_referenceText_filter]
  · have hkept : before.filter (fun b => !b.isReference) = before :=
      List.filter_eq_self.2 fun b hb => by simp [hbefore b hb]
    rw [hblocks, List.filter_append, hkept, List.filter_cons_of_neg (by simp [Node.isReference])]
  · rw [columns_eq_fold blocks component hlt]
    exact columns_of_no_reference _ _ (not_isReference_of_mem_fold rfl)

/-- Three columns: the references around a paragraph are folded behind the imports, and the one in a
group stays. -/
theorem columns_folds_across_prose :
    let imports : Node := .markup "<script setup>\n</script>"
    let group : Node := .group (.named "list") [.reference "C" "<c/>"]
    columns [imports, .reference "A" "<a/>", .raw "paragraph" "between", group,
        .reference "B" "<b/>"] 3 "VueMarkdown" =
      [imports, .markup "<VueMarkdown columns=\"3\"><a/><b/></VueMarkdown>",
        .raw "paragraph" "between", group] := by
  intro imports group
  have hfold := (columns_folds [imports, .reference "A" "<a/>", .raw "paragraph" "between", group,
    .reference "B" "<b/>"] "VueMarkdown").2.1 3 [imports] "A" "<a/>"
    [.raw "paragraph" "between", group, .reference "B" "<b/>"] (by decide) rfl
    (by simp [imports, Node.isReference])
  exact hfold.1

end Layout

end DemoPages
