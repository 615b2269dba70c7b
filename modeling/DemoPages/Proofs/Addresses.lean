import Mathlib.Data.List.Sort
import Mathlib.Order.Basic
import DemoPages.Proofs.Endings

/-!
# Where the demos of a page stand

An address leads from a tree down to one of its blocks: the indices of the blocks on the way, from
the outermost. The demos that are found are those that stand in the tree, each at its own address
(`Demo.mem_addresses`), and they are found in the order of their addresses (`Demo.sorted_find`). So
where the demos stand tells in which order they are found (`Demo.addresses_eq`), and by that all of
their components but the codes (`Extractor.map_components`). Rewriting a page puts the reference of
each demo at the address of the demo (`Extractor.at?_rewrite`).
-/

namespace DemoPages

/-! ### Addresses -/

namespace Node

/-- The blocks that a block holds. -/
def children : Node → List Node
  | .group _ children => children
  | _ => []

/-- The block at an address below `n`, if the address does not leave the tree. -/
def at? (n : Node) : List Nat → Option Node
  | [] => some n
  | i :: rest => n.children[i]?.bind fun c => c.at? rest

@[simp] theorem at?_nil (n : Node) : n.at? [] = some n := rfl

theorem at?_cons (n : Node) (i : Nat) (rest : List Nat) :
    n.at? (i :: rest) = n.children[i]?.bind fun c => c.at? rest := rfl

/-- Does a demo stand at an address? -/
def HasDemo (lang : String) (n : Node) (address : List Nat) : Prop :=
  ∃ info value, n.at? address = some (.code lang info value)

end Node

namespace Demo

/-- The address of a demo in its page. -/
def address (d : Demo) : List Nat := d.groups ++ [d.index]

theorem address_below (g : Nat) (d : Demo) : (below g d).address = g :: d.address := rfl

/-- The block that a demo was found as. -/
def node (d : Demo) : Node := .code d.lang d.info d.value

/-! ### The demos found are those that stand there -/

/-- The demos of a group are those of its blocks, one level down. -/
theorem ofNode_group (lang : String) (siblings index : Nat) (kind : GroupKind) (cs : List Node) :
    ofNode lang [] siblings index (.group kind cs) =
      (ofNodes lang [] cs.length 0 cs).map (below index) := by
  rw [ofNode, List.nil_append]
  exact ofNodes_cons lang index [] cs.length 0 cs

mutual

/-- A demo found at a block is one of its demos, under the index of the block. -/
theorem exists_of_mem_ofNode {lang : String} {siblings index : Nat} {d : Demo} :
    ∀ n : Node, d ∈ ofNode lang [] siblings index n →
      d.lang = lang ∧ ∃ rest, d.address = index :: rest ∧ n.at? rest = some d.node
  | .code l info value, h => by
    rw [ofNode] at h
    split at h
    · rename_i hl
      rw [List.mem_singleton.1 h]
      exact ⟨hl, [], rfl, rfl⟩
    · cases h
  | .group kind cs, h => by
    rw [ofNode_group] at h
    obtain ⟨d, hd, rfl⟩ := List.mem_map.1 h
    obtain ⟨hlang, j, rest, haddress, hat⟩ := exists_of_mem_ofNodes cs hd
    rw [Nat.zero_add] at haddress
    refine ⟨hlang, j :: rest, by rw [address_below, haddress], ?_⟩
    exact hat
  | .raw _ _, h => by cases h
  | .frontMatter _, h => by cases h
  | .markup _, h => by cases h
  | .reference _ _, h => by cases h

/-- A demo found at some siblings, the first of which stands at `index`. -/
theorem exists_of_mem_ofNodes {lang : String} {siblings index : Nat} {d : Demo} :
    ∀ ns : List Node, d ∈ ofNodes lang [] siblings index ns →
      d.lang = lang ∧ ∃ j rest, d.address = (index + j) :: rest ∧
        (ns[j]?.bind fun c => c.at? rest) = some d.node
  | [], h => by cases h
  | n :: ns, h => by
    rw [ofNodes] at h
    rcases List.mem_append.1 h with h | h
    · obtain ⟨hlang, rest, haddress, hat⟩ := exists_of_mem_ofNode n h
      exact ⟨hlang, 0, rest, haddress, hat⟩
    · obtain ⟨hlang, j, rest, haddress, hat⟩ := exists_of_mem_ofNodes ns h
      refine ⟨hlang, j + 1, rest, ?_, ?_⟩
      · rw [haddress, Nat.add_assoc, Nat.add_comm 1]
      · rw [List.getElem?_cons_succ, hat]

end

mutual

/-- Where a demo stands at a block or below it, one is found. -/
theorem exists_mem_ofNode (siblings index : Nat) {lang : String} {rest : List Nat} :
    ∀ n : Node, n.HasDemo lang rest →
      ∃ d ∈ ofNode lang [] siblings index n, d.address = index :: rest
  | .code l info value, ⟨i, v, h⟩ => by
    cases rest with
    | nil =>
      obtain ⟨rfl, rfl, rfl⟩ := Node.code.inj (Option.some.inj h)
      exact ⟨⟨[], index, siblings, l, info, value⟩, by simp [ofNode], rfl⟩
    | cons j rest => cases h
  | .group kind cs, ⟨i, v, h⟩ => by
    cases rest with
    | nil => cases h
    | cons j rest =>
      obtain ⟨d, hd, haddress⟩ := exists_mem_ofNodes cs.length 0 cs h
      refine ⟨below index d, ?_, ?_⟩
      · rw [ofNode_group]
        exact List.mem_map_of_mem hd
      · rw [address_below, haddress, Nat.zero_add]
  | .raw _ _, ⟨i, v, h⟩ => by cases rest <;> cases h
  | .frontMatter _, ⟨i, v, h⟩ => by cases rest <;> cases h
  | .markup _, ⟨i, v, h⟩ => by cases rest <;> cases h
  | .reference _ _, ⟨i, v, h⟩ => by cases rest <;> cases h

/-- Where a demo stands at some siblings or below them, one is found. -/
theorem exists_mem_ofNodes (siblings index : Nat) {lang : String} {j : Nat} {rest : List Nat}
    {info : Option String} {value : String} :
    ∀ ns : List Node, (ns[j]?.bind fun c => c.at? rest) = some (.code lang info value) →
      ∃ d ∈ ofNodes lang [] siblings index ns, d.address = (index + j) :: rest
  | [], h => by simp at h
  | n :: ns, h => by
    cases j with
    | zero =>
      obtain ⟨d, hd, haddress⟩ :=
        exists_mem_ofNode siblings index n ⟨info, value, h⟩
      exact ⟨d, by rw [ofNodes]; exact List.mem_append_left _ hd, haddress⟩
    | succ j =>
      rw [List.getElem?_cons_succ] at h
      obtain ⟨d, hd, haddress⟩ :=
        exists_mem_ofNodes siblings (index + 1) ns h
      refine ⟨d, by rw [ofNodes]; exact List.mem_append_right _ hd, ?_⟩
      rw [haddress, Nat.add_assoc, Nat.add_comm 1]

end

/-- Demos are found at an address if and only if one stands there. -/
theorem mem_addresses {lang : String} {blocks : List Node} {a : List Nat} :
    a ∈ (find blocks lang).map address ↔ (Node.group .root blocks).HasDemo lang a := by
  constructor
  · intro h
    obtain ⟨d, hd, rfl⟩ := List.mem_map.1 h
    obtain ⟨hlang, j, rest, haddress, hat⟩ := exists_of_mem_ofNodes blocks hd
    rw [Nat.zero_add] at haddress
    rw [haddress]
    exact ⟨d.info, d.value, hlang ▸ hat⟩
  · rintro ⟨info, value, h⟩
    cases a with
    | nil => cases h
    | cons j rest =>
      obtain ⟨d, hd, haddress⟩ := exists_mem_ofNodes blocks.length 0 blocks h
      rw [Nat.zero_add] at haddress
      exact List.mem_map.2 ⟨d, hd, haddress⟩

/-- A demo is found at the address at which it stands. -/
theorem at?_of_mem_find {lang : String} {blocks : List Node} {d : Demo} (h : d ∈ find blocks lang) :
    (Node.group .root blocks).at? d.address = some (.code lang d.info d.value) := by
  obtain ⟨hlang, j, rest, haddress, hat⟩ := exists_of_mem_ofNodes blocks h
  rw [Nat.zero_add] at haddress
  rw [haddress, ← hlang]
  exact hat

/-! ### They are found in the order of their addresses -/

mutual

theorem sorted_ofNode (lang : String) (siblings index : Nat) :
    ∀ n : Node, ((ofNode lang [] siblings index n).map address).Pairwise (· < ·)
  | .code l info value => by
    rw [ofNode]
    split <;> simp
  | .group kind cs => by
    rw [ofNode_group, List.map_map]
    have inside := sorted_ofNodes lang cs.length 0 cs
    rw [List.pairwise_map] at inside ⊢
    exact inside.imp fun h => List.Lex.cons h
  | .raw _ _ => List.Pairwise.nil
  | .frontMatter _ => List.Pairwise.nil
  | .markup _ => List.Pairwise.nil
  | .reference _ _ => List.Pairwise.nil

theorem sorted_ofNodes (lang : String) (siblings index : Nat) :
    ∀ ns : List Node, ((ofNodes lang [] siblings index ns).map address).Pairwise (· < ·)
  | [] => List.Pairwise.nil
  | n :: ns => by
    rw [ofNodes, List.map_append, List.pairwise_append]
    refine ⟨sorted_ofNode lang siblings index n, sorted_ofNodes lang siblings (index + 1) ns, ?_⟩
    intro a ha b hb
    obtain ⟨d, hd, rfl⟩ := List.mem_map.1 ha
    obtain ⟨d', hd', rfl⟩ := List.mem_map.1 hb
    obtain ⟨-, rest, haddress, -⟩ := exists_of_mem_ofNode n hd
    obtain ⟨-, j, rest', haddress', -⟩ := exists_of_mem_ofNodes ns hd'
    rw [haddress, haddress']
    exact List.Lex.rel (by omega)

end

theorem sorted_find (blocks : List Node) (lang : String) :
    ((find blocks lang).map address).Pairwise (· < ·) :=
  sorted_ofNodes lang blocks.length 0 blocks

/-- **Where the demos of two pages stand tells in which order they are found.** -/
theorem addresses_eq {blocks blocks' : List Node} {lang : String}
    (h : ∀ a, (Node.group .root blocks).HasDemo lang a ↔
      (Node.group .root blocks').HasDemo lang a) :
    (find blocks lang).map address = (find blocks' lang).map address := by
  refine (sorted_find blocks lang).eq_of_mem_iff (sorted_find blocks' lang) fun a => ?_
  rw [mem_addresses, mem_addresses, h a]

/-- So it tells their indices. -/
theorem indices_eq {blocks blocks' : List Node} {lang : String}
    (h : ∀ a, (Node.group .root blocks).HasDemo lang a ↔
      (Node.group .root blocks').HasDemo lang a) :
    (find blocks lang).map index = (find blocks' lang).map index := by
  have hindex (ds : List Demo) :
      ds.map index = (ds.map address).map fun a => a.getLastD 0 := by
    simp [address]
  rw [hindex, hindex, addresses_eq h]

end Demo

/-- What does not depend on the code of a component is told by the indices of the demos. -/
theorem Extractor.map_components (e : Extractor) (here : Place) {β : Type} {g : Artifact → β}
    {k : Nat → β} (h : ∀ index code, g (e.component here index code) = k index)
    (blocks : List Node) :
    (e.components here blocks).map g =
      ((Demo.find blocks e.options.lang).map Demo.index).map k := by
  rw [← Demo.map_component_find, List.map_map, List.map_map]
  exact List.map_congr_left fun d _ => h d.index d.value

/-! ### Rewriting at an address -/

namespace Extractor

variable (e : Extractor)

theorem getElem?_rewriteFrom (shown : List String) (index : Nat) (ns : List Node) (j : Nat) :
    ∃ shown', (e.rewriteFrom shown index ns)[j]? = ns[j]?.map (e.rewriteAt shown' (index + j)) := by
  induction ns generalizing shown index j with
  | nil => exact ⟨shown, by simp [rewriteFrom]⟩
  | cons n ns ih =>
    rw [rewriteFrom]
    cases j with
    | zero => exact ⟨shown, by simp⟩
    | succ j =>
      obtain ⟨shown', h⟩ := ih (shown ++ n.codes e.options.lang) (index + 1) j
      refine ⟨shown', ?_⟩
      rw [List.getElem?_cons_succ, List.getElem?_cons_succ, h, Nat.add_assoc, Nat.add_comm 1]

/-- **The reference of a demo stands where the demo stood.** -/
theorem at?_rewrite (shown : List String) {groups : List Nat} {index : Nat} {info : Option String}
    {value : String} {kind : GroupKind} {blocks : List Node}
    (h : (Node.group kind blocks).at? (groups ++ [index]) =
      some (.code e.options.lang info value)) :
    ∃ text, (Node.group kind (e.rewrite shown blocks)).at? (groups ++ [index]) =
      some (e.reference index info text) := by
  induction groups generalizing shown kind blocks with
  | nil =>
    obtain ⟨shown', hat⟩ := e.getElem?_rewriteFrom shown 0 blocks index
    rw [List.nil_append, Node.at?_cons] at h ⊢
    obtain ⟨n, hn, hcode⟩ := Option.bind_eq_some_iff.1 h
    cases hcode
    refine ⟨e.shows shown' value, ?_⟩
    show ((e.rewriteFrom shown 0 blocks)[index]?.bind fun c => c.at? []) = _
    rw [hat, show blocks[index]? = _ from hn]
    simp [rewriteAt]
  | cons g groups ih =>
    obtain ⟨shown', hat⟩ := e.getElem?_rewriteFrom shown 0 blocks g
    rw [List.cons_append, Node.at?_cons] at h ⊢
    obtain ⟨n, hn, hcode⟩ := Option.bind_eq_some_iff.1 h
    have hgroup : ∃ kind' cs, n = .group kind' cs := by
      cases n with
      | group kind' cs => exact ⟨kind', cs, rfl⟩
      | _ => cases groups <;> cases hcode
    obtain ⟨kind', cs, rfl⟩ := hgroup
    obtain ⟨text, htext⟩ := ih shown' hcode
    refine ⟨text, ?_⟩
    show ((e.rewriteFrom shown 0 blocks)[g]?.bind fun c => c.at? (groups ++ [index])) = _
    rw [hat, show blocks[g]? = _ from hn, ← htext]
    simp [rewriteAt, rewrite]

end Extractor

end DemoPages
