import Mathlib.Data.List.Forall2
import Mathlib.Data.List.TakeDrop
import DemoPages.Page
import DemoPages.Proofs.Coverage
import DemoPages.Proofs.Pieces

/-!
# What a page keeps of its text

The blocks of a page are taken from its text by line numbers. Where line feeds are the only line
ends, the numbers that the reader of blocks counts are those of the text (`getElem?_linesOf`), so a
line that something covers stands in the source of that block (`exists_mem_source`).

Which blocks there are is up to the reader of the page. Of its tokens it is only asked that the
outermost ones begin the blocks that some rules find, going through the text from the top
(`Rules.Yields`); a rule may also take lines without making a block, as it does for the definition
of a link. Those lines are lost: `lines_kept` says that every other line is kept, and
`definition_lost` shows one that is not.
-/

namespace DemoPages

open Text

/-! ### Lines with their ends -/

namespace Text

/-- Pieces of a text with the line feeds behind them; there is none behind the last one. -/
def ended : List (List Char) → List (List Char)
  | [] => []
  | [p] => if p = [] then [] else [p]
  | p :: ps => (p ++ ['\n']) :: ended ps

theorem ended_cons (p : List Char) {ps : List (List Char)} (h : ps ≠ []) :
    ended (p :: ps) = (p ++ ['\n']) :: ended ps := by
  cases ps with
  | nil => exact absurd rfl h
  | cons q qs => rfl

/-- Where line feeds are the only line ends, lines are pieces between line feeds. -/
theorem lines_eq_ended {s : List Char} (h : ∀ c ∈ s, isLineEnd c = true → c = '\n') :
    lines s = ended (split '\n' s) := by
  induction s with
  | nil => rfl
  | cons c s ih =>
    have hs := ih fun d hd => h d (List.mem_cons_of_mem _ hd)
    have hc := h c List.mem_cons_self
    have hreturn : c ≠ '\r' := by
      rintro rfl
      exact absurd (hc (by decide)) (by decide)
    have hlines : lines (c :: s) = if isLineEnd c = true then [c] :: lines s
        else consLine c (lines s) := by
      rw [lines]
      rintro t rfl
      exact absurd rfl hreturn
    rw [hlines, hs, split]
    by_cases hfeed : c = '\n'
    · subst hfeed
      rw [if_pos (by decide), if_pos rfl, ended_cons [] (split_ne_nil _ s)]
      rfl
    · rw [if_neg fun hend => hfeed (hc hend), if_neg hfeed]
      cases hp : split '\n' s with
      | nil => exact absurd hp (split_ne_nil _ s)
      | cons p ps =>
        cases ps with
        | nil =>
          by_cases hnil : p = []
          · subst hnil
            rfl
          · simp [ended, consLine, consPiece, hnil]
        | cons q qs => rfl

/-- A line that is not empty, with the lines in front of it and behind it. -/
theorem ended_eq_append {ps : List (List Char)} {i : Nat} {p : List Char} (hi : ps[i]? = some p)
    (hne : p ≠ []) :
    ∃ front stop back, ended ps = front ++ (p ++ stop) :: back ∧ front.length = i ∧
      (∀ l ∈ front, ∃ t, l = t ++ ['\n']) ∧ (stop = ['\n'] ∨ stop = [] ∧ back = []) := by
  induction ps generalizing i with
  | nil => cases hi
  | cons q ps ih =>
    cases i with
    | zero =>
      cases hi
      cases ps with
      | nil =>
        refine ⟨[], [], [], ?_, rfl, by simp, Or.inr ⟨rfl, rfl⟩⟩
        simp [ended, hne]
      | cons r rs => exact ⟨[], ['\n'], ended (r :: rs), rfl, rfl, by simp, Or.inl rfl⟩
    | succ i =>
      rw [List.getElem?_cons_succ] at hi
      obtain ⟨front, stop, back, hended, hlength, hfront, hstop⟩ := ih hi
      have hps : ps ≠ [] := by
        rintro rfl
        cases hi
      refine ⟨(q ++ ['\n']) :: front, stop, back, ?_, by rw [List.length_cons, hlength], ?_, hstop⟩
      · rw [ended_cons q hps, hended, List.cons_append]
      · intro l hl
        rcases List.mem_cons.1 hl with rfl | hl
        · exact ⟨q, rfl⟩
        · exact hfront l hl

theorem endsAt_flatten {ls : List (List Char)} (h : ∀ l ∈ ls, ∃ t, l = t ++ ['\n']) :
    EndsAt '\n' ls.flatten := by
  induction ls using List.reverseRecOn with
  | nil => exact Or.inl rfl
  | append_singleton ls l _ =>
    obtain ⟨t, rfl⟩ := h l (by simp)
    exact Or.inr ⟨ls.flatten ++ t, by simp⟩

/-- A line with something on it stays when white space is taken from the end of the text, but for
white space at its own end. -/
theorem exists_mem_split_trimEnd {front line back : List Char} (hfront : EndsAt '\n' front)
    (hback : BeginsAt '\n' back) (hline : '\n' ∉ line) (hsome : ∃ c ∈ line, isBlank c = false) :
    ∃ l ∈ split '\n' (trimEnd (front ++ line ++ back)), l = line ∨ l = trimEnd line := by
  obtain ⟨c, hc, hblank⟩ := hsome
  by_cases hall : ∀ d ∈ back, isBlank d = true
  · refine ⟨trimEnd line, ?_, Or.inr rfl⟩
    have hfeed : '\n' ∉ trimEnd line := fun h =>
      hline ((List.rdropWhile_prefix isBlank line).subset h)
    rw [trimEnd_append_of_blank _ hall, trimEnd_append_of_not_blank front hc hblank]
    have hmem : trimEnd line ∈ split '\n' (front ++ trimEnd line ++ []) :=
      mem_split_append hfront (Or.inl rfl)
        (by rw [split_of_not_mem hfeed]; exact List.mem_singleton_self _)
    rwa [List.append_nil] at hmem
  · refine ⟨line, ?_, Or.inl rfl⟩
    have hback' : ∃ t, trimEnd back = '\n' :: t := by
      rcases hback with rfl | ⟨t, rfl⟩
      · exact absurd (by simp) hall
      · have ht : ∃ d ∈ t, isBlank d = false := by
          by_contra hnone
          refine hall fun d hd => ?_
          rcases List.mem_cons.1 hd with rfl | hd
          · decide
          · by_contra hd'
            exact hnone ⟨d, hd, by simpa using hd'⟩
        obtain ⟨d, hd, hd'⟩ := ht
        exact ⟨trimEnd t, trimEnd_append_of_not_blank ['\n'] hd hd'⟩
    obtain ⟨d, hd, hd'⟩ : ∃ d ∈ back, isBlank d = false := by
      by_contra hnone
      refine hall fun d hd => ?_
      by_contra hd'
      exact hnone ⟨d, hd, by simpa using hd'⟩
    rw [trimEnd_append_of_not_blank _ hd hd']
    exact mem_split_append hfront (Or.inr hback')
      (by rw [split_of_not_mem hline]; exact List.mem_singleton_self _)

/-- A text keeps its pieces when it is joined with others at line feeds. -/
theorem exists_toList_joinWith {s : String} {ss : List String} (h : s ∈ ss) :
    ∃ front back, (joinWith "\n\n" ss).toList = front ++ s.toList ++ back ∧
      EndsAt '\n' front ∧ BeginsAt '\n' back := by
  induction ss with
  | nil => cases h
  | cons t ss ih =>
    by_cases hss : ss = []
    · subst hss
      rw [List.mem_singleton] at h
      subst h
      exact ⟨[], [], by simp [joinWith], Or.inl rfl, Or.inl rfl⟩
    · rw [joinWith_cons "\n\n" t hss]
      rcases List.mem_cons.1 h with rfl | h
      · exact ⟨[], '\n' :: '\n' :: (joinWith "\n\n" ss).toList, by simp, Or.inl rfl,
          Or.inr ⟨_, rfl⟩⟩
      · obtain ⟨front, back, heq, hfront, hback⟩ := ih h
        refine ⟨t.toList ++ '\n' :: '\n' :: front, back, by simp [heq], Or.inr ?_, hback⟩
        rcases hfront with rfl | ⟨u, rfl⟩
        · exact ⟨t.toList ++ ['\n'], by simp⟩
        · exact ⟨t.toList ++ '\n' :: '\n' :: u, by simp⟩

end Text

/-- Every line in the source of a block is one of the text of the page. -/
theorem mem_split_pageText {blocks : List Node} {n : Node} (hn : n ∈ blocks) {l : List Char}
    (hl : l ∈ split '\n' n.source.toList) (hne : l ≠ []) :
    l ∈ split '\n' (pageText blocks).toList := by
  have hmem : n.source ∈ Node.sources blocks := by
    rw [Node.sources_eq_map]
    exact List.mem_map_of_mem hn
  obtain ⟨front, back, heq, hfront, hback⟩ := exists_toList_joinWith hmem
  have hbody : l ∈ split '\n' (joinWith "\n\n" (Node.sources blocks)).toList := by
    rw [heq]
    exact mem_split_append hfront hback hl
  have hsome : joinWith "\n\n" (Node.sources blocks) ≠ "" := by
    intro h0
    rw [h0] at hbody
    exact hne (List.mem_singleton.1 hbody)
  rw [pageText, Node.pageText, Node.source, if_neg hsome, String.toList_append]
  exact mem_split_append (Or.inl rfl) (Or.inr ⟨[], rfl⟩) hbody

namespace Markdown

/-! ### The lines that blocks are read from -/

/-- What stands on a line for the reader of blocks: a sign for each character of number zero. -/
def signed (line : List Char) : List Char := line.map fun c => if c = '\x00' then '\ufffd' else c

theorem unifyLineEnds_of_not_mem {s : List Char} (h : '\r' ∉ s) : unifyLineEnds s = s := by
  induction s with
  | nil => rfl
  | cons c s ih =>
    rw [List.mem_cons, not_or] at h
    rw [unifyLineEnds, if_neg (Ne.symm h.1), ih h.2]
    rintro t rfl
    exact absurd rfl h.1

theorem split_normalize (s : List Char) :
    split '\n' (normalize s) = (split '\n' (unifyLineEnds s)).map signed := by
  refine split_map fun c _ => ?_
  by_cases hc : c = '\x00'
  · subst hc
    decide
  · rw [if_neg hc]

theorem not_all_isPad_signed {line : List Char} (h : ∃ c ∈ line, isBlank c = false) :
    (signed line).all isPad = false := by
  obtain ⟨c, hc, hblank⟩ := h
  have hmem : (if c = '\x00' then '\ufffd' else c) ∈ signed line := List.mem_map_of_mem hc
  rw [Bool.eq_false_iff]
  intro hall
  have hpad := List.all_eq_true.1 hall _ hmem
  split at hpad
  · exact absurd hpad (by decide)
  · rw [isBlank_of_isPad hpad] at hblank
    cases hblank

theorem column_ofChars (s : List Char) : 0 ≤ (Line.ofChars s).column :=
  le_advance 0 0 _

theorem isEmpty_ofChars {s : List Char} (h : s.all isPad = false) :
    (Line.ofChars s).isEmpty = false := by
  have htext : (Line.ofChars s).text = s.dropWhile isPad := by
    simp [Line.ofChars, List.span_eq_takeWhile_dropWhile]
  rw [Line.isEmpty, htext, Bool.eq_false_iff]
  intro hnil
  rw [List.isEmpty_iff, List.dropWhile_eq_nil_iff] at hnil
  rw [List.all_eq_true.2 hnil] at h
  cases h

/-- A line with something on it has the same number for the reader of blocks. -/
theorem getElem?_linesOf {s : List Char} (h : '\r' ∉ s) {i : Nat} {line : List Char}
    (hi : (split '\n' s)[i]? = some line) (hsome : ∃ c ∈ line, isBlank c = false) :
    (linesOf s)[i]? = some (Line.ofChars (signed line)) := by
  have hpieces : ((split '\n' s).map signed)[i]? = some (signed line) := by
    rw [List.getElem?_map, hi]
    rfl
  have hpad := not_all_isPad_signed hsome
  rw [linesOf, split_normalize, unifyLineEnds_of_not_mem h, List.getElem?_map]
  split
  · rename_i hlast
    have hlt : i < ((split '\n' s).map signed).length := (List.getElem?_eq_some_iff.1 hpieces).1
    have hshort : i < ((split '\n' s).map signed).length - 1 := by
      refine Nat.lt_of_le_of_ne (by omega) fun heq => ?_
      rw [List.getLastD_eq_getLast?, List.getLast?_eq_getElem?, ← heq, hpieces] at hlast
      rw [Option.getD_some, hpad] at hlast
      cases hlast
    rw [List.dropLast_eq_take, List.getElem?_take_of_lt hshort, hpieces]
    rfl
  · rw [hpieces]
    rfl

/-! ### Blocks as nodes -/

/-- The node of a block. -/
def Block.node (lines : List (List Char)) (b : Block) : Node :=
  if b.kind = .fence then b.token.fencedCode else .raw b.kind.name (b.token.source lines)

/-- The name of a token tells the kind of its block. -/
theorem blockName_token (b : Block) : b.token.blockName = b.kind.name := by
  have hkind : ∀ k : Kind,
      Token.blockName { kind := if k.isOpened then k.name ++ "_open" else k.name } = k.name := by
    intro k
    cases k <;> decide +kernel
  exact hkind b.kind

/-- Is a token the one with which a block begins? Other tokens of the block may follow it. -/
structure Token.Begins (t : Token) (b : Block) : Prop where
  kind : t.kind = b.token.kind
  lines : t.lines = b.token.lines
  code : b.kind = .fence → t.info = b.token.info ∧ t.content = b.token.content

theorem Token.begins_token (b : Block) : b.token.Begins b := ⟨rfl, rfl, fun _ => ⟨rfl, rfl⟩⟩

/-- Does a token make a node? It does unless it belongs to an inner block or ends one. -/
def Token.IsOutermost (t : Token) : Prop := t.level = 0 ∧ t.nesting ≠ -1

instance (t : Token) : Decidable t.IsOutermost := inferInstanceAs (Decidable (_ ∧ _))

theorem Token.node?_of_not_isOutermost {t : Token} (h : ¬ t.IsOutermost)
    (lines : List (List Char)) : t.node? lines = none := by
  rw [Token.node?, if_pos]
  by_contra hnot
  rw [not_or, not_not] at hnot
  exact h hnot

/-- An outermost token with which a block begins makes the node of the block. -/
theorem Token.Begins.node? {t : Token} {b : Block} (h : t.Begins b) (houter : t.IsOutermost)
    (lines : List (List Char)) : t.node? lines = some (b.node lines) := by
  have hlevel : ¬ (t.level ≠ 0 ∨ t.nesting = -1) := by
    rintro (hlevel | hnesting)
    · exact hlevel houter.1
    · exact houter.2 hnesting
  have hfence : b.token.kind = "fence" ↔ b.kind = .fence := by
    unfold Block.token
    cases b.kind <;> simp [Kind.isOpened, Kind.name]
  have hname : t.blockName = b.kind.name := by
    rw [← blockName_token, Token.blockName, Token.blockName, h.kind]
  rw [Token.node?, if_neg hlevel, hname, h.kind, Block.node]
  by_cases hkind : b.kind = .fence
  · rw [if_pos (hfence.2 hkind), if_pos hkind, Token.fencedCode, Token.fencedCode, (h.code hkind).1,
      (h.code hkind).2]
  · rw [if_neg fun h' => hkind (hfence.1 h'), if_neg hkind, Token.source, Token.source, h.lines]
    rfl

theorem Token.isOutermost_token (b : Block) : b.token.IsOutermost := by
  unfold Token.IsOutermost Block.token
  cases b.kind <;> simp [Kind.isOpened]

/-- Do the outermost of these tokens begin the blocks that the rules find in a text? -/
def Rules.Yields (rules : Rules) (s : List Char) (ts : List Token) : Prop :=
  List.Forall₂ Token.Begins (ts.filter fun t => t.IsOutermost) (rules.blocks (linesOf s))

/-- The reader of a dialect goes by the rules of the dialect. -/
theorem Dialect.yields_tokens (d : Dialect) (s : List Char) : d.rules.Yields s (tokens d s) := by
  unfold Rules.Yields tokens
  rw [List.filter_eq_self.2 fun t ht => ?_, List.forall₂_map_left_iff, List.forall₂_same]
  · exact fun b _ => Token.begins_token b
  · obtain ⟨b, -, rfl⟩ := List.mem_map.1 ht
    exact decide_eq_true (Token.isOutermost_token b)

/-- The nodes of a page are those of its blocks. -/
theorem Rules.Yields.nodes {rules : Rules} {s : List Char} {ts : List Token}
    (h : rules.Yields s ts) (lines : List (List Char)) :
    Token.nodes ts lines = (rules.blocks (linesOf s)).map (Block.node lines) := by
  unfold Rules.Yields at h
  generalize rules.blocks (linesOf s) = bs at h
  induction ts generalizing bs with
  | nil =>
    cases h
    rfl
  | cons t ts ih =>
    rw [Token.nodes, List.filterMap_cons]
    by_cases houter : t.IsOutermost
    · rw [List.filter_cons, if_pos (decide_eq_true houter)] at h
      obtain ⟨b, bs', hb, hrest, rfl⟩ := List.forall₂_cons_left_iff.1 h
      rw [hb.node? houter, List.map_cons, ← ih bs' hrest]
      rfl
    · rw [List.filter_cons, if_neg (by simpa using houter)] at h
      rw [Token.node?_of_not_isOutermost houter]
      exact ih bs h

/-- Does a block cover a line of the text? -/
def Block.Covers (b : Block) (i : Nat) : Prop := b.first ≤ i ∧ i < b.stop

theorem slice_natCast {α : Type} (xs : List α) (first stop : Nat) :
    Token.slice xs first stop = (xs.take stop).drop first := by
  have hclip : ∀ n k : Nat, Token.clip n k = min k n := by
    intro n k
    rw [Token.clip, if_neg (by omega), Int.toNat_natCast]
  have htake : xs.take (min stop xs.length) = xs.take stop := by
    rw [← List.take_take, List.take_length]
  have hdrop : ∀ ys : List α, ys.length ≤ xs.length →
      ys.drop (min first xs.length) = ys.drop first := by
    intro ys hys
    by_cases h : first ≤ xs.length
    · rw [Nat.min_eq_left h]
    · rw [List.drop_eq_nil_of_le (by omega), List.drop_eq_nil_of_le (by omega)]
  rw [Token.slice, hclip, hclip, htake, hdrop (xs.take stop) (List.length_take_le' _ _)]

/-- The source of a block holds every line with something on it that the block covers. -/
theorem exists_mem_source {s : List Char} (h : ∀ c ∈ s, isLineEnd c = true → c = '\n') {b : Block}
    {i : Nat} (hb : b.Covers i) {line : List Char} (hi : (split '\n' s)[i]? = some line)
    (hsome : ∃ c ∈ line, isBlank c = false) :
    ∃ l ∈ split '\n' (b.token.source (lines s)).toList, l = line ∨ l = trimEnd line := by
  obtain ⟨hfirst, hstop⟩ := hb
  have hfeed : '\n' ∉ line := fun hmem => (mem_of_mem_split (List.mem_of_getElem? hi) hmem).2 rfl
  have hne : line ≠ [] := by
    rintro rfl
    obtain ⟨c, hc, -⟩ := hsome
    cases hc
  obtain ⟨front, stop, back, hended, hlength, hfront, hend⟩ := ended_eq_append hi hne
  obtain ⟨more, hmore⟩ : ∃ more, b.stop - front.length = more + 1 :=
    ⟨b.stop - front.length - 1, by omega⟩
  -- The slice holds the line, with whole lines in front of it.
  have hslice : Token.slice (lines s) b.first b.stop =
      front.drop b.first ++ (line ++ stop) :: back.take more := by
    rw [lines_eq_ended h, hended, slice_natCast, List.take_append,
      List.take_of_length_le (by omega), List.drop_append_of_le_length (by omega), hmore,
      List.take_succ_cons]
  have hflatten : (Token.slice (lines s) b.first b.stop).flatten =
      (front.drop b.first).flatten ++ line ++ (stop ++ (back.take more).flatten) := by
    rw [hslice]
    simp
  have hbefore : EndsAt '\n' (front.drop b.first).flatten :=
    endsAt_flatten fun l hl => hfront l (List.mem_of_mem_drop hl)
  have hafter : BeginsAt '\n' (stop ++ (back.take more).flatten) := by
    rcases hend with rfl | ⟨rfl, rfl⟩
    · exact Or.inr ⟨_, rfl⟩
    · left
      simp
  have hsource : (b.token.source (lines s)).toList =
      trimEnd (Token.slice (lines s) b.first b.stop).flatten := by
    rw [Token.source, String.toList_ofList]
    rfl
  rw [hsource, hflatten]
  exact exists_mem_split_trimEnd hbefore hafter hfeed hsome

/-! ### What is kept -/

theorem Found.covers_iff {f : Found} {first : Nat} {b : Block} (h : f.block? first = some b)
    (i : Nat) : b.Covers i ↔ f.Covers first i := by
  obtain ⟨kind, -, rfl⟩ := Option.map_eq_some_iff.1 h
  exact Iff.rfl

namespace Rules

variable {rules : Rules}

/-- Is the line taken by a rule that makes no block of it? The line of the definition of a link
is. -/
def Drops (rules : Rules) (s : List Char) (i : Nat) : Prop :=
  ∃ p ∈ rules.found (linesOf s), p.2.kind = none ∧ p.2.Covers p.1 i

/-- A line with something on it is dropped, or one block covers it. -/
theorem Advances.covered_once (advances : rules.Advances) {s : List Char} (h : '\r' ∉ s) {i : Nat}
    {line : List Char} (hi : (split '\n' s)[i]? = some line)
    (hsome : ∃ c ∈ line, isBlank c = false) :
    (rules.Drops s i → ∀ b ∈ rules.blocks (linesOf s), ¬ b.Covers i) ∧
      (¬ rules.Drops s i → ∃ before b after, rules.blocks (linesOf s) = before ++ b :: after ∧
        b.Covers i ∧ ∀ b' ∈ before ++ after, ¬ b'.Covers i) := by
  have hcolumn : ∀ l ∈ linesOf s, 0 ≤ l.column := by
    intro l hl
    obtain ⟨p, -, rfl⟩ := List.mem_map.1 hl
    exact column_ofChars p
  obtain ⟨p, hp, hcovers⟩ := advances.exists_found hcolumn (getElem?_linesOf h hi hsome)
    (isEmpty_ofChars (not_all_isPad_signed hsome))
  obtain ⟨before, after, hfound⟩ := List.append_of_mem hp
  have hothers := not_covers_of_append hfound hcovers
  have hblocks := rules.blocks_eq_filterMap (linesOf s)
  rw [hfound, List.filterMap_append, List.filterMap_cons] at hblocks
  have hrest : ∀ b ∈ before.filterMap (fun q => q.2.block? q.1) ++
      after.filterMap (fun q => q.2.block? q.1), ¬ b.Covers i := by
    intro b hb
    rw [← List.filterMap_append] at hb
    obtain ⟨q, hq, hqb⟩ := List.mem_filterMap.1 hb
    rw [Found.covers_iff hqb]
    exact hothers q hq
  cases hb : p.2.block? p.1 with
  | none =>
    have hkind : p.2.kind = none := Option.map_eq_none_iff.1 hb
    rw [hb] at hblocks
    refine ⟨fun _ b hmem => hrest b (hblocks ▸ hmem), fun hnot => ?_⟩
    exact absurd ⟨p, hp, hkind, hcovers⟩ hnot
  | some b =>
    rw [hb] at hblocks
    refine ⟨fun ⟨q, hq, hkind, hq'⟩ => ?_, fun _ =>
      ⟨_, b, _, hblocks, (Found.covers_iff hb i).2 hcovers, hrest⟩⟩
    -- What is dropped would be another thing that covers the line.
    rw [hfound, List.mem_append, List.mem_cons, or_left_comm] at hq
    rcases hq with rfl | hq
    · rw [Found.block?, hkind] at hb
      cases hb
    · exact absurd hq' (hothers q (List.mem_append.2 hq))

end Rules

end Markdown

/-- The front matter of a text, as the first block of its page. -/
def frontBlocks (text : String) : List Node :=
  ((FrontMatter.split text.toList).1.map fun value =>
    .frontMatter (some (String.ofList value))).toList

/-- The text of a page behind its front matter. -/
def bodyOf (text : String) : List Char := (FrontMatter.split text.toList).2

namespace FrontMatter

theorem suffix_of_afterMarker? {s r : List Char} (h : afterMarker? s = some r) : r <:+ s := by
  unfold afterMarker? at h
  split at h
  · cases h
    exact ⟨['-', '-', '-'], rfl⟩
  · cases h

theorem suffix_of_mem_afterLineFeeds {s r : List Char} (h : r ∈ afterLineFeeds s) : r <:+ s := by
  induction s with
  | nil => cases h
  | cons c s ih =>
    refine List.IsSuffix.trans ?_ (List.suffix_cons c s)
    rw [afterLineFeeds] at h
    split at h
    · rcases List.mem_append.1 h with h | h
      · exact ih h
      · split at h
        · obtain rfl := List.mem_singleton.1 h
          exact List.suffix_rfl
        · cases h
    · cases h

theorem suffix_of_afterClosing? {s body : List Char} (h : afterClosing? s = some body) :
    body <:+ s := by
  obtain ⟨r, hr, hbody⟩ := Option.bind_eq_some_iff.1 h
  exact (suffix_of_mem_afterLineFeeds (List.mem_of_mem_head? hbody)).trans
    (suffix_of_afterMarker? hr)

theorem suffix_of_close? {s : List Char} {fb : List Char × List Char} (h : close? s = some fb) :
    fb.2 <:+ s := by
  induction s generalizing fb with
  | nil => cases h
  | cons c s ih =>
    refine List.IsSuffix.trans ?_ (List.suffix_cons c s)
    rw [close?] at h
    split at h
    · rename_i body hclosing
      cases h
      split at hclosing
      · exact suffix_of_afterClosing? hclosing
      · cases hclosing
    · obtain ⟨later, hlater, rfl⟩ := Option.map_eq_some_iff.1 h
      have hsuffix := ih hlater
      exact hsuffix

theorem split_suffix (s : List Char) : (split s).2 <:+ s := by
  unfold split
  split
  · rename_i front body h
    obtain ⟨r, hr, hfound⟩ := Option.bind_eq_some_iff.1 h
    obtain ⟨t, ht, hclose⟩ := List.exists_of_findSome?_eq_some hfound
    exact (suffix_of_close? hclose).trans
      ((suffix_of_mem_afterLineFeeds ht).trans (suffix_of_afterMarker? hr))
  · exact List.suffix_rfl

end FrontMatter

section Reading

variable {reader : Markdown.Reader} {text dialect : String}
  {tokens : List Char → List Markdown.Token} {rules : Markdown.Rules}

/-- A page is its front matter and the nodes of the blocks that its reader finds. -/
theorem parse_eq (reads : reader dialect = .ok tokens)
    (yields : rules.Yields (bodyOf text) (tokens (bodyOf text))) :
    Page.parse reader text dialect = .ok (frontBlocks text ++
      (rules.blocks (Markdown.linesOf (bodyOf text))).map
        (Markdown.Block.node (lines (bodyOf text)))) := by
  rw [← yields.nodes]
  unfold Page.parse frontBlocks bodyOf
  rw [reads]
  rcases FrontMatter.split text.toList with ⟨_ | front, body⟩ <;> rfl

/-- The reader of the dialects knows a dialect by its name. -/
theorem reader_eq {d : Markdown.Dialect} (hd : Markdown.Dialect.ofName dialect = .ok d) :
    Markdown.reader dialect = .ok (Markdown.tokens d) := by
  rw [Markdown.reader, hd]
  rfl

/-- **A page keeps every line of its text but those that are taken without making a block**, as the
definitions of links are. Take any reader whose outermost tokens begin the blocks that some rules
find, each of them taking a line at least. Where line feeds are the only line ends, each line with
something on it that is behind the front matter and not dropped by the rules is covered by one
block. That is fenced code, or the block has the line in its source, and so has the text that is
written for the page, but for white space at the end of the line. A line that is dropped is covered
by no block. -/
theorem lines_kept (reads : reader dialect = .ok tokens)
    (yields : rules.Yields (bodyOf text) (tokens (bodyOf text))) (advances : rules.Advances)
    (hends : ∀ c ∈ text.toList, isLineEnd c = true → c = '\n') :
    let body := bodyOf text
    let found := rules.blocks (Markdown.linesOf body)
    let page := frontBlocks text ++ found.map (Markdown.Block.node (lines body))
    Page.parse reader text dialect = .ok page ∧
      ∀ i line, (split '\n' body)[i]? = some line → (∃ c ∈ line, isBlank c = false) →
        (rules.Drops body i → ∀ b ∈ found, ¬ b.Covers i) ∧
        (¬ rules.Drops body i → ∃ before b after, found = before ++ b :: after ∧
          b.Covers i ∧ (∀ b' ∈ before ++ after, ¬ b'.Covers i) ∧
          (b.kind = .fence ∨ ∃ kind value, b.node (lines body) = .raw kind value ∧
            ∃ l ∈ split '\n' value.toList, (l = line ∨ l = trimEnd line) ∧
              l ∈ split '\n' (pageText page).toList)) := by
  intro body found page
  refine ⟨parse_eq reads yields, fun i line hi hsome => ?_⟩
  have hbody : ∀ c ∈ body, isLineEnd c = true → c = '\n' := fun c hc =>
    hends c ((FrontMatter.split_suffix text.toList).subset hc)
  have hreturn : '\r' ∉ body := fun hmem => absurd (hbody _ hmem (by decide)) (by decide)
  obtain ⟨hdrops, hcovered⟩ := advances.covered_once hreturn hi hsome
  refine ⟨hdrops, fun hnot => ?_⟩
  obtain ⟨before, b, after, hfound, hcovers, hothers⟩ := hcovered hnot
  refine ⟨before, b, after, hfound, hcovers, hothers, ?_⟩
  by_cases hfence : b.kind = .fence
  · exact Or.inl hfence
  obtain ⟨l, hl, hline⟩ := Markdown.exists_mem_source hbody hcovers hi hsome
  have hnode : b.node (lines body) = .raw b.kind.name (b.token.source (lines body)) :=
    if_neg hfence
  refine Or.inr ⟨_, _, hnode, l, hl, hline, ?_⟩
  have hmem : b.node (lines body) ∈ page := by
    refine List.mem_append_right _ (List.mem_map_of_mem ?_)
    rw [show found = before ++ b :: after from hfound]
    exact List.mem_append_right _ List.mem_cons_self
  refine mem_split_pageText hmem ?_ ?_
  · rw [hnode]
    exact hl
  · obtain ⟨c, hc, hblank⟩ := hsome
    rintro rfl
    rcases hline with rfl | hline
    · cases hc
    · have hnil := List.rdropWhile_eq_nil_iff.1 hline.symm c hc
      rw [hblank] at hnil
      cases hnil

end Reading

/-- The item of a list, as it stands in the text of its page. -/
theorem lines_kept_item :
    ∃ page, Page.parse Markdown.reader "# A\n\n- b\n" "gfm-like" = .ok page ∧
      ∃ l ∈ split '\n' (pageText page).toList, l = "- b".toList ∨ l = trimEnd "- b".toList := by
  have hends : ∀ c ∈ "# A\n\n- b\n".toList, isLineEnd c = true → c = '\n' := by
    have hall : ("# A\n\n- b\n".toList.all fun c => !isLineEnd c || c == '\n') = true := by decide
    intro c hc hend
    simpa [hend] using List.all_eq_true.1 hall c hc
  let d : Markdown.Dialect := { tables := true, markup := true, depth := 20 }
  have hkept := @lines_kept Markdown.reader "# A\n\n- b\n" "gfm-like" _ d.rules rfl
    (d.yields_tokens _) d.advances_rules hends
  have hfound : d.rules.blocks (Markdown.linesOf (bodyOf "# A\n\n- b\n")) =
        [{ kind := .heading, first := 0, stop := 1 },
          { kind := .bulletList, first := 2, stop := 3 }] := by
    decide +kernel
  dsimp only at hkept
  rw [hfound] at hkept
  obtain ⟨hparse, hlines⟩ := hkept
  obtain ⟨hdrops, hcovered⟩ := hlines 2 "- b".toList (by decide +kernel)
    ⟨'-', by decide, by decide⟩
  have hnot := fun h => hdrops h _ (List.mem_cons_of_mem _ List.mem_cons_self)
    ⟨Nat.le_refl 2, by decide⟩
  obtain ⟨before, b, after, hblocks, -, -, hfence | ⟨_, _, -, l, -, hline, hpage⟩⟩ := hcovered hnot
  · -- No block of this page is fenced code.
    have hb : b ∈ before ++ b :: after := List.mem_append_right _ List.mem_cons_self
    rw [← hblocks] at hb
    simp only [List.mem_cons, List.not_mem_nil, or_false] at hb
    rcases hb with rfl | rfl <;> cases hfence
  · exact ⟨_, hparse, l, hpage, hline⟩

/-- The line that defines a link is lost: no block covers it, and it is not in the text that is
written for the page. -/
theorem definition_lost :
    Page.parse Markdown.reader "[a]: /url\n\n[a]\n" "gfm-like" = .ok [.raw "paragraph" "[a]"] ∧
      "[a]: /url".toList ∉ split '\n' (pageText [.raw "paragraph" "[a]"]).toList := by
  let d : Markdown.Dialect := { tables := true, markup := true, depth := 20 }
  have hfound : d.rules.blocks (Markdown.linesOf (bodyOf "[a]: /url\n\n[a]\n")) =
      [{ kind := .paragraph, first := 2, stop := 3 }] := by
    decide +kernel
  refine ⟨?_, by decide +kernel⟩
  rw [parse_eq (reader_eq rfl) (d.yields_tokens _), hfound]
  rfl

end DemoPages
