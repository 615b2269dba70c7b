import DemoPages.Proofs.Builds
import DemoPages.Proofs.Outcomes
import DemoPages.Proofs.Sources

/-!
# Where a run stops

A run builds its pages one after the other, and ends at the first that fails (`pages_error`). A page
that meets an `Obstacle` fails before its components are exchanged, and leaves all as it was
(`page_of_obstacle`); one that meets none has its components computed (`obstacle_or_ready`). So a
run that stops at an obstacle comes to the same as runs over the pages in front of it, one by one
(`run_stops`). A run over one page finds that page alone, because its path is read again as it was
written down (`Path.ofString_toString`) and leads to a file (`discover_of_page_ok`).
-/

namespace DemoPages

open Effect FrontMatter

/-! ### Paths, written down and read again -/

namespace Path

/-- Is it a segment of a path, and not several? -/
def IsPiece (s : String) : Prop := isSegment s = true ∧ '/' ∉ s.toList

theorem isPiece_of_mem_ofString {s x : String} (h : x ∈ (ofString s).segments) : IsPiece x := by
  obtain ⟨hpiece, hsegment⟩ := List.mem_filter.1 h
  obtain ⟨piece, hsplit, rfl⟩ := List.mem_map.1 hpiece
  refine ⟨hsegment, fun hslash => ?_⟩
  rw [String.toList_ofList] at hslash
  exact (Text.mem_of_mem_split hsplit hslash).2 rfl

theorem anchorOf_of_ne {c : Char} (h : c ≠ '/') (s : List Char) :
    anchorOf (c :: s) = .here ∧ anchorOf ('/' :: c :: s) = .root ∧
      anchorOf ('/' :: '/' :: c :: s) = .doubleRoot := by
  refine ⟨?_, ?_, ?_⟩ <;> simp [anchorOf, h]

theorem pieces_slash (s : String) : pieces ("/" ++ s) = "" :: pieces s := by
  simp [pieces, Text.split]

/-- A path of segments is read as it is written. -/
theorem ofString_toString {p : Path} (h : ∀ x ∈ p.segments, IsPiece x) :
    ofString p.toString = p := by
  obtain ⟨anchor, segments⟩ := p
  cases segments with
  | nil => cases anchor <;> rfl
  | cons x xs =>
    -- The body begins with a character that is no slash.
    obtain ⟨rest, hbody⟩ := Text.toList_joinWith_cons x xs
    obtain ⟨hx, hslash⟩ := h x List.mem_cons_self
    obtain ⟨c, cs, hc⟩ : ∃ c cs, x.toList = c :: cs := by
      cases hlist : x.toList with
      | nil =>
        rw [String.toList_eq_nil_iff.1 hlist] at hx
        cases hx
      | cons c cs => exact ⟨c, cs, rfl⟩
    have hne : c ≠ '/' := by
      rintro rfl
      exact hslash (hc ▸ List.mem_cons_self)
    obtain ⟨hhere, hroot, hdouble⟩ := anchorOf_of_ne hne (cs ++ rest)
    have hpieces := pieces_joinWith (List.cons_ne_nil x xs) fun y hy => (h y hy).2
    have hall : (x :: xs).filter isSegment = x :: xs :=
      List.filter_eq_self.2 fun y hy => (h y hy).1
    rw [hc, List.cons_append] at hbody
    unfold ofString toString
    cases anchor with
    | here => simp [hbody, hhere, hpieces, hall]
    | root => simp [hbody, hroot, pieces_slash, hpieces, hall, isSegment]
    | doubleRoot =>
      have htwo : ("//" : String) ++ Text.joinWith "/" (x :: xs) =
          "/" ++ ("/" ++ Text.joinWith "/" (x :: xs)) := by
        rw [← String.append_assoc]
        rfl
      simp [htwo, hbody, hdouble, pieces_slash, hpieces, hall, isSegment]

end Path

/-! ### Ways that lead on -/

/-- A path leads on where its place does. -/
theorem Disk.locate_append {d : Disk} {path : Path} {P rest : Place} (hdots : ".." ∉ P)
    (hlocate : d.locate path = .ok P) (hfound : d.Found (P ++ rest)) :
    d.locate { path with segments := path.segments ++ rest } = .ok (P ++ rest) := by
  unfold Found locate at hfound
  unfold locate at hlocate ⊢
  split at hlocate
  · cases hlocate
  · rename_i hnull
    split at hfound
    · cases hfound
    · rename_i hnull'
      rw [if_neg]
      · have hwalk : d.walk [] (P ++ rest) = .ok (P ++ rest) := hfound
        obtain ⟨Q, hup, hdown⟩ := walk_append.1 hwalk
        rw [walk_of_not_mem hdots hup] at hdown
        exact walk_append.2 ⟨P, hlocate, hdown⟩
      · intro h
        unfold hasNull at h hnull hnull'
        rw [List.any_append, Bool.or_eq_true] at h
        refine h.elim hnull fun h => hnull' ?_
        show (P ++ rest).any _ = true
        rw [List.any_append, h, Bool.or_true]

namespace Site

variable {tools : Tools} {s : Settings} {root : Place} {st st' : State} {fault : Fault}

/-! ### What keeps a page from being built -/

theorem parse_error {reader : Markdown.Reader} {text dialect : String} {f : Fault} :
    Page.parse reader text dialect = .error f ↔ reader dialect = .error f := by
  unfold Page.parse
  generalize FrontMatter.split text.toList = parts
  obtain ⟨front, body⟩ := parts
  cases reader dialect with
  | error g =>
    show (Except.error g : Except Fault (List Node)) = .error f ↔ _
    simp
  | ok tokens => exact iff_of_false (fun h => by cases h) (fun h => by cases h)

/-- What keeps the page at a place from being built before its components are exchanged, with the
fault that it is. -/
inductive Obstacle (tools : Tools) (s : Settings) (root source : Place) (d : Disk) :
    Fault → Prop where
  /-- The page lies outside the project root. -/
  | outside (apart : ¬ root <+: source) :
    Obstacle tools s root source d (.outsideRoot source.toString root.toString)
  /-- No file can be read at the place. -/
  | disk {g : Disk.Fault} (below : root <+: source)
    (reads : Disk.readBytes source.toPath d = .error g d) : Obstacle tools s root source d (.disk g)
  /-- The bytes of the file are no text. -/
  | undecodable {bytes : List UInt8} {g : Text.Utf8.Fault} (below : root <+: source)
    (reads : Disk.readBytes source.toPath d = .ok bytes d)
    (decodes : Page.decode bytes = .error g) :
    Obstacle tools s root source d (.undecodable g)
  /-- There is no such dialect. -/
  | dialect {bytes : List UInt8} {text : String} {f : Fault} (below : root <+: source)
    (reads : Disk.readBytes source.toPath d = .ok bytes d) (decodes : Page.decode bytes = .ok text)
    (unknown : tools.reader s.dialect = .error f) : Obstacle tools s root source d f
  /-- The number of columns cannot be read. -/
  | columns {blocks : List Node} {f : Fault} (below : root <+: source)
    (read : Page.read tools.reader source.toPath s.dialect d = .ok blocks)
    (unread : columnsFrom 1 blocks = .error f) : Obstacle tools s root source d f
  /-- The highlighter shows the first codes of the page, and gives up on the next. -/
  | highlighter {blocks : List Node} {columns n : Nat} {code : String} {f : Fault}
    (below : root <+: source) (read : Page.read tools.reader source.toPath s.dialect d = .ok blocks)
    (columnsRead : columnsFrom 1 blocks = .ok columns)
    (gives : (extractor tools s root source).GivesUp [] (Node.codesOf s.language blocks) n code f) :
    Obstacle tools s root source d f

/-- A page that is not read met an obstacle. -/
theorem obstacle_of_read_error {source : Place} {d : Disk} (below : root <+: source) {f : Fault}
    (h : Page.read tools.reader source.toPath s.dialect d = .error f) :
    Obstacle tools s root source d f := by
  have hsame : final (Disk.readBytes source.toPath d) = d := by
    unfold Disk.readBytes
    split
    · rfl
    · split <;> rfl
  unfold Page.read at h
  cases hreads : Disk.readBytes source.toPath d with
  | error g d' =>
    rw [hreads, final_error] at hsame
    rw [hreads] at h
    cases h
    exact .disk below (hsame ▸ hreads)
  | ok bytes d' =>
    rw [hreads, final_ok] at hsame
    simp only [hreads] at h
    rw [hsame] at hreads
    cases hdecodes : Page.decode bytes with
    | error g =>
      rw [hdecodes] at h
      cases h
      exact .undecodable below hreads hdecodes
    | ok text =>
      simp only [hdecodes] at h
      exact .dialect below hreads hdecodes (parse_error.1 h)

/-- A page that meets no obstacle is read, and its components can be computed. -/
theorem obstacle_or_ready (tools : Tools) (s : Settings) (root source : Place) (d : Disk) :
    (∃ f, Obstacle tools s root source d f) ∨
      ∃ blocks columns, root <+: source ∧
        Page.read tools.reader source.toPath s.dialect d = .ok blocks ∧
        Pass.Ready (extractor tools s root source) ({ blocks, kept := () } : Pass.State Unit)
          columns := by
  by_cases below : root <+: source
  · cases hread : Page.read tools.reader source.toPath s.dialect d with
    | error f => exact Or.inl ⟨f, obstacle_of_read_error below hread⟩
    | ok blocks =>
      have ending := Pass.run_ending d.here Keeper.idle (extractor tools s root source)
        { blocks, kept := () }
      generalize Pass.run d.here Keeper.idle (extractor tools s root source) _ = r at ending
      cases ending with
      | columns unread => exact Or.inl ⟨_, .columns below hread unread⟩
      | unnamed read file => exact absurd file (Place.toString_ne_empty source)
      | highlighter read gives => exact Or.inl ⟨_, .highlighter below hread read gives⟩
      | remove ready removes => exact Or.inr ⟨_, _, below, rfl, ready⟩
      | register ready removes registers => exact Or.inr ⟨_, _, below, rfl, ready⟩
      | done ready removes registers => exact Or.inr ⟨_, _, below, rfl, ready⟩
  · exact Or.inl ⟨_, .outside below⟩

/-! ### Steps that fail -/

theorem naming_error {α : Type} {p : Path} {act : Action α} :
    naming p act st = .error fault st' ↔
      ∃ f, act st = .error f st' ∧ fault = .page p.toString f := by
  unfold naming
  cases act st with
  | ok a t => simp
  | error f t => simp [@eq_comm _ fault, and_comm]

/-- A page after another one fails where that one does, or where it leads. -/
theorem pages_cons_error {p : Path} {ps : List Path} :
    pages tools s root (p :: ps) st = .error fault st' ↔
      (∃ f, page tools s root p st = .error f st' ∧ fault = .page p.toString f) ∨
      ∃ r t, page tools s root p st = .ok r t ∧ pages tools s root ps t = .error fault st' := by
  rw [pages, bind_error, naming_error]
  refine or_congr_right (exists_congr fun r => exists_congr fun t => ?_)
  rw [naming_ok, bind_error]
  refine and_congr_right fun _ => ⟨fun h => ?_, Or.inl⟩
  rcases h with h | ⟨rs, u, -, h⟩
  · exact h
  · cases h

/-- A run over some pages fails at one of them, after it has built those in front. -/
theorem pages_error {ps : List Path} :
    pages tools s root ps st = .error fault st' ↔
      ∃ before p after rs t f, ps = before ++ p :: after ∧ pages tools s root before st = .ok rs t ∧
        page tools s root p t = .error f st' ∧ fault = .page p.toString f := by
  induction ps generalizing st with
  | nil =>
    refine iff_of_false (fun h => by cases h) ?_
    rintro ⟨before, p, after, rs, t, f, hps, -⟩
    cases before <;> cases hps
  | cons q qs ih =>
    rw [pages_cons_error]
    constructor
    · rintro (⟨f, hpage, rfl⟩ | ⟨r, u, hpage, hpages⟩)
      · exact ⟨[], q, qs, [], st, f, rfl, rfl, hpage, rfl⟩
      · obtain ⟨before, p, after, rs, t, f, rfl, hbefore, hfails, hfault⟩ := ih.1 hpages
        exact ⟨q :: before, p, after, r :: rs, t, f, rfl,
          pages_cons_ok.2 ⟨r, u, rs, hpage, hbefore, rfl⟩, hfails, hfault⟩
    · rintro ⟨before, p, after, rs, t, f, hps, hbefore, hfails, rfl⟩
      cases before with
      | nil =>
        cases hps
        cases hbefore
        exact Or.inl ⟨f, hfails, rfl⟩
      | cons q' before =>
        cases hps
        obtain ⟨r, u, rs', hpage, hrest, rfl⟩ := pages_cons_ok.1 hbefore
        exact Or.inr ⟨r, u, hpage, ih.2 ⟨before, p, after, rs', t, f, rfl, hrest, hfails, rfl⟩⟩

theorem run_of_root {path : String} (hroot : Site.root s st.depot.disk = .ok root) :
    run tools s path st = pages tools s root (discover st.depot.disk (.ofString path)) st := by
  unfold run
  rw [get_bind, bind_of_ok (ofExcept_ok.2 ⟨hroot, rfl⟩)]

/-! ### Obstacles -/

/-- A pass whose columns cannot be read leaves all as it was. -/
theorem extract_of_unread {e : Extractor} {blocks : List Node} {f : Fault}
    (unread : columnsFrom 1 blocks = .error f) : extract e blocks st = .error f st := by
  have hrun : (visit e blocks).run st.depot.disk.here .depot st.shared =
      .error f ((visit e blocks).start st.shared) := Pass.run_of_unread (directive_error.2 unread)
  rw [extract_of_error hrun]
  rfl

/-- A pass whose highlighter gives up on a code leaves all as it was. -/
theorem extract_of_givesUp {e : Extractor} (hfile : e.file ≠ "") {blocks : List Node}
    {columns n : Nat} {code : String} {f : Fault} (read : columnsFrom 1 blocks = .ok columns)
    (gives : e.GivesUp [] (Node.codesOf e.options.lang blocks) n code f) :
    extract e blocks st = .error f st := by
  have ending := Pass.run_ending st.depot.disk.here .depot e ((visit e blocks).start st.shared)
  cases hrun : (visit e blocks).run st.depot.disk.here .depot st.shared with
  | ok _ t =>
    change Pass.run _ _ e _ = _ at hrun
    rw [hrun] at ending
    cases ending with
    | done ready removes registers => exact absurd gives ready.not_givesUp
  | error g t =>
    rw [extract_of_error hrun]
    change Pass.run _ _ e _ = _ at hrun
    rw [hrun] at ending
    cases ending with
    | columns unread => cases read.symm.trans unread
    | unnamed read' file => exact absurd file hfile
    | highlighter read' gives' =>
      rw [gives.fault_eq gives']
      rfl
    | remove ready removes => exact absurd gives ready.not_givesUp
    | register ready removes registers => exact absurd gives ready.not_givesUp

theorem page_of_error {p : Path} {f : Fault} (below : root <+: Place.resolve st.depot.disk.here p)
    (h : Page.read tools.reader (Place.resolve st.depot.disk.here p).toPath s.dialect
        st.depot.disk = .error f ∨
      ∃ blocks, Page.read tools.reader (Place.resolve st.depot.disk.here p).toPath s.dialect
          st.depot.disk = .ok blocks ∧
        extract (extractor tools s root (Place.resolve st.depot.disk.here p)) blocks st =
          .error f st) :
    page tools s root p st = .error f st := by
  unfold page
  rw [get_bind]
  simp only [List.isPrefixOf_iff_prefix.2 below, if_true]
  rcases h with hread | ⟨blocks, hread, hextract⟩
  · exact bind_of_error (ofExcept_error.2 ⟨hread, rfl⟩) _
  · rw [bind_of_ok (ofExcept_ok.2 ⟨hread, rfl⟩)]
    exact bind_of_error hextract _

/-- A page that meets an obstacle fails with it, and leaves all as it was. -/
theorem page_of_obstacle {p : Path} {f : Fault}
    (h : Obstacle tools s root (Place.resolve st.depot.disk.here p) st.depot.disk f) :
    page tools s root p st = .error f st := by
  cases h with
  | outside apart =>
    unfold page
    rw [get_bind, if_neg fun h => apart (List.isPrefixOf_iff_prefix.1 h)]
    rfl
  | disk below reads => exact page_of_error below (Or.inl (by simp only [Page.read, reads]))
  | undecodable below reads decodes =>
    exact page_of_error below (Or.inl (by simp only [Page.read, reads, decodes]))
  | dialect below reads decodes unknown =>
    refine page_of_error below (Or.inl ?_)
    simp only [Page.read, reads, decodes]
    exact parse_error.2 unknown
  | columns below read unread =>
    exact page_of_error below (Or.inr ⟨_, read, extract_of_unread unread⟩)
  | highlighter below read columnsRead gives =>
    exact page_of_error below (Or.inr ⟨_, read,
      extract_of_givesUp (Place.toString_ne_empty _) columnsRead gives⟩)

/-! ### Runs over one page -/

section Single

variable {d : Disk} {path p : Path}

/-- A page that is found is the path, with the names that lead on from there. -/
theorem exists_rest_of_mem_discover (named : d.Named) (h : p ∈ discover d path) :
    ∃ rest, p = { path with segments := path.segments ++ rest } ∧ (∀ x ∈ rest, IsName x) ∧
      ∃ P, d.locate path = .ok P ∧ Place.resolve d.here p = P ++ rest := by
  obtain ⟨P, e, hlocate, hlook⟩ := exists_of_discover_ne_nil (List.ne_nil_of_mem h)
  rw [discover_eq hlocate, hlook] at h
  cases e with
  | file bytes =>
    obtain rfl := List.mem_singleton.1 (List.mem_filter.1 h).1
    refine ⟨[], by rw [List.append_nil], by simp, P, hlocate, ?_⟩
    rw [List.append_nil, Disk.locate_ok named.dots_not_mem_here hlocate]
  | directory =>
    obtain ⟨q, hq, rfl⟩ := List.mem_map.1 (List.mem_mergeSort.1 h)
    obtain ⟨hkey, hunder⟩ := List.mem_filter.1 hq
    simp only [isPageBelow, Bool.and_eq_true] at hunder
    have hprefix := List.isPrefixOf_iff_prefix.1 hunder.1.1
    have hdots : ".." ∉ q := fun hmem => (named.places _ hkey _ hmem).2.1 rfl
    refine ⟨q.drop P.length, rfl, fun x hx => named.places _ hkey x (List.mem_of_mem_drop hx), P,
      hlocate, ?_⟩
    rw [resolve_below named.dots_not_mem_here hlocate hprefix hdots]
    obtain ⟨rest, rfl⟩ := hprefix
    rw [List.drop_left]

/-- A page that was found, and is built later on, is then found alone at its own path. -/
theorem discover_of_page_ok (named : d.Named) (hp : p ∈ discover d path) {r : Result}
    (hhere : st.depot.disk.here = d.here)
    (hdirs : ∀ q, d.look? q = some .directory → st.depot.disk.look? q = some .directory)
    (h : page tools s root p st = .ok r st') : discover st.depot.disk p = [p] := by
  obtain ⟨rest, rfl, hrest, P, hlocate, hsource⟩ := exists_rest_of_mem_discover named hp
  obtain ⟨-, -, hpage⟩ := source_of_mem_discover named hlocate hp
  obtain ⟨-, blocks, -, -, -, -, hread, -⟩ := (page_ok rfl).1 h
  have hdots : ".." ∉ P ++ rest := hsource ▸ Place.dots_not_mem_settle _
  rw [hhere, hsource] at hread
  obtain ⟨hfound, bytes, hbytes⟩ := read_ok hdots hread
  have hlocate' := Disk.locate_append (fun hmem => hdots (List.mem_append_left _ hmem))
    (Disk.locate_mono hhere hdirs hlocate) hfound
  rw [discover_eq hlocate', hbytes]
  exact List.filter_eq_self.2 fun p' hp' => List.mem_singleton.1 hp' ▸ hpage

theorem root_congr {d' : Disk} (h : d'.here = d.here) : Site.root s d' = Site.root s d := by
  unfold Site.root
  rw [h]

/-- Runs over some paths, one after the other. -/
def runEach (tools : Tools) (s : Settings) : List Path → Action (List Result)
  | [] => return []
  | p :: ps => do
    let rs ← run tools s p.toString
    return rs ++ (← runEach tools s ps)

/-- What a run does to pages that it builds, runs over each of them do. -/
theorem runEach_of_pages {text : String} {ps : List Path} {rs : List Result} (named : d.Named)
    (hroot : Site.root s d = .ok root) (hps : ∀ p ∈ ps, p ∈ discover d (.ofString text))
    (hhere : st.depot.disk.here = d.here)
    (hdirs : ∀ q, d.look? q = some .directory → st.depot.disk.look? q = some .directory)
    (h : pages tools s root ps st = .ok rs st') : runEach tools s ps st = .ok rs st' := by
  induction ps generalizing st rs with
  | nil =>
    cases h
    rfl
  | cons p ps ih =>
    obtain ⟨r, t, rs', hpage, hpages, rfl⟩ := pages_cons_ok.1 h
    have hp := hps p List.mem_cons_self
    have hread : Path.ofString p.toString = p := by
      obtain ⟨rest, rfl, hrest, -⟩ := exists_rest_of_mem_discover named hp
      refine Path.ofString_toString fun x hx => (List.mem_append.1 hx).elim
        Path.isPiece_of_mem_ofString fun hx => ⟨(hrest x hx).1, (hrest x hx).2.2⟩
    have hrun : run tools s p.toString st = .ok [r] t := by
      rw [run_of_root ((root_congr hhere).trans hroot), hread,
        discover_of_page_ok named hp hhere hdirs hpage]
      exact pages_cons_ok.2 ⟨r, t, [], hpage, rfl, rfl⟩
    have hchange :=
      (change_page_reaches (hhere ▸ named.dots_not_mem_here) rfl rfl hpage).1
    have hrest := ih (fun p' hp' => hps p' (List.mem_cons_of_mem _ hp')) (hchange.here.trans hhere)
      (fun q hq => hchange.directories q (hdirs q hq)) hpages
    rw [runEach, bind_of_ok hrun, bind_of_ok hrest]
    rfl

end Single

/-- **A page that cannot be built ends the run, and is all that is lost.** If the pages in front of
it are built and it meets an obstacle, the fault of the run names it, and the run comes to what runs
over the pages in front come to, one by one. A run that fails fails at some page, after those in
front are built; that page met an obstacle and left all as it was, or its components were computed,
so that the failure came when they were exchanged or the page was written. The tools are any, and a
highlighter may give up on any code of a page, whatever it showed on the pages in front. -/
theorem run_stops {path : String} (named : st.depot.disk.Named)
    (hroot : Site.root s st.depot.disk = .ok root) :
    (∀ before p after rs t f, discover st.depot.disk (.ofString path) = before ++ p :: after →
      pages tools s root before st = .ok rs t →
      Obstacle tools s root (Place.resolve t.depot.disk.here p) t.depot.disk f →
        run tools s path st = .error (.page p.toString f) t ∧
          runEach tools s before st = .ok rs t) ∧
    (run tools s path st = .error fault st' →
      ∃ before p after rs t f, discover st.depot.disk (.ofString path) = before ++ p :: after ∧
        runEach tools s before st = .ok rs t ∧ fault = .page p.toString f ∧
        (Obstacle tools s root (Place.resolve t.depot.disk.here p) t.depot.disk f ∧ st' = t ∨
          ∃ blocks columns, root <+: Place.resolve t.depot.disk.here p ∧
            Page.read tools.reader (Place.resolve t.depot.disk.here p).toPath s.dialect
              t.depot.disk = .ok blocks ∧
            Pass.Ready (extractor tools s root (Place.resolve t.depot.disk.here p))
              ({ blocks, kept := () } : Pass.State Unit) columns)) := by
  have each : ∀ {before p after rs t},
      discover st.depot.disk (.ofString path) = before ++ p :: after →
      pages tools s root before st = .ok rs t → runEach tools s before st = .ok rs t := by
    intro before p after rs t hfound hbefore
    have hps : ∀ q ∈ before, q ∈ discover st.depot.disk (.ofString path) := fun q hq =>
      hfound ▸ List.mem_append_left _ hq
    exact runEach_of_pages named hroot hps rfl (fun q hq => hq) hbefore
  rw [run_of_root hroot]
  refine ⟨fun before p after rs t f hfound hbefore obstacle => ⟨?_, each hfound hbefore⟩,
    fun hrun => ?_⟩
  · exact pages_error.2
      ⟨before, p, after, rs, t, f, hfound, hbefore, page_of_obstacle obstacle, rfl⟩
  · obtain ⟨before, p, after, rs, t, f, hfound, hbefore, hpage, hfault⟩ := pages_error.1 hrun
    refine ⟨before, p, after, rs, t, f, hfound, each hfound hbefore, hfault, ?_⟩
    rcases obstacle_or_ready tools s root (Place.resolve t.depot.disk.here p) t.depot.disk with
      ⟨g, obstacle⟩ | ready
    · have hstop := page_of_obstacle obstacle
      rw [hpage] at hstop
      cases hstop
      exact Or.inl ⟨obstacle, rfl⟩
    · exact Or.inr ready

/-- A directory that is named as a page stops a run behind the first page. -/
theorem run_stops_directory :
    let disk : Disk := ⟨[], ⟨[(["docs"], .directory),
      (["docs", "a.md"], .file (Text.Percent.utf8 "```vue\n<a/>\n```\n".toList)),
      (["docs", "b.md"], .directory),
      (["docs", "c.md"], .file (Text.Percent.utf8 "# C\n".toList))]⟩⟩
    let st : State := { depot := { store := { output := some (.ofString "dist") }, disk } }
    ∃ rs t, runEach .own {} [.ofString "docs/a.md"] st = .ok rs t ∧
      run .own {} "docs" st = .error (.page "docs/b.md" (.disk ⟨.isDirectory, "/docs/b.md"⟩)) t ∧
      t.depot.store.names = ["VueCode0f805578I0"] := by
  intro disk st
  obtain ⟨rs, t, hpages⟩ := ok_of_succeeds (r := pages .own {} [] [.ofString "docs/a.md"] st)
    (by decide +kernel)
  have hfound : discover st.depot.disk (.ofString "docs") =
      [.ofString "docs/a.md"] ++ .ofString "docs/b.md" :: [.ofString "docs/c.md"] := by
    rw [discover, if_neg (by decide +kernel), List.mergeSort_of_pairwise (by decide +kernel)]
    decide +kernel
  have hafter :
      (final (pages .own {} [] [.ofString "docs/a.md"] st)).depot.disk.here = [] ∧
      (final (pages .own {} [] [.ofString "docs/a.md"] st)).depot.disk.locate
        (Place.toPath ["docs", "b.md"]) = .ok ["docs", "b.md"] ∧
      (final (pages .own {} [] [.ofString "docs/a.md"] st)).depot.disk.look? ["docs", "b.md"] =
        some .directory ∧
      (final (pages .own {} [] [.ofString "docs/a.md"] st)).depot.store.names =
        ["VueCode0f805578I0"] := by
    decide +kernel
  rw [hpages, final_ok] at hafter
  obtain ⟨hhere, hlocate, hlook, hnames⟩ := hafter
  have named : st.depot.disk.Named := ⟨by decide, by decide⟩
  have hsource : Place.resolve t.depot.disk.here (.ofString "docs/b.md") = ["docs", "b.md"] := by
    rw [hhere]
    decide
  have obstacle : Obstacle .own {} [] (Place.resolve t.depot.disk.here (.ofString "docs/b.md"))
      t.depot.disk (.disk ⟨.isDirectory, "/docs/b.md"⟩) := by
    rw [hsource]
    exact .disk (List.nil_prefix) (by simp [Disk.readBytes, hlocate, hlook]; rfl)
  obtain ⟨hrun, heach⟩ :=
    (@run_stops .own {} [] st st .noFile "docs" named rfl).1 _ _ _ rs t _ hfound hpages obstacle
  exact ⟨rs, t, heach, hrun, hnames⟩

/-- A highlighter that gives up on the second demo of the second page: the first page keeps its
component, and of the second nothing is left. -/
example :
    let tired : Highlighter := fun _ code =>
      if code = "<c/>" then .error (.highlighter "tired") else .ok code
    let tools : Tools := { Tools.own with highlighter := fun _ _ => tired }
    let demos (codes : List String) : Disk.Entry := .file (Text.Percent.utf8
      (codes.flatMap fun code => ("```vue\n" ++ code ++ "\n```\n\n").toList))
    let disk : Disk := ⟨[], ⟨[(["docs"], .directory), (["docs", "a.md"], demos ["<a/>"]),
      (["docs", "b.md"], demos ["<b/>", "<c/>"])]⟩⟩
    let st : State := { depot := { store := { output := some (.ofString "dist") }, disk } }
    let result := pages tools {} [] [.ofString "docs/a.md", .ofString "docs/b.md"] st
    succeeds result = false ∧ (final result).registry.names.keys = ["/docs/a.md"] ∧
      (final result).depot.store.names = ["VueCode0f805578I0"] ∧
      (final result).depot.disk.look? ["dist", "docs", "b.md"] = none := by
  decide +kernel

end Site

end DemoPages
