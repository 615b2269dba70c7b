import DemoPages.Proofs.Demos
import DemoPages.Proofs.Escapes
import DemoPages.Proofs.Metadata

/-!
# The attributes of a reference

Whoever reads the markup of a reference takes as the value of an attribute what stands between its
opening double quote and the next one (`attribute?`). The source is written so that it holds no
double quote, and is read as it was (`source_encoded`). The parameters are written as they are: they
are read so if and only if the metadata of the demo holds neither a double quote nor an ampersand
(`Replacement.params_readable_iff`).
-/

namespace DemoPages

namespace Text

/-- What follows the first place of a text where `mark` stands. -/
def behind? (mark : List Char) : List Char → Option (List Char)
  | [] => if mark = [] then some [] else none
  | c :: s => if mark <+: c :: s then some ((c :: s).drop mark.length) else behind? mark s

section Behind

variable {q : Char} {mark piece : List Char}

theorem concat_prefix_iff (hmark : q ∉ mark) (hpiece : q ∉ piece) (t : List Char) :
    mark ++ [q] <+: piece ++ q :: t ↔ mark = piece := by
  constructor
  · rintro ⟨t', h⟩
    rw [List.append_assoc, List.singleton_append] at h
    have hcut := congrArg (cut q) h
    rw [cut_append_cons hmark, cut_append_cons hpiece] at hcut
    exact congrArg Prod.fst hcut
  · rintro rfl
    exact ⟨t, by simp⟩

/-- A mark that ends with `q` is found at the first `q` that it ends at. -/
theorem behind?_append (hmark : q ∉ mark) (hpiece : q ∉ piece) (t : List Char) :
    behind? (mark ++ [q]) (piece ++ q :: t) =
      if mark <:+ piece then some t else behind? (mark ++ [q]) t := by
  induction piece with
  | nil =>
    have hprefix := concat_prefix_iff hmark (List.not_mem_nil (a := q)) t
    rw [List.nil_append] at hprefix ⊢
    simp only [behind?, hprefix, List.suffix_nil]
    by_cases hnil : mark = []
    · simp [hnil]
    · rw [if_neg hnil, if_neg hnil]
  | cons c piece ih =>
    have hprefix := concat_prefix_iff hmark hpiece t
    rw [List.mem_cons, not_or] at hpiece
    rw [List.cons_append] at hprefix ⊢
    simp only [behind?, hprefix, List.suffix_cons_iff, ih hpiece.2]
    by_cases heq : mark = c :: piece
    · simp [heq]
    · simp [heq]

end Behind

end Text

/-! ### Reading attributes -/

/-- The value of an attribute of some markup, and what follows behind its closing quote. -/
def attribute? (name markup : String) : Option (List Char × List Char) :=
  (Text.behind? ((name ++ "=").toList ++ ['"']) markup.toList).bind fun s =>
    match Text.cut '"' s with
    | (value, some rest) => some (value, rest)
    | (_, none) => none

/-- The parameters that are read from some markup: the pieces of the attribute `params` between
ampersands. -/
def params? (markup : String) : Option (List String) :=
  (attribute? "params" markup).map fun read => (Text.split '&' read.1).map String.ofList

/-- The markup of a reference behind its parameters. -/
def referenceEnd (component name : String) : List Char :=
  (">\n  <" ++ name ++ " />\n</" ++ component ++ ">").toList

theorem toList_referenceMarkup (component name source : String) (params : List String) :
    (referenceMarkup component name source params).toList =
      ('<' :: component.toList ++ " source=".toList) ++
        '"' :: ((Text.Percent.encode source).toList ++
          '"' :: (" params=".toList ++
            '"' :: ((Text.joinWith "&" params).toList ++ '"' :: referenceEnd component name))) := by
  unfold referenceMarkup referenceEnd
  simp

/-- An encoded text holds neither a double quote nor an equals sign. -/
theorem not_mem_encode {c : Char} (h : ¬ Text.Percent.IsUnreserved c) (hpercent : c ≠ '%')
    (source : String) : c ∉ (Text.Percent.encode source).toList := fun hmem =>
  (Text.Percent.mem_of_escaped (Text.Percent.escaped_encode source) hmem).elim h hpercent

/-- In front of the first double quote stands the name of the first attribute. -/
theorem source_suffix (component : String) :
    "source=".toList <:+ '<' :: component.toList ++ " source=".toList :=
  ⟨'<' :: component.toList ++ [' '], by simp⟩

theorem attribute?_source {component : String} (plain : '"' ∉ component.toList)
    (name source : String) (params : List String) :
    attribute? "source" (referenceMarkup component name source params) =
      some ((Text.Percent.encode source).toList, " params=".toList ++
        '"' :: ((Text.joinWith "&" params).toList ++ '"' :: referenceEnd component name)) := by
  have hfirst : '"' ∉ '<' :: component.toList ++ " source=".toList := by simpa using plain
  have hvalue := not_mem_encode (c := '"') (by decide) (by decide) source
  rw [attribute?, toList_referenceMarkup]
  show (Text.behind? ("source=".toList ++ ['"']) _).bind _ = _
  rw [Text.behind?_append (by decide) hfirst, if_pos (source_suffix component), Option.bind_some,
    Text.cut_append_cons hvalue]

/-- **The source of a reference is written as a part of an address is, and nothing of it is lost.**
Up to the next double quote stand the characters of the source one by one, each as it is or as the
triplets of its bytes; the bytes are those of the source in UTF-8, and the source is read from them.
So references with different sources differ, whatever else they hold. -/
theorem source_encoded {component : String} (plain : '"' ∉ component.toList)
    (name source : String) (params : List String) :
    let markup := referenceMarkup component name source params
    let encoded := source.toList.flatMap Text.Percent.encodeChar
    (∃ rest, attribute? "source" markup = some (encoded, rest)) ∧
      Text.Percent.Escaped encoded ∧
      (∃ bytes, Text.Percent.decode? encoded = some bytes ∧ Text.Utf8.decode bytes = .ok source) ∧
      ∀ component' name' source' params', '"' ∉ component'.toList → source' ≠ source →
        referenceMarkup component' name' source' params' ≠ markup := by
  intro markup encoded
  have hencoded : encoded = (Text.Percent.encode source).toList :=
    (Text.Percent.toList_encode source).symm
  rw [hencoded]
  refine ⟨⟨_, attribute?_source plain name source params⟩, Text.Percent.escaped_encode source,
    ⟨_, Text.Percent.decode?_encode source, Text.Utf8.decode_utf8 source⟩, ?_⟩
  intro component' name' source' params' plain' hne hsame
  have hread : attribute? "source" (referenceMarkup component' name' source' params') =
      attribute? "source" (referenceMarkup component name source params) := congrArg _ hsame
  rw [attribute?_source plain', attribute?_source plain] at hread
  obtain ⟨hvalue, -⟩ := Prod.mk.inj (Option.some.inj hread)
  exact hne (Text.Percent.encode_injective (String.toList_inj.1 hvalue))

/-- A source with a double quote, a line feed, an ampersand, a percent sign, and characters of two,
three and four bytes. -/
theorem source_encoded_scalars :
    '"' ∉ "VueCode".toList ∧
      (∃ rest, attribute? "source" (referenceMarkup "VueCode" "X" "\"\n&%é€😀" ["a=true"]) =
        some ("%22%0A%26%25%C3%A9%E2%82%AC%F0%9F%98%80".toList, rest)) ∧
      ∃ bytes, Text.Percent.decode? "%22%0A%26%25%C3%A9%E2%82%AC%F0%9F%98%80".toList = some bytes ∧
        Text.Utf8.decode bytes = .ok "\"\n&%é€😀" := by
  have hencoded : "\"\n&%é€😀".toList.flatMap Text.Percent.encodeChar =
      "%22%0A%26%25%C3%A9%E2%82%AC%F0%9F%98%80".toList := by decide
  obtain ⟨hread, -, hdecoded, -⟩ :=
    source_encoded (by decide : '"' ∉ "VueCode".toList) "X" "\"\n&%é€😀" ["a=true"]
  rw [hencoded] at hread hdecoded
  exact ⟨by decide, hread, hdecoded⟩

/-- The parameters are read from what stands behind the source, up to a double quote. -/
theorem attribute?_params {component : String} (plain : '"' ∉ component.toList)
    (name source : String) {params : List String}
    (unquoted : '"' ∉ (Text.joinWith "&" params).toList) :
    attribute? "params" (referenceMarkup component name source params) =
      some ((Text.joinWith "&" params).toList, referenceEnd component name) := by
  have hfirst : '"' ∉ '<' :: component.toList ++ " source=".toList := by simpa using plain
  have hsource : ¬ "params=".toList <:+ '<' :: component.toList ++ " source=".toList := by
    intro hsuffix
    have hboth := List.suffix_of_suffix_length_le hsuffix (source_suffix component) (by decide)
    exact absurd hboth (by decide)
  have hvalue : ¬ "params=".toList <:+ (Text.Percent.encode source).toList := by
    intro hsuffix
    exact not_mem_encode (by decide) (by decide) source (hsuffix.subset (by decide : '=' ∈ _))
  rw [attribute?, toList_referenceMarkup]
  show (Text.behind? ("params=".toList ++ ['"']) _).bind _ = _
  rw [Text.behind?_append (by decide) hfirst, if_neg hsource,
    Text.behind?_append (by decide) (not_mem_encode (by decide) (by decide) source), if_neg hvalue,
    Text.behind?_append (by decide) (by decide), if_pos ⟨[' '], rfl⟩, Option.bind_some,
    Text.cut_append_cons unquoted]

/-! ### What is read of the parameters -/

theorem quote_not_mem_of_attribute? {name markup : String} {value rest : List Char}
    (h : attribute? name markup = some (value, rest)) : '"' ∉ value := by
  obtain ⟨s, -, hs⟩ := Option.bind_eq_some_iff.1 h
  have hcut := Text.not_mem_cut '"' s
  split at hs
  case h_1 heq =>
    cases hs
    rwa [heq] at hcut
  case h_2 => cases hs

theorem plain_of_params? {markup : String} {params : List String}
    (h : params? markup = some params) : ∀ p ∈ params, '"' ∉ p.toList ∧ '&' ∉ p.toList := by
  obtain ⟨⟨value, rest⟩, hread, rfl⟩ := Option.map_eq_some_iff.1 h
  intro p hp
  obtain ⟨piece, hpiece, rfl⟩ := List.mem_map.1 hp
  rw [String.toList_ofList]
  exact ⟨fun hmem => quote_not_mem_of_attribute? hread (Text.mem_of_mem_split hpiece hmem).1,
    fun hmem => (Text.mem_of_mem_split hpiece hmem).2 rfl⟩

/-- The component that shows a demo is the usual one, or named in the metadata. -/
theorem Options.mem_wrapperFor {o : Options} {info : Option String} {c : Char}
    (h : c ∈ (o.wrapperFor info).toList) : c ∈ o.wrapper.toList ∨ c ∈ (info.getD "").toList := by
  unfold wrapperFor at h
  split at h
  case h_1 key value hfind =>
    obtain ⟨s, hs, hparse⟩ := List.mem_map.1 (List.mem_reverse.1 (List.mem_of_find?_eq_some hfind))
    have hvalue : (Token.parse s).value = .text value := congrArg Token.value hparse
    exact Or.inr (Text.mem_of_mem_split hs (Token.value_subset hvalue h)).1
  case h_2 => exact Or.inl h

namespace Extractor

variable {e : Extractor}

theorem joined_params (info : Option String) :
    (Text.joinWith "&" (Attributes.parse info).params).toList =
      ['&'].intercalate ((Attributes.parse info).params.map String.toList) :=
  Text.toList_joinWith "&" _

theorem quote_mem_joined_iff (info : Option String) :
    '"' ∈ (Text.joinWith "&" (Attributes.parse info).params).toList ↔
      '"' ∈ (info.getD "").toList := by
  rw [joined_params, ← Attributes.mem_params_iff (by decide) (by decide)]
  constructor
  · intro h
    obtain ⟨s, hs, hc⟩ := (Text.mem_of_mem_intercalate h).resolve_left (by decide)
    obtain ⟨p, hp, rfl⟩ := List.mem_map.1 hs
    exact ⟨p, hp, hc⟩
  · rintro ⟨p, hp, hc⟩
    exact Text.mem_intercalate _ (List.mem_map_of_mem hp) hc

/-- The attribute ends at its own quote if and only if the metadata holds no double quote. -/
theorem attribute?_reference_iff (plain : '"' ∉ e.options.wrapper.toList) (name text : String)
    (info : Option String) :
    let params := (Attributes.parse info).params
    attribute? "params" (referenceMarkup (e.options.wrapperFor info) name text params) =
        some ((Text.joinWith "&" params).toList, referenceEnd (e.options.wrapperFor info) name) ↔
      '"' ∉ (info.getD "").toList := by
  intro params
  constructor
  · intro h hquote
    exact quote_not_mem_of_attribute? h ((quote_mem_joined_iff info).2 hquote)
  · intro hquote
    refine attribute?_params (fun h => ?_) name text ((quote_mem_joined_iff info).not.2 hquote)
    exact (Options.mem_wrapperFor h).elim plain hquote

/-- The parameters are read as they are if and only if the metadata holds neither a double quote nor
an ampersand. -/
theorem params?_reference_iff (plain : '"' ∉ e.options.wrapper.toList) (name text : String)
    (info : Option String) :
    let params := (Attributes.parse info).params
    params? (referenceMarkup (e.options.wrapperFor info) name text params) = some params ↔
      '"' ∉ (info.getD "").toList ∧ '&' ∉ (info.getD "").toList := by
  intro params
  have hmem {c : Char} (hspace : c ≠ ' ') (htrue : c ∉ "=true".toList) :=
    Attributes.mem_params_iff hspace htrue info
  constructor
  · intro h
    have hplain := plain_of_params? h
    constructor
    · intro hquote
      obtain ⟨p, hp, hc⟩ := (hmem (by decide) (by decide)).2 hquote
      exact (hplain p hp).1 hc
    · intro hand
      obtain ⟨p, hp, hc⟩ := (hmem (by decide) (by decide)).2 hand
      exact (hplain p hp).2 hc
  · rintro ⟨hquote, hand⟩
    have hne : params.map String.toList ≠ [] := by
      simpa [params, Attributes.parse, Attributes.ofTokens] using Attributes.tokens_ne_nil info
    have hpieces : ∀ p ∈ params.map String.toList, '&' ∉ p := by
      intro p hp hc
      obtain ⟨s, hs, rfl⟩ := List.mem_map.1 hp
      exact hand ((hmem (by decide) (by decide)).1 ⟨s, hs, hc⟩)
    rw [params?, (attribute?_reference_iff plain name text info).2 hquote, Option.map_some,
      joined_params, Text.split_intercalate hne hpieces, List.map_map]
    simp [Function.comp_def, params]

theorem node_replacement (here : Place) (text : String) (d : Demo) :
    (e.replacement here text d).node = .reference (e.nameAt d.index)
      (referenceMarkup (e.options.wrapperFor d.info) (e.nameAt d.index) text
        (Attributes.parse d.info).params) := rfl

theorem forall₂_replacements {here : Place} {R : Demo → Replacement → Prop}
    (h : ∀ d text, R d (e.replacement here text d)) (shown : List String) (demos : List Demo) :
    List.Forall₂ R demos (e.replacements here shown demos) := by
  induction demos generalizing shown with
  | nil => exact .nil
  | cons d ds ih => exact .cons (h d _) (ih _)

end Extractor

namespace Replacement

/-- **The parameters of a reference are read as they are if and only if the metadata of its demo
holds neither a double quote nor an ampersand**, if the usual component has no double quote in its
name. The attribute ends where it is meant to end, and the markup goes on as it is meant to go on,
if and only if the metadata holds no double quote. -/
theorem params_readable_iff {here : Place} {e : Extractor} {blocks : List Node}
    {shown shown' : List String} {rs : List Replacement} (plain : '"' ∉ e.options.wrapper.toList)
    (built : build here e.file e.root e.highlighter e.options blocks shown = .ok rs shown') :
    List.Forall₂ (fun d r => ∃ name markup, r.node = .reference name markup ∧
      let info := (d.info.getD "").toList
      let params := (Attributes.parse d.info).params
      (params? markup = some params ↔ '"' ∉ info ∧ '&' ∉ info) ∧
      (attribute? "params" markup = some ((Text.joinWith "&" params).toList,
          referenceEnd (e.options.wrapperFor d.info) name) ↔ '"' ∉ info))
      (Demo.find blocks e.options.lang) rs := by
  obtain ⟨-, -, rfl, -⟩ := ofDemos_ok built
  refine Extractor.forall₂_replacements (fun d text => ?_) shown _
  exact ⟨_, _, e.node_replacement here text d, Extractor.params?_reference_iff plain _ text d.info,
    Extractor.attribute?_reference_iff plain _ text d.info⟩

/-- With a path for the page and a highlighter that never gives up, every demo is replaced. -/
theorem build_eq_ok {e : Extractor} (hfile : e.file ≠ "")
    (htotal : ∀ shown code, ∃ text, e.highlighter shown code = .ok text) (here : Place)
    (blocks : List Node) (shown : List String) :
    build here e.file e.root e.highlighter e.options blocks shown =
      .ok (e.replacements here shown (Demo.find blocks e.options.lang))
        (shown ++ (Demo.find blocks e.options.lang).map Demo.value) := by
  cases hbuild : build here e.file e.root e.highlighter e.options blocks shown with
  | ok rs shown' =>
    obtain ⟨-, rfl, rfl, -⟩ := ofDemos_ok hbuild
    rfl
  | error f shown' =>
    rcases ofDemos_error hbuild with ⟨hnone, -, -⟩ | ⟨n, code, gives, -⟩
    · exact absurd hnone hfile
    · obtain ⟨text, htext⟩ := htotal (shown ++ _) code
      cases htext.symm.trans gives.fails

/-- A demo that names its component, with a flag. -/
theorem params_readable_iff_flag :
    let e : Extractor :=
      { file := "/docs/x.md", root := "/docs", highlighter := fun _ code => .ok code }
    '"' ∉ e.options.wrapper.toList ∧
      ∃ r name markup,
        build [] e.file e.root e.highlighter e.options
          [.code "vue" (some "preview=Box wide") "<a/>"] [] = .ok [r] ["<a/>"] ∧
        r.node = .reference name markup ∧
        params? markup = some ["preview=Box", "wide=true"] := by
  intro e
  have hplain : '"' ∉ e.options.wrapper.toList := by decide
  have hparams : (Attributes.parse (some "preview=Box wide")).params =
      ["preview=Box", "wide=true"] := by
    decide +kernel
  have hbuild := build_eq_ok (e := e) (by decide) (fun _ code => ⟨code, rfl⟩) []
    [.code "vue" (some "preview=Box wide") "<a/>"] []
  cases params_readable_iff hplain hbuild with
  | cons h _ =>
    obtain ⟨name, markup, hnode, hread, -⟩ := h
    have hread := hread.2 (by decide)
    rw [hparams] at hread
    exact ⟨hplain, _, name, markup, hbuild, hnode, hread⟩

/-- A double quote in the metadata ends the attribute, and an ampersand makes two parameters of
one. -/
theorem params_cut :
    let e : Extractor :=
      { file := "/docs/x.md", root := "/docs", highlighter := fun _ code => .ok code }
    ∃ r r' name markup name' markup',
      build [] e.file e.root e.highlighter e.options
        [.code "vue" (some "a=\"b\"") "x", .code "vue" (some "a=1&b=2") "y"] [] =
          .ok [r, r'] ["x", "y"] ∧
      r.node = .reference name markup ∧ r'.node = .reference name' markup' ∧
      params? markup = some ["a="] ∧
      params? markup ≠ some (Attributes.parse (some "a=\"b\"")).params ∧
      params? markup' = some ["a=1", "b=2"] ∧
      params? markup' ≠ some (Attributes.parse (some "a=1&b=2")).params := by
  intro e
  have hbuild := build_eq_ok (e := e) (by decide) (fun _ code => ⟨code, rfl⟩) []
    [.code "vue" (some "a=\"b\"") "x", .code "vue" (some "a=1&b=2") "y"] []
  have hquote : params? (referenceMarkup (e.options.wrapperFor (some "a=\"b\"")) (e.nameAt 0) "x"
      (Attributes.parse (some "a=\"b\"")).params) = some ["a="] := by
    decide +kernel
  have hand : params? (referenceMarkup (e.options.wrapperFor (some "a=1&b=2")) (e.nameAt 1) "y"
      (Attributes.parse (some "a=1&b=2")).params) = some ["a=1", "b=2"] := by
    decide +kernel
  refine ⟨_, _, _, _, _, _, hbuild, e.node_replacement [] "x" _, e.node_replacement [] "y" _,
    hquote, fun h => ?_, hand, fun h => ?_⟩
  · exact absurd (hquote.symm.trans h) (by decide)
  · exact absurd (hand.symm.trans h) (by decide)

end Replacement

end DemoPages
