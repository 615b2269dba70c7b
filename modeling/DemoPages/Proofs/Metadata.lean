import DemoPages.Component.Attributes
import DemoPages.Proofs.Pieces

/-!
# Metadata, joined and read again

What stands behind the language of a fence is read token by token. So a text that is joined from two
by a space has the tokens of both (`tokens_append`), and its attributes are those of the first,
overwritten by those of the second. A parameter is a token again, one with the key and the value of
the token that it came from (`Token.parse_param`), where `true` is written for a key alone. So
parameters that are joined by spaces are read as they are (`Attributes.parse_joined`).
-/

namespace DemoPages

/-- The value of an attribute, as a parameter gives it. -/
def Attribute.spelling : Attribute → String
  | .flag => "true"
  | .text value => value

/-! ### Tokens -/

namespace Token

/-- The token whose value is written out. -/
def spelled (t : Token) : Token := ⟨t.key, .text t.value.spelling⟩

theorem param_eq (t : Token) : t.param = t.key ++ "=" ++ t.value.spelling := by
  unfold param
  split
  case h_1 h => rw [h, Attribute.spelling, String.append_assoc]; rfl
  case h_2 value h => rw [h, Attribute.spelling]

@[simp] theorem param_spelled (t : Token) : t.spelled.param = t.param := by
  rw [param_eq, param_eq]
  rfl

/-- A token is a key alone, or it comes apart at its first equals sign. -/
theorem parse_cases (s : List Char) :
    ('=' ∉ s ∧ parse s = ⟨String.ofList s, .flag⟩) ∨
      ∃ key value, s = key ++ '=' :: value ∧ '=' ∉ key ∧
        parse s = ⟨String.ofList key, .text (String.ofList value)⟩ := by
  by_cases h : '=' ∈ s
  · obtain ⟨key, value, rfl, hkey⟩ := List.eq_append_cons_of_mem h
    refine Or.inr ⟨key, value, rfl, hkey, ?_⟩
    rw [parse, Text.cut_append_cons hkey]
  · refine Or.inl ⟨h, ?_⟩
    rw [parse, Text.cut_of_not_mem h]

/-- A value is a part of the token. -/
theorem value_subset {s : List Char} {value : String} (h : (parse s).value = .text value) :
    value.toList ⊆ s := by
  rcases parse_cases s with ⟨-, heq⟩ | ⟨key, value', rfl, -, heq⟩
  · rw [heq] at h
    cases h
  · rw [heq] at h
    cases h
    rw [String.toList_ofList]
    exact fun c hc => List.mem_append_right _ (List.mem_cons_of_mem _ hc)

theorem equals_not_mem_key (s : List Char) : '=' ∉ (parse s).key.toList := by
  rcases parse_cases s with ⟨h, heq⟩ | ⟨key, value, -, h, heq⟩
  · rwa [heq, String.toList_ofList]
  · rwa [heq, String.toList_ofList]

/-- The parameter of a token is the token, with a value written behind it if it has none. -/
theorem toList_param_parse (s : List Char) :
    (parse s).param.toList = if '=' ∈ s then s else s ++ "=true".toList := by
  rcases parse_cases s with ⟨h, heq⟩ | ⟨key, value, rfl, -, heq⟩
  · rw [if_neg h, heq]
    simp [param]
  · rw [if_pos (by simp), heq]
    simp [param]

/-- **A parameter is read as a token with its key and its value.** -/
theorem parse_param {t : Token} (h : '=' ∉ t.key.toList) : parse t.param.toList = t.spelled := by
  have hparam : t.param.toList = t.key.toList ++ '=' :: t.value.spelling.toList := by
    simp [param_eq]
  rw [hparam, parse, Text.cut_append_cons h]
  simp [spelled]

end Token

/-! ### Attributes -/

namespace Attributes

theorem tokens_append (m₁ m₂ : String) :
    tokens (some (m₁ ++ " " ++ m₂)) = tokens (some m₁) ++ tokens (some m₂) := by
  have hjoin : (m₁ ++ " " ++ m₂).toList = m₁.toList ++ ' ' :: m₂.toList := by simp
  rw [tokens, Option.getD_some, hjoin, Text.split_append_cons, List.map_append]
  rfl

theorem tokens_ne_nil (info : Option String) : tokens info ≠ [] := by
  rw [tokens, ne_eq, List.map_eq_nil_iff]
  exact Text.split_ne_nil ' ' _

theorem space_not_mem_param {info : Option String} {t : Token} (h : t ∈ tokens info) :
    ' ' ∉ t.param.toList := by
  obtain ⟨s, hs, rfl⟩ := List.mem_map.1 h
  have hspace : ' ' ∉ s := fun hmem => (Text.mem_of_mem_split hs hmem).2 rfl
  rw [Token.toList_param_parse]
  split
  · exact hspace
  · simpa using hspace

/-- The parameters hold the characters of the text, but for the spaces and what is written where a
key stands alone. -/
theorem mem_params_iff {c : Char} (hspace : c ≠ ' ') (htrue : c ∉ "=true".toList)
    (info : Option String) :
    (∃ p ∈ (parse info).params, c ∈ p.toList) ↔ c ∈ (info.getD "").toList := by
  have htoken (s : List Char) : c ∈ (Token.parse s).param.toList ↔ c ∈ s := by
    rw [Token.toList_param_parse]
    split
    · rfl
    · rw [List.mem_append, or_iff_left htrue]
  constructor
  · rintro ⟨p, hp, hc⟩
    obtain ⟨t, ht, rfl⟩ := List.mem_map.1 hp
    obtain ⟨s, hs, rfl⟩ := List.mem_map.1 ht
    exact (Text.mem_of_mem_split hs ((htoken s).1 hc)).1
  · intro hc
    obtain ⟨s, hs, hcs⟩ := Text.exists_mem_split hc hspace
    exact ⟨_, List.mem_map_of_mem (List.mem_map_of_mem hs), (htoken s).2 hcs⟩

theorem tokens_params (info : Option String) :
    tokens (some (Text.joinWith " " (parse info).params)) = (tokens info).map Token.spelled := by
  have hjoin : (Text.joinWith " " (parse info).params).toList =
      [' '].intercalate ((tokens info).map fun t => t.param.toList) := by
    rw [Text.toList_joinWith]
    simp [parse, ofTokens, Function.comp_def]
  have hspaces : ∀ p ∈ (tokens info).map fun t => t.param.toList, ' ' ∉ p := by
    intro p hp
    obtain ⟨t, ht, rfl⟩ := List.mem_map.1 hp
    exact space_not_mem_param ht
  have hne : ((tokens info).map fun t => t.param.toList) ≠ [] := by
    rw [ne_eq, List.map_eq_nil_iff]
    exact tokens_ne_nil info
  rw [tokens, Option.getD_some, hjoin, Text.split_intercalate hne hspaces, List.map_map]
  refine List.map_congr_left fun t ht => ?_
  obtain ⟨s, -, rfl⟩ := List.mem_map.1 ht
  exact Token.parse_param (Token.equals_not_mem_key s)

theorem values_eq_putAll (ts : List Token) :
    (ofTokens ts).values = Keyed.putAll {} (ts.map fun t => (t.key, t.value)) := by
  rw [Keyed.putAll, List.foldl_map]
  rfl

theorem nodup_keys_values (ts : List Token) : (ofTokens ts).values.keys.Nodup := by
  rw [values_eq_putAll]
  exact Keyed.nodup_keys_putAll (m := {}) List.nodup_nil _

theorem values_append (ts us : List Token) :
    (ofTokens (ts ++ us)).values = (ofTokens ts).values.putAll (ofTokens us).values.entries := by
  rw [values_eq_putAll us, Keyed.putAll_putAll, values_eq_putAll, values_eq_putAll, List.map_append,
    Keyed.putAll, List.foldl_append]
  rfl

theorem get?_values_append (ts us : List Token) (k : String) :
    (ofTokens (ts ++ us)).values.get? k =
      ((ofTokens us).values.get? k).or ((ofTokens ts).values.get? k) := by
  rw [values_append, values_eq_putAll us, Keyed.putAll_putAll, Keyed.get?_putAll,
    Keyed.get?_putAll {}, Keyed.get?_empty, Option.or_none]

theorem values_spelled (ts : List Token) :
    (ofTokens (ts.map Token.spelled)).values =
      (ofTokens ts).values.mapValues fun a => .text a.spelling := by
  rw [values_eq_putAll, values_eq_putAll, Keyed.mapValues_putAll, List.map_map, List.map_map]
  rfl

/-- **Metadata may be read in parts, and written again.** If two texts are joined by a space, the
parameters of the whole are those of both, and its attributes are those of the first, overwritten by
those of the second: the keys that are new come behind the others, and under a key that both have,
the later value counts. If parameters are joined by spaces, the same parameters are read, and the
same keys in the same order; a value is what it was, or `true` where the key stood alone. -/
theorem parse_joined :
    (∀ m₁ m₂ : String,
      let first := parse (some m₁)
      let second := parse (some m₂)
      let whole := parse (some (m₁ ++ " " ++ m₂))
      whole.params = first.params ++ second.params ∧
        whole.values = first.values.putAll second.values.entries ∧
        whole.values.keys =
          first.values.keys ++ second.values.keys.filter (fun k => k ∉ first.values.keys) ∧
        ∀ k, whole.values.get? k = (second.values.get? k).or (first.values.get? k)) ∧
    ∀ m : String,
      let once := parse (some m)
      let again := parse (some (Text.joinWith " " once.params))
      again.params = once.params ∧
        again.values.entries = once.values.entries.map fun e => (e.1, .text e.2.spelling) := by
  constructor
  · intro m₁ m₂ first second whole
    have hwhole : whole = ofTokens (tokens (some m₁) ++ tokens (some m₂)) :=
      congrArg ofTokens (tokens_append m₁ m₂)
    have hvalues : whole.values = first.values.putAll second.values.entries := by
      rw [hwhole, values_append]
      rfl
    refine ⟨?_, hvalues, ?_, fun k => ?_⟩
    · rw [hwhole]
      exact List.map_append
    · rw [hvalues]
      exact Keyed.keys_putAll _ (nodup_keys_values _)
    · rw [hwhole]
      exact get?_values_append _ _ k
  · intro m once again
    have hagain : again = ofTokens ((tokens (some m)).map Token.spelled) :=
      congrArg ofTokens (tokens_params (some m))
    rw [hagain, values_spelled]
    refine ⟨?_, rfl⟩
    show ((tokens (some m)).map Token.spelled).map Token.param = (tokens (some m)).map Token.param
    rw [List.map_map]
    exact List.map_congr_left fun t _ => t.param_spelled

/-- The key `a` keeps its place, and gets the value that came last. -/
example : (parse (some "a  b= a=x=y")).values.entries =
    [("a", .text "x=y"), ("", .flag), ("b", .text "")] := by decide

end Attributes

end DemoPages
