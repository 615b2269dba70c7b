import Mathlib.Data.List.Basic
import DemoPages.Settings

/-!
# The layers that settings come from

A field has the value of the highest layer that gives one: the overrides, the environment, the
configuration file and the defaults (`Settings.valueIn`). `Settings.load_of_mapping` says that
loading comes to this and to nothing else: which settings there are, and which fields are refused,
is read off these values alone. What a lower layer gives, and what stands under other keys, is never
looked at.
-/

namespace DemoPages.Settings

/-! ### The value of a field -/

/-- The value of the last override for a field that is not left open. -/
def fromOverrides? (overrides : List (String × Option Given)) (f : Field) : Option Given :=
  (overrides.filterMap fun o => if o.1 = f.key then o.2 else none).getLast?

/-- The value of the last entry for a field. -/
def fromEntries? (entries : List (Key × Given)) (f : Field) : Option Given :=
  (entries.filterMap fun e => if e.1 = .text f.key then some e.2 else none).getLast?

/-- What the layers above the defaults give for a field. -/
def given (environment : List (String × Given)) (overrides : List (String × Option Given))
    (entries : List (Key × Given)) (f : Field) : Option Given :=
  (fromOverrides? overrides f).or ((fromVariable? environment f).or (fromEntries? entries f))

/-- The value of a field. -/
def valueIn (environment : List (String × Given)) (overrides : List (String × Option Given))
    (entries : List (Key × Given)) (f : Field) : Given :=
  (given environment overrides entries f).getD (.text (({} : Settings).get f))

/-! ### Collecting the values -/

section Collecting

variable (environment : List (String × Given)) (overrides : List (String × Option Given))
  {entries : List (Key × Given)} {texts : List (String × Given)}

theorem Field.find?_key (f : Field) : all.find? (fun g => g.key = f.key) = some f := by
  cases f <;> decide

theorem Field.key_injective : Function.Injective Field.key := by
  intro f g h
  have hf := f.find?_key
  rw [h, g.find?_key] at hf
  exact (Option.some.inj hf).symm

/-- A variable of the environment is known by the key of its field. -/
theorem mem_fromVariables {environment : List (String × Given)} {f : Field} {v : Given} :
    (f.key, v) ∈ fromVariables environment ↔ fromVariable? environment f = some v := by
  unfold fromVariables
  rw [List.mem_filterMap]
  constructor
  · rintro ⟨g, -, hg⟩
    obtain ⟨w, hw, heq⟩ := Option.map_eq_some_iff.1 hg
    obtain ⟨hkey, rfl⟩ := Prod.mk.inj heq
    rw [← Field.key_injective hkey, hw]
  · intro h
    exact ⟨f, f.mem_all, by rw [h]; rfl⟩

theorem get?_putAll_fromVariables (m : Keyed String Given) (f : Field) :
    (m.putAll (fromVariables environment)).get? f.key =
      (fromVariable? environment f).or (m.get? f.key) := by
  cases h : fromVariable? environment f with
  | none =>
    refine m.get?_putAll_of_not_mem fun v hv => ?_
    rw [mem_fromVariables, h] at hv
    cases hv
  | some v =>
    refine m.get?_putAll_of_mem (mem_fromVariables.2 h) fun v' hv' => ?_
    rw [mem_fromVariables, h] at hv'
    exact (Option.some.inj hv').symm

theorem get?_putAll_chosen (m : Keyed String Given) (f : Field) :
    (m.putAll (chosen overrides)).get? f.key = (fromOverrides? overrides f).or (m.get? f.key) := by
  rw [Keyed.get?_putAll]
  have hlist : ((chosen overrides).filter fun e => e.1 = f.key).map Prod.snd =
      overrides.filterMap fun o => if o.1 = f.key then o.2 else none := by
    induction overrides with
    | nil => rfl
    | cons o os ih =>
      obtain ⟨key, value⟩ := o
      unfold chosen at ih ⊢
      cases value with
      | none => simpa using ih
      | some v => by_cases h : key = f.key <;> simpa [h] using ih
  rw [hlist]
  rfl

/-- The entries of a configuration are taken if and only if all keys are strings. -/
theorem texts?_eq_none : texts? entries = none ↔ ∃ e ∈ entries, e.1 = .other := by
  unfold texts?
  split
  · rename_i hany
    exact iff_of_true rfl (by simpa using hany)
  · rename_i hany
    exact iff_of_false (by simp) (by simpa using hany)

theorem get?_putAll_texts (m : Keyed String Given) (h : texts? entries = some texts) (f : Field) :
    (m.putAll texts).get? f.key = (fromEntries? entries f).or (m.get? f.key) := by
  rw [Keyed.get?_putAll]
  have htexts : texts = entries.filterMap fun e => e.1.text?.map fun key => (key, e.2) := by
    unfold texts? at h
    split at h
    · cases h
    · exact (Option.some.inj h).symm
  have hlist : (texts.filter fun e => e.1 = f.key).map Prod.snd =
      entries.filterMap fun e => if e.1 = .text f.key then some e.2 else none := by
    rw [htexts]
    clear h htexts
    induction entries with
    | nil => rfl
    | cons e es ih =>
      obtain ⟨key, v⟩ := e
      cases key with
      | text key => by_cases hf : key = f.key <;> simpa [Key.text?, hf] using ih
      | broken => simpa [Key.text?] using ih
      | other => simpa [Key.text?] using ih
  rw [hlist]
  rfl

/-- The collection of values holds for a field what the highest layer gives. -/
theorem get?_collected (h : texts? entries = some texts) (f : Field) :
    (((Keyed.putAll {} texts).putAll (fromVariables environment)).putAll
        (chosen overrides)).get? f.key =
      given environment overrides entries f := by
  rw [get?_putAll_chosen, get?_putAll_fromVariables, get?_putAll_texts _ h, Keyed.get?_empty,
    Option.or_none]
  rfl

end Collecting

/-! ### Checking the values -/

/-- A value for a field is read as a text, and the extension is one. -/
def Fits (f : Field) (v : Given) (s : String) : Prop :=
  v.read = .ok s ∧ (f = .extension → isExtension s = true)

theorem check_ok {f : Field} {v : Given} {s : String} : check f v = .ok s ↔ Fits f v s := by
  unfold check Fits
  cases v.read with
  | error w => simp [bind, Except.bind]
  | ok x =>
    by_cases h : f = .extension ∧ isExtension x = false
    · have hnot (hx : x = s) : ¬ (f = .extension → isExtension s = true) := by
        subst hx
        simp [h]
      simpa [bind, Except.bind, h] using hnot
    · have hfits (hx : x = s) : f = .extension → isExtension s = true := by
        subst hx
        simpa using h
      simpa [bind, Except.bind, h, pure, Except.pure] using hfits

instance (f : Field) (v : Given) : Decidable (∃ s, Fits f v s) :=
  match h : check f v with
  | .ok s => .isTrue ⟨s, check_ok.1 h⟩
  | .error w => .isFalse fun ⟨s, hs⟩ => by cases h.symm.trans (check_ok.2 hs)

/-- A value that does not fit has a flaw. -/
theorem check_error {f : Field} {v : Given} : (∃ w, check f v = .error w) ↔ ¬ ∃ s, Fits f v s := by
  constructor
  · rintro ⟨w, hw⟩ ⟨s, hs⟩
    cases hw.symm.trans (check_ok.2 hs)
  · intro h
    cases hc : check f v with
    | ok s => exact absurd ⟨s, check_ok.1 hc⟩ h
    | error w => exact ⟨w, rfl⟩

/-- Every default fits its field. -/
theorem fits_default (f : Field) :
    Fits f (.text (({} : Settings).get f)) (({} : Settings).get f) := by
  refine ⟨rfl, ?_⟩
  rintro rfl
  decide +kernel

/-- A field that is not given is read as if its default were given. -/
theorem valueOf_eq_check (f : Field) (given? : Option Given) :
    valueOf f given? = check f (given?.getD (.text (({} : Settings).get f))) := by
  cases given? with
  | none => exact (check_ok.2 (fits_default f)).symm
  | some v => rfl

section Values

variable {given? : Field → Option Given}

/-- The fields that are refused are those without a good value, in order; each has the flaw of its
value. -/
theorem map_fst_flaws :
    (flaws given?).map Prod.fst =
      Field.all.filter fun f => !(valueOf f (given? f)).isOk := by
  unfold flaws
  rw [List.map_filterMap, ← List.filterMap_eq_filter]
  refine List.filterMap_congr fun f _ => ?_
  cases h : valueOf f (given? f) <;> simp [Option.guard, h, Except.isOk, Except.toBool]

theorem mem_flaws {f : Field} {w : Flaw} :
    (f, w) ∈ flaws given? ↔ valueOf f (given? f) = .error w := by
  unfold flaws
  rw [List.mem_filterMap]
  constructor
  · rintro ⟨g, -, hg⟩
    split at hg
    · cases hg
    · rename_i w' hw
      cases hg
      exact hw
  · intro h
    exact ⟨f, f.mem_all, by rw [h]⟩

/-- There are settings if and only if every field has a good value; they hold these values. -/
theorem ofValues_ok {s : Settings} :
    ofValues given? = .ok s ↔ ∀ f, valueOf f (given? f) = .ok (s.get f) := by
  unfold ofValues
  cases hflaws : flaws given? with
  | nil =>
    have hok (f : Field) : ∃ x, valueOf f (given? f) = .ok x := by
      cases h : valueOf f (given? f) with
      | ok x => exact ⟨x, rfl⟩
      | error w =>
        have hmem := mem_flaws.2 h
        rw [hflaws] at hmem
        cases hmem
    constructor
    · rintro h f
      cases h
      obtain ⟨x, hx⟩ := hok f
      rw [get_ofFields, hx]
      rfl
    · intro h
      have hvalues : (fun f => (valueOf f (given? f)).toOption.getD "") = s.get := by
        funext f
        rw [h f]
        rfl
      rw [hvalues, ofFields_get]
  | cons p ws =>
    obtain ⟨f, w⟩ := p
    have hbad : valueOf f (given? f) = .error w :=
      mem_flaws.1 (by rw [hflaws]; exact List.mem_cons_self)
    constructor
    · intro h
      cases h
    · intro h
      cases hbad.symm.trans (h f)

theorem ofValues_error {ws : List (Field × Flaw)} :
    ofValues given? = .error ws ↔ ws ≠ [] ∧ ws = flaws given? := by
  unfold ofValues
  cases flaws given? with
  | nil => simp
  | cons w ws' =>
    simp only [Except.error.injEq, eq_comm]
    constructor
    · rintro rfl
      simp
    · rintro ⟨-, rfl⟩
      rfl

theorem ofValues_congr {given' : Field → Option Given}
    (h : ∀ f, valueOf f (given? f) = valueOf f (given' f)) : ofValues given? = ofValues given' := by
  have hflaws : flaws given? = flaws given' := List.filterMap_congr fun f _ => by rw [h f]
  unfold ofValues
  rw [hflaws]
  simp only [h]

end Values

/-! ### Loading -/

section Loading

variable {reader : Reader} {d : Disk} {environment : List (String × Given)}
  {overrides : List (String × Option Given)} {document : Document} {entries : List (Key × Given)}

/-- The settings for a mapping are read off the values that the layers give. -/
theorem ofDocument_mapping (hentries : document.entries? = some entries)
    {texts : List (String × Given)} (htexts : texts? entries = some texts) :
    ofDocument environment overrides document =
      (ofValues (given environment overrides entries)).mapError .flaws := by
  have hgiven := funext (get?_collected environment overrides htexts)
  simp only [ofDocument, hentries, htexts, hgiven]

/-- Only for a mapping with strings as keys there are settings. -/
theorem ofDocument_ok {s : Settings} (h : ofDocument environment overrides document = .ok s) :
    ∃ entries, document.entries? = some entries ∧
      ofValues (given environment overrides entries) = .ok s := by
  cases hentries : document.entries? with
  | none =>
    simp only [ofDocument, hentries] at h
    cases h
  | some entries =>
    refine ⟨entries, rfl, ?_⟩
    cases htexts : texts? entries with
    | none =>
      simp only [ofDocument, hentries, htexts] at h
      cases h
    | some texts =>
      rw [ofDocument_mapping hentries htexts] at h
      cases hvalues : ofValues (given environment overrides entries) with
      | error ws =>
        rw [hvalues] at h
        cases h
      | ok s' =>
        rw [hvalues] at h
        cases h
        rfl

end Loading

end DemoPages.Settings
