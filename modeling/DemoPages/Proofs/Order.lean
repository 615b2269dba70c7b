import DemoPages.Proofs.Outputs

/-!
# The order of components

What is put under new keys stands behind all that was there (`Keyed.foldl_put_append`). So when the
components of a page are removed and new ones registered, these stand behind all others. Doing so
for some pages, one after the other, and then again, comes to the same as doing it once
(`foldl_renew_idem`), also if a page is among them twice.
-/

namespace DemoPages

namespace Keyed

variable {κ α β : Type} [DecidableEq κ]

theorem putIn_append {k : κ} (v : α) {es : List (κ × α)} (h : k ∉ es.map Prod.fst)
    (fs : List (κ × α)) : putIn k v (es ++ fs) = es ++ putIn k v fs := by
  induction es with
  | nil => rfl
  | cons e es ih =>
    rw [List.map_cons, List.mem_cons, not_or] at h
    rw [List.cons_append, putIn, if_neg (Ne.symm h.1), ih h.2, List.cons_append]

/-- What is put under new keys comes behind all that was there. -/
theorem foldl_put_append (key : β → κ) (value : β → α) {bs : List β} {es : List (κ × α)}
    (h : ∀ b ∈ bs, key b ∉ es.map Prod.fst) (fs : List (κ × α)) :
    (bs.foldl (fun m b => put m (key b) (value b)) ⟨es ++ fs⟩).entries =
      es ++ (bs.foldl (fun m b => put m (key b) (value b)) ⟨fs⟩).entries := by
  induction bs generalizing fs with
  | nil => rfl
  | cons b bs ih =>
    rw [List.foldl_cons, List.foldl_cons, put, put, putIn_append _ (h b List.mem_cons_self)]
    exact ih (fun b' hb' => h b' (List.mem_cons_of_mem _ hb')) _

/-- What is put under different keys stands as it came. -/
theorem entries_foldl_put (key : β → κ) (value : β → α) {bs : List β} (h : (bs.map key).Nodup) :
    (bs.foldl (fun m b => put m (key b) (value b)) {}).entries =
      bs.map fun b => (key b, value b) := by
  induction bs with
  | nil => rfl
  | cons b bs ih =>
    obtain ⟨hb, hrest⟩ := List.nodup_cons.1 h
    have hnew : ∀ b' ∈ bs, key b' ∉ [(key b, value b)].map Prod.fst := by
      intro b' hb' hmem
      have hkey : key b' = key b := List.mem_singleton.1 hmem
      exact hb (hkey ▸ List.mem_map_of_mem hb')
    exact (foldl_put_append key value hnew []).trans (congrArg _ (ih hrest))

theorem entries_foldl_erase (ks : List κ) (m : Keyed κ α) :
    (ks.foldl erase m).entries = m.entries.filter fun e => e.1 ∉ ks := by
  induction ks generalizing m with
  | nil => simp
  | cons k ks ih =>
    rw [List.foldl_cons, ih, erase, List.filter_filter]
    refine List.filter_congr fun e _ => ?_
    by_cases hk : e.1 = k <;> simp [hk]

/-- A value that is put for a key that has it changes nothing. -/
theorem put_of_get? {m : Keyed κ α} {k : κ} {v : α} (h : m.get? k = some v) : m.put k v = m := by
  obtain ⟨es⟩ := m
  have hsame : putIn k v es = es := by
    replace h : es.lookup k = some v := h
    induction es with
    | nil => cases h
    | cons e es ih =>
      by_cases he : e.1 = k
      · subst he
        rw [List.lookup_cons_self, Option.some_inj] at h
        rw [putIn, if_pos rfl, ← h]
      · rw [lookup_cons_of_ne (Ne.symm he)] at h
        rw [putIn, if_neg he, ih h]
  rw [put, hsame]

end Keyed

/-! ### Renewal -/

section Renewal

variable {κ α β : Type} (own : β → κ → Bool) (new : β → List (κ × α))

/-- Entries with those of one owner taken out, and its new ones behind the others. -/
def renew (es : List (κ × α)) (b : β) : List (κ × α) :=
  (es.filter fun e => !own b e.1) ++ new b

variable {own new}

/-- What some owners renew comes behind what none of them owns. -/
theorem foldl_renew (bs : List β) (es : List (κ × α)) :
    bs.foldl (renew own new) es =
      (es.filter fun e => bs.all fun b => !own b e.1) ++ bs.foldl (renew own new) [] := by
  induction bs generalizing es with
  | nil => simp
  | cons b bs ih =>
    have hfilter : (es.filter fun e => !own b e.1).filter (fun e => bs.all fun b => !own b e.1) =
        es.filter fun e => (b :: bs).all fun b => !own b e.1 := by
      rw [List.filter_filter]
      exact List.filter_congr fun e _ => by rw [List.all_cons, Bool.and_comm]
    rw [List.foldl_cons, ih, List.foldl_cons, ih (renew own new [] b), renew, renew,
      List.filter_append, hfilter, List.filter_nil, List.nil_append, List.append_assoc]

theorem mem_foldl_renew {bs : List β} (hnew : ∀ b ∈ bs, ∀ e ∈ new b, own b e.1 = true)
    {es : List (κ × α)} {e : κ × α} (he : e ∈ bs.foldl (renew own new) es) :
    e ∈ es ∨ ∃ b ∈ bs, own b e.1 = true := by
  induction bs generalizing es with
  | nil => exact Or.inl he
  | cons b bs ih =>
    rcases ih (fun b' hb' => hnew b' (List.mem_cons_of_mem _ hb')) he with hmem | ⟨b', hb', hown⟩
    · rcases List.mem_append.1 hmem with hold | hfresh
      · exact Or.inl (List.mem_of_mem_filter hold)
      · exact Or.inr ⟨b, List.mem_cons_self, hnew b List.mem_cons_self e hfresh⟩
    · exact Or.inr ⟨b', List.mem_cons_of_mem _ hb', hown⟩

/-- **Renewing again changes nothing**, if what each owner brings is its own. -/
theorem foldl_renew_idem {bs : List β} (hnew : ∀ b ∈ bs, ∀ e ∈ new b, own b e.1 = true)
    (es : List (κ × α)) :
    bs.foldl (renew own new) (bs.foldl (renew own new) es) = bs.foldl (renew own new) es := by
  have hnone : (bs.foldl (renew own new) []).filter (fun e => bs.all fun b => !own b e.1) = [] := by
    refine List.filter_eq_nil_iff.2 fun e he hall => ?_
    obtain ⟨b, hb, hown⟩ := (mem_foldl_renew hnew he).resolve_left List.not_mem_nil
    have hnot := List.all_eq_true.1 hall b hb
    simp [hown] at hnot
  rw [foldl_renew bs (bs.foldl (renew own new) es), foldl_renew bs es, List.filter_append, hnone,
    List.append_nil, List.filter_filter]
  simp only [Bool.and_self]

end Renewal

end DemoPages
