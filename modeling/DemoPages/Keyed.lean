/-!
# Values under keys

A collection of values under keys that remembers the order in which the keys came. A new
value for a known key takes the place of the old one; a key that was erased and comes again
stands last.
-/

namespace DemoPages

/-- Values of `α` under keys of `κ`, in the order in which the keys came. -/
structure Keyed (κ α : Type) where
  entries : List (κ × α) := []
  deriving DecidableEq, Repr

namespace Keyed

variable {κ α : Type} [DecidableEq κ]

/-- The keys, in order. -/
def keys (m : Keyed κ α) : List κ := m.entries.map Prod.fst

/-- The number of keys. -/
def size (m : Keyed κ α) : Nat := m.entries.length

/-- The value under a key. -/
def get? (m : Keyed κ α) (k : κ) : Option α := m.entries.lookup k

/-- Writes a value into a list of entries: over that of the same key, or at the end. -/
def putIn (k : κ) (v : α) : List (κ × α) → List (κ × α)
  | [] => [(k, v)]
  | e :: es => if e.1 = k then (k, v) :: es else e :: putIn k v es

/-- Writes a value under a key. -/
def put (m : Keyed κ α) (k : κ) (v : α) : Keyed κ α := ⟨putIn k v m.entries⟩

/-- Writes values under keys, one after the other. -/
def putAll (m : Keyed κ α) (es : List (κ × α)) : Keyed κ α := es.foldl (fun m e => m.put e.1 e.2) m

/-- Takes a key out. -/
def erase (m : Keyed κ α) (k : κ) : Keyed κ α := ⟨m.entries.filter fun e => e.1 ≠ k⟩

/-! ## What the operations do to keys and values -/

@[simp] theorem get?_empty (k : κ) : ({} : Keyed κ α).get? k = none := rfl

theorem lookup_cons_of_ne {k : κ} {e : κ × α} (h : k ≠ e.1) (es : List (κ × α)) :
    (e :: es).lookup k = es.lookup k := by
  obtain ⟨key, value⟩ := e
  have hk : (k == key) = false := by simpa using h
  rw [List.lookup_cons, hk]

theorem lookup_putIn_self (k : κ) (v : α) (es : List (κ × α)) :
    (putIn k v es).lookup k = some v := by
  induction es with
  | nil => simp [putIn]
  | cons e es ih =>
    by_cases h : e.1 = k
    · simp [putIn, h]
    · rw [putIn, if_neg h, lookup_cons_of_ne (Ne.symm h), ih]

theorem lookup_putIn_of_ne {k k' : κ} (v : α) (h : k' ≠ k) (es : List (κ × α)) :
    (putIn k v es).lookup k' = es.lookup k' := by
  induction es with
  | nil => rw [putIn, lookup_cons_of_ne h]
  | cons e es ih =>
    by_cases he : e.1 = k
    · have hk : k' ≠ e.1 := fun h' => h (h'.trans he)
      rw [putIn, if_pos he, lookup_cons_of_ne h, lookup_cons_of_ne hk]
    · by_cases hk : k' = e.1
      · subst hk
        rw [putIn, if_neg he, List.lookup_cons_self, List.lookup_cons_self]
      · rw [putIn, if_neg he, lookup_cons_of_ne hk, lookup_cons_of_ne hk, ih]

@[simp] theorem get?_put_self (m : Keyed κ α) (k : κ) (v : α) : (m.put k v).get? k = some v :=
  lookup_putIn_self k v m.entries

theorem get?_put_of_ne (m : Keyed κ α) {k k' : κ} (v : α) (h : k' ≠ k) :
    (m.put k v).get? k' = m.get? k' :=
  lookup_putIn_of_ne v h m.entries

/-- Values under different keys may be put in any order. -/
theorem get?_put_put_comm (m : Keyed κ α) {k k' : κ} (h : k ≠ k') (v v' : α) (x : κ) :
    ((m.put k v).put k' v').get? x = ((m.put k' v').put k v).get? x := by
  by_cases hk : x = k
  · subst hk
    rw [get?_put_of_ne _ _ h, get?_put_self, get?_put_self]
  · rw [get?_put_of_ne _ _ hk]
    by_cases hk' : x = k'
    · subst hk'
      rw [get?_put_self, get?_put_self]
    · rw [get?_put_of_ne _ _ hk', get?_put_of_ne _ _ hk', get?_put_of_ne _ _ hk]

theorem lookup_filter_of_ne {k k' : κ} (h : k' ≠ k) (es : List (κ × α)) :
    (es.filter fun e => e.1 ≠ k).lookup k' = es.lookup k' := by
  induction es with
  | nil => rfl
  | cons e es ih =>
    by_cases he : e.1 = k
    · have hk : k' ≠ e.1 := fun h' => h (h'.trans he)
      rw [List.filter_cons_of_neg (by simpa using he), ih, lookup_cons_of_ne hk]
    · rw [List.filter_cons_of_pos (by simpa using he)]
      by_cases hk : k' = e.1
      · subst hk
        rw [List.lookup_cons_self, List.lookup_cons_self]
      · rw [lookup_cons_of_ne hk, lookup_cons_of_ne hk, ih]

theorem mem_keys {m : Keyed κ α} {k : κ} : k ∈ m.keys ↔ ∃ v, m.get? k = some v := by
  obtain ⟨es⟩ := m
  simp only [keys, get?]
  induction es with
  | nil => simp
  | cons e es ih =>
    by_cases h : k = e.1
    · subst h
      exact iff_of_true List.mem_cons_self ⟨e.2, List.lookup_cons_self⟩
    · rw [lookup_cons_of_ne h, List.map_cons, List.mem_cons, ← ih]
      simp [h]

theorem get?_eq_none {m : Keyed κ α} {k : κ} : m.get? k = none ↔ k ∉ m.keys := by
  rw [mem_keys, not_exists, Option.eq_none_iff_forall_not_mem]
  rfl

@[simp] theorem keys_erase (m : Keyed κ α) (k : κ) :
    (m.erase k).keys = m.keys.filter fun k' => k' ≠ k := by
  simp only [keys, erase, List.filter_map]
  rfl

@[simp] theorem get?_erase_self (m : Keyed κ α) (k : κ) : (m.erase k).get? k = none := by
  rw [get?_eq_none, keys_erase]
  simp

theorem get?_erase_of_ne (m : Keyed κ α) {k k' : κ} (h : k' ≠ k) :
    (m.erase k).get? k' = m.get? k' :=
  lookup_filter_of_ne h m.entries

/-- Of the values put under one key, the last one counts. -/
theorem get?_foldl_put {β : Type} (key : β → κ) (value : β → α) (bs : List β) (m : Keyed κ α)
    (k : κ) :
    (bs.foldl (fun m b => m.put (key b) (value b)) m).get? k =
      ((bs.reverse.find? fun b => key b = k).map value).or (m.get? k) := by
  induction bs generalizing m with
  | nil => simp
  | cons b bs ih =>
    rw [List.foldl_cons, ih, List.reverse_cons, List.find?_append]
    cases hfind : bs.reverse.find? fun b => key b = k with
    | some b' => simp
    | none =>
      by_cases h : key b = k
      · subst h
        simp
      · simp [h, get?_put_of_ne m (value b) fun h' => h h'.symm]

theorem get?_putAll (m : Keyed κ α) (es : List (κ × α)) (k : κ) :
    (m.putAll es).get? k =
      ((es.filter fun e => e.1 = k).map Prod.snd).getLast?.or (m.get? k) := by
  rw [List.getLast?_map, List.getLast?_eq_head?_reverse, ← List.filter_reverse, List.head?_filter]
  exact get?_foldl_put Prod.fst Prod.snd es m k

theorem get?_putAll_of_not_mem (m : Keyed κ α) {es : List (κ × α)} {k : κ}
    (h : ∀ v, (k, v) ∉ es) : (m.putAll es).get? k = m.get? k := by
  have hnil : (es.filter fun e => e.1 = k) = [] := by
    refine List.filter_eq_nil_iff.2 fun e he heq => h e.2 ?_
    rw [← of_decide_eq_true heq]
    exact he
  rw [get?_putAll, hnil]
  rfl

/-- A value is found under a key if it is the only one that is put there. -/
theorem get?_putAll_of_mem (m : Keyed κ α) {es : List (κ × α)} {k : κ} {v : α} (h : (k, v) ∈ es)
    (only : ∀ v', (k, v') ∈ es → v' = v) : (m.putAll es).get? k = some v := by
  rw [get?_putAll]
  cases hlast : ((es.filter fun e => e.1 = k).map Prod.snd).getLast? with
  | none =>
    have hnil := List.map_eq_nil_iff.1 (List.getLast?_eq_none_iff.1 hlast)
    exact absurd (by simp) (List.filter_eq_nil_iff.1 hnil (k, v) h)
  | some v' =>
    obtain ⟨e, he, rfl⟩ := List.mem_map.1 (List.mem_of_getLast? hlast)
    obtain ⟨hmem, hkey⟩ := List.mem_filter.1 he
    have hk : e.1 = k := of_decide_eq_true hkey
    rw [only e.2 (hk ▸ hmem)]
    rfl

/-! ## Putting one collection into another -/

theorem mem_keys_put {m : Keyed κ α} {k k' : κ} {v : α} :
    k' ∈ (m.put k v).keys ↔ k' = k ∨ k' ∈ m.keys := by
  rw [mem_keys, mem_keys]
  by_cases h : k' = k
  · subst h
    exact iff_of_true ⟨v, get?_put_self m k' v⟩ (Or.inl rfl)
  · rw [get?_put_of_ne m v h]
    exact (or_iff_right h).symm

theorem keys_put_of_mem {m : Keyed κ α} {k : κ} (h : k ∈ m.keys) (v : α) :
    (m.put k v).keys = m.keys := by
  obtain ⟨es⟩ := m
  replace h : k ∈ es.map Prod.fst := h
  show (putIn k v es).map Prod.fst = es.map Prod.fst
  induction es with
  | nil => cases h
  | cons e es ih =>
    by_cases he : e.1 = k
    · rw [putIn, if_pos he, List.map_cons, List.map_cons, he]
    · rw [putIn, if_neg he, List.map_cons, List.map_cons,
        ih ((List.mem_cons.1 h).resolve_left (Ne.symm he))]

theorem keys_put_of_not_mem {m : Keyed κ α} {k : κ} (h : k ∉ m.keys) (v : α) :
    (m.put k v).keys = m.keys ++ [k] := by
  obtain ⟨es⟩ := m
  replace h : k ∉ es.map Prod.fst := h
  show (putIn k v es).map Prod.fst = es.map Prod.fst ++ [k]
  induction es with
  | nil => rfl
  | cons e es ih =>
    rw [List.map_cons, List.mem_cons, not_or] at h
    rw [putIn, if_neg (Ne.symm h.1), List.map_cons, ih h.2, List.map_cons, List.cons_append]

theorem nodup_keys_put {m : Keyed κ α} (h : m.keys.Nodup) (k : κ) (v : α) :
    (m.put k v).keys.Nodup := by
  by_cases hk : k ∈ m.keys
  · rwa [keys_put_of_mem hk]
  · rw [keys_put_of_not_mem hk, List.nodup_append]
    refine ⟨h, by simp, fun a ha b hb => ?_⟩
    rw [List.mem_singleton.1 hb]
    rintro rfl
    exact hk ha

theorem nodup_keys_putAll {m : Keyed κ α} (h : m.keys.Nodup) (es : List (κ × α)) :
    (m.putAll es).keys.Nodup := by
  induction es generalizing m with
  | nil => exact h
  | cons e es ih => exact ih (nodup_keys_put h e.1 e.2)

/-- The new keys come behind those that were there. -/
theorem keys_putAll (m : Keyed κ α) {es : List (κ × α)} (h : (es.map Prod.fst).Nodup) :
    (m.putAll es).keys = m.keys ++ (es.map Prod.fst).filter fun k => k ∉ m.keys := by
  induction es generalizing m with
  | nil => exact (List.append_nil _).symm
  | cons e es ih =>
    obtain ⟨he, hrest⟩ := List.nodup_cons.1 h
    show ((m.put e.1 e.2).putAll es).keys = _
    rw [ih (m.put e.1 e.2) hrest, List.map_cons]
    by_cases hk : e.1 ∈ m.keys
    · rw [keys_put_of_mem hk, List.filter_cons_of_neg (by simpa using hk)]
    · rw [keys_put_of_not_mem hk, List.filter_cons_of_pos (by simpa using hk), List.append_assoc]
      refine congrArg (m.keys ++ e.1 :: ·) (List.filter_congr fun k hmem => ?_)
      have hne : k ≠ e.1 := fun heq => he (heq ▸ hmem)
      simp [hne]

theorem put_put_self (m : Keyed κ α) (k : κ) (v v' : α) : (m.put k v).put k v' = m.put k v' := by
  obtain ⟨es⟩ := m
  refine congrArg Keyed.mk ?_
  show putIn k v' (putIn k v es) = putIn k v' es
  induction es with
  | nil => simp [putIn]
  | cons e es ih =>
    by_cases he : e.1 = k
    · simp [putIn, he]
    · simp only [putIn, if_neg he, ih]

/-- A value for a known key may be put before or after one for another key. -/
theorem put_put_of_mem {m : Keyed κ α} {k k' : κ} (h : k ∈ m.keys) (hne : k' ≠ k) (v v' : α) :
    (m.put k' v').put k v = (m.put k v).put k' v' := by
  obtain ⟨es⟩ := m
  refine congrArg Keyed.mk ?_
  replace h : k ∈ es.map Prod.fst := h
  show putIn k v (putIn k' v' es) = putIn k' v' (putIn k v es)
  induction es with
  | nil => cases h
  | cons e es ih =>
    by_cases he : e.1 = k
    · simp [putIn, he, hne.symm]
    · by_cases he' : e.1 = k'
      · simp [putIn, he', hne]
      · have hmem : k ∈ es.map Prod.fst := (List.mem_cons.1 h).resolve_left (Ne.symm he)
        simp only [putIn, if_neg he, if_neg he', ih hmem]

theorem putAll_put_of_mem {m : Keyed κ α} {k : κ} (h : k ∈ m.keys) {es : List (κ × α)}
    (hes : k ∉ es.map Prod.fst) (v : α) : (m.putAll es).put k v = (m.put k v).putAll es := by
  induction es generalizing m with
  | nil => rfl
  | cons e es ih =>
    rw [List.map_cons, List.mem_cons, not_or] at hes
    have hk : k ∈ (m.put e.1 e.2).keys := mem_keys_put.2 (Or.inr h)
    exact (ih hk hes.2).trans (congrArg (putAll · es) (put_put_of_mem h (Ne.symm hes.1) v e.2))

theorem putAll_entries_put (m : Keyed κ α) {n : Keyed κ α} (h : n.keys.Nodup) (k : κ) (v : α) :
    m.putAll (n.put k v).entries = (m.putAll n.entries).put k v := by
  obtain ⟨es⟩ := n
  replace h : (es.map Prod.fst).Nodup := h
  show m.putAll (putIn k v es) = (m.putAll es).put k v
  induction es generalizing m with
  | nil => rfl
  | cons e es ih =>
    obtain ⟨he, hrest⟩ := List.nodup_cons.1 h
    by_cases hk : e.1 = k
    · subst hk
      have hmem : e.1 ∈ (m.put e.1 e.2).keys := mem_keys_put.2 (Or.inl rfl)
      rw [putIn, if_pos rfl]
      show (m.put e.1 v).putAll es = ((m.put e.1 e.2).putAll es).put e.1 v
      rw [putAll_put_of_mem hmem he, put_put_self]
    · rw [putIn, if_neg hk]
      exact ih (m.put e.1 e.2) hrest

/-- **To put what some values come to is to put these values**, one after the other. -/
theorem putAll_putAll (m : Keyed κ α) (es : List (κ × α)) :
    m.putAll (putAll {} es).entries = m.putAll es := by
  suffices h : ∀ n : Keyed κ α, n.keys.Nodup →
      m.putAll (n.putAll es).entries = (m.putAll n.entries).putAll es from h {} List.nodup_nil
  induction es with
  | nil => exact fun _ _ => rfl
  | cons e es ih =>
    intro n hn
    show m.putAll ((n.put e.1 e.2).putAll es).entries = _
    rw [ih _ (nodup_keys_put hn e.1 e.2), putAll_entries_put m hn]
    rfl

/-! ## Changing all values -/

/-- The values, each changed, in their order. -/
def mapValues {β : Type} (f : α → β) (m : Keyed κ α) : Keyed κ β :=
  ⟨m.entries.map fun e => (e.1, f e.2)⟩

theorem mapValues_put {β : Type} (f : α → β) (m : Keyed κ α) (k : κ) (v : α) :
    (m.put k v).mapValues f = (m.mapValues f).put k (f v) := by
  obtain ⟨es⟩ := m
  refine congrArg Keyed.mk ?_
  show (putIn k v es).map _ = putIn k (f v) (es.map _)
  induction es with
  | nil => rfl
  | cons e es ih =>
    by_cases he : e.1 = k
    · simp [putIn, he]
    · simp only [putIn, List.map_cons, if_neg he, ih]

theorem mapValues_putAll {β : Type} (f : α → β) (m : Keyed κ α) (es : List (κ × α)) :
    (m.putAll es).mapValues f = (m.mapValues f).putAll (es.map fun e => (e.1, f e.2)) := by
  induction es generalizing m with
  | nil => rfl
  | cons e es ih => exact (ih (m.put e.1 e.2)).trans (congrArg (putAll · _) (mapValues_put f m _ _))

end Keyed

end DemoPages
