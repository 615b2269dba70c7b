/-!
# Steps that may fail

How a sequence of two steps on a state ends, told from how the steps end. A step that fails keeps
the state it has reached.
-/

namespace DemoPages.Effect

variable {ε σ α β : Type}

/-- The state at the end of a step, however it ends. -/
def final : EStateM.Result ε σ α → σ
  | .ok _ t => t
  | .error _ t => t

@[simp] theorem final_ok (a : α) (t : σ) : final (.ok a t : EStateM.Result ε σ α) = t := rfl

@[simp] theorem final_error (e : ε) (t : σ) : final (.error e t : EStateM.Result ε σ α) = t := rfl

/-- Does a step end well? -/
def succeeds : EStateM.Result ε σ α → Bool
  | .ok _ _ => true
  | .error _ _ => false

theorem eq_ok_of_succeeds {r : EStateM.Result ε σ Unit} (h : succeeds r = true) :
    ∃ t, r = .ok () t := by
  cases r with
  | ok _ t => exact ⟨t, rfl⟩
  | error e t => cases h

theorem ok_of_succeeds {r : EStateM.Result ε σ α} (h : succeeds r = true) : ∃ a t, r = .ok a t := by
  cases r with
  | ok a t => exact ⟨a, t, rfl⟩
  | error e t => cases h

theorem bind_of_ok {x : EStateM ε σ α} {s t : σ} {a : α} (h : x s = .ok a t)
    (f : α → EStateM ε σ β) : (x >>= f) s = f a t := by
  show EStateM.bind x f s = _
  rw [EStateM.bind, h]

theorem bind_of_error {x : EStateM ε σ α} {s t : σ} {e : ε} (h : x s = .error e t)
    (f : α → EStateM ε σ β) : (x >>= f) s = .error e t := by
  show EStateM.bind x f s = _
  rw [EStateM.bind, h]

theorem get_bind (f : σ → EStateM ε σ β) (s : σ) : (get >>= f) s = f s s := rfl

theorem modify_bind (g : σ → σ) (f : PUnit → EStateM ε σ β) (s : σ) :
    (modify g >>= f) s = f ⟨⟩ (g s) := rfl

theorem bind_ok {x : EStateM ε σ α} {f : α → EStateM ε σ β} {s t : σ} {b : β} :
    (x >>= f) s = .ok b t ↔ ∃ a u, x s = .ok a u ∧ f a u = .ok b t := by
  cases h : x s with
  | ok a u =>
    rw [bind_of_ok h]
    refine ⟨fun h' => ⟨a, u, rfl, h'⟩, ?_⟩
    rintro ⟨_, _, h', h''⟩
    cases h'
    exact h''
  | error e u => simp [bind_of_error h]

theorem bind_error {x : EStateM ε σ α} {f : α → EStateM ε σ β} {s t : σ} {e : ε} :
    (x >>= f) s = .error e t ↔ x s = .error e t ∨ ∃ a u, x s = .ok a u ∧ f a u = .error e t := by
  cases h : x s with
  | ok a u =>
    rw [bind_of_ok h]
    refine ⟨fun h' => Or.inr ⟨a, u, rfl, h'⟩, ?_⟩
    rintro (h' | ⟨_, _, h', h''⟩)
    · cases h'
    · cases h'
      exact h''
  | error e' u => simp [bind_of_error h]

/-- What two steps do to their states, a sequence of the two does, even if it stops after the
first. -/
theorem bind_keeps {R : σ → σ → Prop} (trans : ∀ {s t u}, R s t → R t u → R s u)
    {x : EStateM ε σ α} {f : α → EStateM ε σ β} (hx : ∀ s, R s (final (x s)))
    (hf : ∀ a s, R s (final (f a s))) (s : σ) : R s (final ((x >>= f) s)) := by
  have hfirst := hx s
  cases h : x s with
  | ok a t =>
    rw [h, final_ok] at hfirst
    rw [bind_of_ok h]
    exact trans hfirst (hf a t)
  | error e t =>
    rw [h, final_error] at hfirst
    rwa [bind_of_error h]

theorem ofExcept_ok {x : Except ε α} {s t : σ} {a : α} :
    (MonadExcept.ofExcept x : EStateM ε σ α) s = .ok a t ↔ x = .ok a ∧ s = t := by
  cases x with
  | ok a' => show EStateM.Result.ok a' s = _ ↔ _; simp
  | error e => show EStateM.Result.error e s = _ ↔ _; simp

theorem ofExcept_error {x : Except ε α} {s t : σ} {e : ε} :
    (MonadExcept.ofExcept x : EStateM ε σ α) s = .error e t ↔ x = .error e ∧ s = t := by
  cases x with
  | ok a => show EStateM.Result.ok a s = _ ↔ _; simp
  | error e' => show EStateM.Result.error e' s = _ ↔ _; simp

end DemoPages.Effect
