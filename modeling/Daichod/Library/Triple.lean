import Mathlib.Logic.Basic

/-!
# Daichod.Library.Triple

Hoare triples for programs with a state and exceptions, where an exception leaves the state
as it is when it is thrown. A triple has two postconditions, one for a return and one for a
throw; the rules follow the program.
-/

universe u

/-- From a state in `P`, `x` returns with `Q` or throws with `E`. -/
def Triple {ε σ α : Type u} (P : σ → Prop) (x : EStateM ε σ α) (Q : α → σ → Prop)
    (E : σ → Prop) : Prop :=
  ∀ s, P s → match x s with
    | .ok a s' => Q a s'
    | .error _ s' => E s'

namespace Triple

variable {ε σ α β : Type u} {P P' : σ → Prop} {Q Q' : α → σ → Prop} {R : β → σ → Prop}
  {E E' : σ → Prop} {x : EStateM ε σ α} {f : α → EStateM ε σ β} {e : ε} {s s' : σ} {a : α}

/-- What holds after a return. -/
theorem ok (h : Triple P x Q E) (hP : P s) (hx : x s = .ok a s') : Q a s' := by
  have hs := h s hP
  rwa [hx] at hs

/-- What holds after a throw. -/
theorem error (h : Triple P x Q E) (hP : P s) (hx : x s = .error e s') : E s' := by
  have hs := h s hP
  rwa [hx] at hs

/-- The rule of consequence. -/
theorem mono (h : Triple P x Q E) (hP : ∀ s, P' s → P s) (hQ : ∀ a s, Q a s → Q' a s)
    (hE : ∀ s, E s → E' s) : Triple P' x Q' E' := by
  intro s hP'
  have hs := h s (hP s hP')
  cases hx : x s with
  | ok a s' =>
    rw [hx] at hs
    exact hQ a s' hs
  | error e s' =>
    rw [hx] at hs
    exact hE s' hs

/-- The rule of a return. -/
theorem returns (h : ∀ s, P s → Q a s) : Triple P (pure a : EStateM ε σ α) Q E := h

/-- The rule of a throw. -/
theorem throws (h : ∀ s, P s → E s) : Triple P (throw e : EStateM ε σ α) Q E := h

/-- The rule of a change of the state. -/
theorem modifies_eq {g : σ → σ} {Q : PUnit → σ → Prop} (h : Q ⟨⟩ (g s)) :
    Triple (· = s) (modify g : EStateM ε σ PUnit) Q E := by
  rintro _ rfl
  exact h

/-- A sequence, executed. -/
theorem run_bind (x : EStateM ε σ α) (f : α → EStateM ε σ β) (s : σ) :
    (x >>= f) s = match x s with
      | .ok a s' => f a s'
      | .error e s' => .error e s' := by
  show EStateM.bind x f s = _
  unfold EStateM.bind
  cases x s <;> rfl

/-- The rule of composition. -/
theorem bind (hx : Triple P x Q E) (hf : ∀ a, Triple (Q a) (f a) R E) :
    Triple P (x >>= f) R E := by
  intro s hP
  have hs := hx s hP
  rw [run_bind]
  cases hx : x s with
  | ok a s' =>
    rw [hx] at hs
    exact hf a s' hs
  | error e s' =>
    rw [hx] at hs
    exact hs

/-- A program may look at its state. -/
theorem get_bind {f : σ → EStateM ε σ β} (h : ∀ s, P s → Triple (· = s) (f s) R E) :
    Triple P (get >>= f) R E := fun s hP => h s hP s rfl

/-- A program may change its state. -/
theorem modify_bind {g : σ → σ} {k : PUnit → EStateM ε σ β} (h : Triple (· = g s) (k ⟨⟩) R E) :
    Triple (· = s) (modify g >>= k) R E := by
  rintro _ rfl
  exact h (g _) rfl

/-- A return, from one state. -/
theorem returns_eq (h : Q a s) : Triple (· = s) (pure a : EStateM ε σ α) Q E := by
  rintro _ rfl
  exact h

/-- A throw, from one state. -/
theorem throws_eq (h : E s) : Triple (· = s) (throw e : EStateM ε σ α) Q E := by
  rintro _ rfl
  exact h

/-- An exception may be replaced by another. -/
theorem rethrow {handle : ε → ε} (h : Triple P x Q E) :
    Triple P (tryCatch x fun e => throw (handle e)) Q E := by
  intro s hP
  have hs := h s hP
  show match EStateM.tryCatch x (fun e => throw (handle e)) s with
    | .ok a s' => Q a s'
    | .error _ s' => E s'
  unfold EStateM.tryCatch
  cases hx : x s with
  | ok a s' =>
    rw [hx] at hs
    exact hs
  | error e s' =>
    rw [hx] at hs
    exact hs

end Triple
