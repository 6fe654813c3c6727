import Daichod.Library.Machine
import Mathlib.Data.List.Forall2

/-!
# Daichod.Library.Sweep

A sweep treats the items of a list one by one, and can be broken off between any two of
them. Where treating an item twice is treating it once, a sweep broken off any number of
times and started over each time comes to the same as one that was left alone
(`Partly.map_eq`, and over whole runs `Partly.run`).
-/

universe u v

namespace Sweep

variable {α : Type u} {f : α → α} {l l' l'' : List α}

/-- Some of the items have been treated, the others are as they were. -/
def Partly (f : α → α) (l l' : List α) : Prop := List.Forall₂ (fun a b => b = a ∨ b = f a) l l'

@[simp] theorem Partly.refl (l : List α) : Partly f l l :=
  List.forall₂_same.mpr fun _ _ => Or.inl rfl

/-- The chosen items have been treated. -/
theorem Partly.of_choice (p : α → Prop) [DecidablePred p] :
    Partly f l (l.map fun a => if p a then f a else a) := by
  refine List.forall₂_map_right_iff.mpr (List.forall₂_same.mpr fun a _ => ?_)
  by_cases ha : p a
  · exact Or.inr (if_pos ha)
  · exact Or.inl (if_neg ha)

/-- A broken-off sweep can be followed by another. -/
theorem Partly.trans (hf : ∀ a, f (f a) = f a) (h : Partly f l l') (h' : Partly f l' l'') :
    Partly f l l'' := by
  induction h generalizing l'' with
  | nil =>
    cases h'
    exact .nil
  | cons hab _ ih =>
    cases h' with
    | cons hbc hrest =>
      refine .cons ?_ (ih hrest)
      rcases hab with rfl | rfl
      · exact hbc
      · rcases hbc with rfl | rfl
        · exact Or.inr rfl
        · exact Or.inr (hf _)

/-- **What a complete sweep makes of a list does not depend on the broken-off ones before
it.** -/
theorem Partly.map_eq (hf : ∀ a, f (f a) = f a) (h : Partly f l l') : l'.map f = l.map f := by
  induction h with
  | nil => rfl
  | cons hab _ ih =>
    rw [List.map_cons, List.map_cons, ih]
    rcases hab with rfl | rfl
    · rfl
    · rw [hf]

/-- After a complete sweep there is nothing left to treat. -/
theorem map_map (hf : ∀ a, f (f a) = f a) (l : List α) : (l.map f).map f = l.map f := by
  rw [List.map_map]
  exact List.map_congr_left fun a _ => hf a

/-- What has been treated of an item stays so along a run of broken-off sweeps. -/
theorem Partly.run {σ : Type u} {ε : Type v} (step : σ → ε → σ) (items : σ → List α)
    (hf : ∀ a, f (f a) = f a) (hstep : ∀ s e, Partly f (items s) (items (step s e))) (s : σ)
    (events : List ε) : Partly f (items s) (items (Machine.run step s events)) := by
  induction events generalizing s with
  | nil => exact .refl _
  | cons e events ih => exact (hstep s e).trans hf (ih (step s e))

end Sweep
