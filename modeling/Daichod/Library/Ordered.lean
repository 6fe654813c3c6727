import Mathlib.Order.Basic

/-!
# Daichod.Library.Ordered

Ascending lists, and lists in lexicographic order.

What is cut off the front of an ascending list, so that `k` of its members stay, can be told
member by member (`mem_take_iff`). Words of one length, read as prefixes, decide a comparison
before what follows them does (`append_lt_append_iff`).
-/

universe u

namespace Ordered

variable {α : Type u} [LT α]

/-- An ascending list, cut off in front so that `k` members stay, loses those with `k`
greater ones. -/
theorem mem_take_iff [DecidableLT α] [Std.Asymm (α := α) (· < ·)] {l : List α} {k : ℕ} {a : α}
    (h : l.Pairwise (· < ·)) :
    a ∈ l.take (l.length - k) ↔ a ∈ l ∧ k ≤ l.countP (a < ·) := by
  induction l with
  | nil => simp
  | cons b t ih =>
    obtain ⟨hb, ht⟩ := List.pairwise_cons.mp h
    have hirrefl : ∀ x : α, ¬x < x := fun x hx => Std.Asymm.asymm x x hx hx
    have hfirst : (b :: t).countP (b < ·) = t.length := by
      rw [List.countP_cons_of_neg (by simpa using hirrefl b), List.countP_eq_length]
      intro x hx
      simpa using hb x hx
    have hlater : ∀ x ∈ t, (b :: t).countP (x < ·) = t.countP (x < ·) := fun x hx =>
      List.countP_cons_of_neg (by simpa using Std.Asymm.asymm b x (hb x hx))
    by_cases hk : k ≤ t.length
    · have hlength : (b :: t).length - k = t.length - k + 1 := by
        rw [List.length_cons]
        omega
      rw [hlength, List.take_succ_cons, List.mem_cons, ih ht]
      constructor
      · rintro (rfl | ⟨hmem, hcount⟩)
        · exact ⟨List.mem_cons_self, by rwa [hfirst]⟩
        · exact ⟨List.mem_cons_of_mem _ hmem, by rwa [hlater a hmem]⟩
      · rintro ⟨hmem, hcount⟩
        rcases List.mem_cons.mp hmem with rfl | hmem
        · exact Or.inl rfl
        · exact Or.inr ⟨hmem, by rwa [hlater a hmem] at hcount⟩
    · -- Nothing is cut off, and nothing has so many greater members.
      have hlength : (b :: t).length - k = 0 := by
        rw [List.length_cons]
        omega
      rw [hlength]
      constructor
      · intro hmem
        cases hmem
      · rintro ⟨hmem, hcount⟩
        rcases List.mem_cons.mp hmem with rfl | hmem
        · rw [hfirst] at hcount
          exact absurd hcount hk
        · rw [hlater a hmem] at hcount
          exact absurd (Nat.le_trans hcount List.countP_le_length) hk

/-- What is cut off comes before what stays. -/
theorem lt_of_mem_take_of_mem_drop {l : List α} {n : ℕ} {a b : α} (h : l.Pairwise (· < ·))
    (ha : a ∈ l.take n) (hb : b ∈ l.drop n) : a < b := by
  rw [← List.take_append_drop n l] at h
  exact (List.pairwise_append.mp h).2.2 a ha b hb

/-- Prefixes of one length are compared first. -/
theorem append_lt_append_iff {a b x y : List α} (h : a.length = b.length) :
    a ++ x < b ++ y ↔ a < b ∨ a = b ∧ x < y := by
  induction a generalizing b with
  | nil =>
    obtain rfl := List.length_eq_zero_iff.mp h.symm
    simp
  | cons c a ih =>
    cases b with
    | nil => cases h
    | cons d b =>
      have hlength : a.length = b.length := by simpa using h
      rw [List.cons_append, List.cons_append, List.cons_lt_cons_iff, List.cons_lt_cons_iff,
        ih hlength, List.cons.injEq, and_or_left, or_assoc, and_assoc]

end Ordered
