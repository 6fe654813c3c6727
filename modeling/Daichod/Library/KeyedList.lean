import Mathlib.Algebra.BigOperators.Group.List.Basic
import Mathlib.Data.List.Nodup

/-!
# Daichod.Library.KeyedList

Lists whose entries have keys, and lists of updates to them: each update may target one
key, and no key is targeted twice. Applying the updates one after the other is then one
`map` (`update_cons_of_some`), and what they add up to over the entries is what they add up to over
the updates (`sum_found`).
-/

universe u v w

namespace KeyedList

variable {α : Type u} {κ : Type v} {π : Type w} [DecidableEq κ]

/-- The update that targets a key. -/
def find (target : π → Option κ) (ps : List π) (k : κ) : Option π :=
  ps.find? fun p => target p = some k

/-- What the updates make of one entry. -/
def update (key : α → κ) (target : π → Option κ) (f : π → α → α) (ps : List π) (a : α) : α :=
  match find target ps (key a) with
  | some p => f p a
  | none => a

variable {key : α → κ} {target : π → Option κ} {f : π → α → α} {p : π} {ps : List π} {k : κ}
  {a : α}

/-- Nothing is found in an empty list of updates. -/
@[simp] theorem find_nil : find target [] k = none := rfl

/-- The first update under the key is the one found. -/
theorem find_cons_of_eq (h : target p = some k) : find target (p :: ps) k = some p := by
  simp [find, h]

/-- An update of another key is passed over. -/
theorem find_cons_of_ne (h : target p ≠ some k) : find target (p :: ps) k = find target ps k := by
  simp [find, h]

/-- Nothing is found under the keys that no update targets. -/
theorem find_eq_none : find target ps k = none ↔ k ∉ ps.filterMap target := by
  simp only [find, List.find?_eq_none, List.mem_filterMap, decide_eq_true_eq, not_exists, not_and]

/-- With no key targeted twice, an update is found by its key. -/
theorem find_of_mem (hps : (ps.filterMap target).Nodup) (hp : p ∈ ps) (hk : target p = some k) :
    find target ps k = some p := by
  induction ps with
  | nil => cases hp
  | cons q ps ih =>
    cases hq : target q with
    | none =>
      rw [List.filterMap_cons_none hq] at hps
      rcases List.mem_cons.mp hp with rfl | hp
      · rw [hq] at hk
        cases hk
      · rw [find_cons_of_ne (by simp [hq])]
        exact ih hps hp
    | some k' =>
      rw [List.filterMap_cons_some hq, List.nodup_cons] at hps
      rcases List.mem_cons.mp hp with rfl | hp
      · exact find_cons_of_eq hk
      · have hne : target q ≠ some k := by
          rw [hq]
          intro heq
          exact hps.1 (Option.some.inj heq ▸ List.mem_filterMap.mpr ⟨p, hp, hk⟩)
        rw [find_cons_of_ne hne]
        exact ih hps.2 hp

/-- With no updates an entry stays as it is. -/
@[simp] theorem update_nil : update key target f [] a = a := rfl

/-- An entry that no update targets is left alone. -/
theorem update_of_not_mem (h : key a ∉ ps.filterMap target) : update key target f ps a = a := by
  rw [update, find_eq_none.mpr h]

/-- An entry is changed by the update of its key. -/
theorem update_of_find (h : find target ps (key a) = some p) :
    update key target f ps a = f p a := by
  rw [update, h]

/-- An update without a target changes nothing. -/
theorem update_cons_of_none (h : target p = none) :
    update key target f (p :: ps) a = update key target f ps a := by
  rw [update, find_cons_of_ne (by simp [h]), update]

/-- The updates behind one that targets `k` leave the entry of `k` to it. -/
theorem update_cons_of_some (hkey : ∀ p a, key (f p a) = key a) (h : target p = some k)
    (hps : k ∉ ps.filterMap target) :
    update key target f (p :: ps) a
      = update key target f ps (if key a = k then f p a else a) := by
  by_cases hk : key a = k
  · have hnot : key (f p a) ∉ ps.filterMap target := by
      rw [hkey, hk]
      exact hps
    rw [if_pos hk, update_of_find (find_cons_of_eq (hk ▸ h)), update_of_not_mem hnot]
  · have hne : target p ≠ some (key a) := by
      rw [h]
      intro heq
      exact hk (Option.some.inj heq).symm
    rw [if_neg hk, update, find_cons_of_ne hne, update]

section Sum

variable {M : Type*} [AddCommMonoid M] {l : List α} {v : π → M}

/-- Of distinct keys, one entry has a given one. -/
theorem sum_ite_key (hl : (l.map key).Nodup) (hk : k ∈ l.map key) (c : M) :
    (l.map fun a => if key a = k then c else 0).sum = c := by
  induction l with
  | nil => cases hk
  | cons a l ih =>
    rw [List.map_cons, List.nodup_cons] at hl
    rw [List.map_cons, List.sum_cons]
    by_cases hak : key a = k
    · have hrest : (l.map fun b => if key b = k then c else 0) = l.map fun _ => 0 := by
        refine List.map_congr_left fun b hb => if_neg fun hbk => ?_
        exact hl.1 (List.mem_map.mpr ⟨b, hb, hbk.trans hak.symm⟩)
      rw [if_pos hak, hrest]
      simp
    · rw [if_neg hak, zero_add]
      rcases List.mem_cons.mp hk with hk | hk
      · exact absurd hk.symm hak
      · exact ih hl.2 hk

/-- **What the updates add up to**, entry by entry, is what they add up to. -/
theorem sum_found (key : α → κ) (hl : (l.map key).Nodup) (hps : (ps.filterMap target).Nodup)
    (hmem : ∀ k ∈ ps.filterMap target, k ∈ l.map key) :
    (l.map fun a => ((find target ps (key a)).map v).getD 0).sum
      = ((ps.filter fun p => (target p).isSome).map v).sum := by
  induction ps with
  | nil => simp
  | cons p ps ih =>
    cases hp : target p with
    | none =>
      rw [List.filterMap_cons_none hp] at hps hmem
      have hskip : ∀ k, find target (p :: ps) k = find target ps k := fun k =>
        find_cons_of_ne (by simp [hp])
      simp only [hskip]
      rw [ih hps hmem, List.filter_cons_of_neg (by simp [hp])]
    | some k =>
      rw [List.filterMap_cons_some hp] at hps hmem
      rw [List.nodup_cons] at hps
      -- The entry of `k` is no other update's, so the sums separate.
      have hsplit : ∀ a, ((find target (p :: ps) (key a)).map v).getD 0
          = (if key a = k then v p else 0) + ((find target ps (key a)).map v).getD 0 := by
        intro a
        by_cases hak : key a = k
        · rw [if_pos hak, hak, find_cons_of_eq hp, find_eq_none.mpr hps.1]
          simp
        · have hne : target p ≠ some (key a) := by
            rw [hp]
            intro heq
            exact hak (Option.some.inj heq).symm
          rw [if_neg hak, find_cons_of_ne hne, zero_add]
      simp only [hsplit]
      rw [List.sum_map_add, sum_ite_key hl (hmem k List.mem_cons_self) (v p),
        ih hps.2 (fun k' hk' => hmem k' (List.mem_cons_of_mem _ hk')),
        List.filter_cons_of_pos (by simp [hp]), List.map_cons, List.sum_cons]

end Sum

end KeyedList
