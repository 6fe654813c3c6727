import Mathlib.Data.List.Induction
import Mathlib.Order.Lattice

/-!
# Daichod.Library.KeyedSums

Sums kept by key: a list of pairs of a key and a sum, sorted by key, into which values are
added one at a time; a key that is new starts at `zero`. Keys come from a linear order, `op`
is any way of adding a value to a sum.

What the list holds behind some entries is said key by key (`mem_sums`): a key has a sum when
it has a value, and the sum is the fold over its values, in their order.
-/

universe u v w

namespace KeyedSums

variable {κ : Type u} {α : Type v} {β : Type w} [LinearOrder κ] (op : β → α → β) (zero : β)

/-- Add `value` to the sum under `key`. -/
def add (key : κ) (value : α) : List (κ × β) → List (κ × β)
  | [] => [(key, op zero value)]
  | (k, sum) :: rest =>
    if key = k then (k, op sum value) :: rest
    else if key < k then (key, op zero value) :: (k, sum) :: rest
    else (k, sum) :: add key value rest

/-- The sums over some entries. -/
def sums (entries : List (κ × α)) : List (κ × β) :=
  entries.foldl (fun sums entry => add op zero entry.1 entry.2 sums) []

/-- The values under a key, in their order. -/
def valuesAt (k : κ) (entries : List (κ × α)) : List α :=
  (entries.filter fun entry => entry.1 = k).map Prod.snd

/-- No key comes twice, and each comes behind the smaller ones. -/
def Sorted (l : List (κ × β)) : Prop := l.Pairwise fun a b => a.1 < b.1

variable {op zero} {key k : κ} {value : α} {sum : β} {l : List (κ × β)} {entries : List (κ × α)}

/-- Adding a value brings no other key than its own. -/
theorem keys_add {e : κ × β} (h : e ∈ add op zero key value l) : e.1 = key ∨ ∃ s, (e.1, s) ∈ l := by
  -- On the list: the value goes in before a larger key, into the sum of its own, or further on.
  induction l with
  | nil =>
    rw [add, List.mem_singleton] at h
    exact Or.inl (congrArg Prod.fst h)
  | cons head rest ih =>
    obtain ⟨k', s'⟩ := head
    rw [add] at h
    split_ifs at h with heq hlt
    · rcases List.mem_cons.mp h with rfl | h
      · exact Or.inl heq.symm
      · exact Or.inr ⟨e.2, List.mem_cons_of_mem _ h⟩
    · rcases List.mem_cons.mp h with rfl | h
      · exact Or.inl rfl
      · exact Or.inr ⟨e.2, h⟩
    · rcases List.mem_cons.mp h with rfl | h
      · exact Or.inr ⟨s', List.mem_cons_self⟩
      · exact (ih h).imp id fun ⟨s, hs⟩ => ⟨s, List.mem_cons_of_mem _ hs⟩

/-- Adding a value keeps the keys in order. -/
theorem sorted_add (h : Sorted l) (key : κ) (value : α) : Sorted (add op zero key value l) := by
  induction l with
  | nil => exact List.pairwise_singleton _ _
  | cons head rest ih =>
    obtain ⟨k', s'⟩ := head
    obtain ⟨hhead, hrest⟩ := List.pairwise_cons.mp h
    rw [add]
    split_ifs with heq hlt
    · exact List.pairwise_cons.mpr ⟨hhead, hrest⟩
    · refine List.pairwise_cons.mpr ⟨fun e he => ?_, h⟩
      rcases List.mem_cons.mp he with rfl | he
      · exact hlt
      · exact lt_trans hlt (hhead e he)
    · refine List.pairwise_cons.mpr ⟨fun e he => ?_, ih hrest⟩
      rcases keys_add he with hkey | ⟨s, hs⟩
      · rw [hkey]
        exact lt_of_le_of_ne (not_lt.mp hlt) (Ne.symm heq)
      · exact hhead (e.1, s) hs

/-- Only the sum under the key changes. -/
theorem mem_add_of_ne (hne : k ≠ key) : (k, sum) ∈ add op zero key value l ↔ (k, sum) ∈ l := by
  induction l with
  | nil => simp [add, hne]
  | cons head rest ih =>
    obtain ⟨k', s'⟩ := head
    rw [add]
    split_ifs with heq hlt
    · subst heq
      simp [hne]
    · simp [hne]
    · simp [ih]

/-- What stands under the key: the sum so far and the value, or the value alone. -/
theorem mem_add_self (h : Sorted l) :
    (key, sum) ∈ add op zero key value l ↔
      (∃ before, (key, before) ∈ l ∧ sum = op before value) ∨
        ((∀ before, (key, before) ∉ l) ∧ sum = op zero value) := by
  induction l with
  | nil => simp [add]
  | cons head rest ih =>
    obtain ⟨k', s'⟩ := head
    obtain ⟨hhead, hrest⟩ := List.pairwise_cons.mp h
    have hbehind : ∀ before, (k', before) ∉ rest := fun before hmem =>
      lt_irrefl k' (hhead (k', before) hmem)
    rw [add]
    split_ifs with heq hlt
    · subst heq
      simp [hbehind]
    · have hnew : ∀ before, (key, before) ∉ rest := fun before hmem =>
        lt_asymm hlt (hhead (key, before) hmem)
      simp [heq, hnew]
    · simp [heq, ih hrest]

/-- The last entry is added to the sums of the others. -/
@[simp] theorem sums_concat (entries : List (κ × α)) (entry : κ × α) :
    sums op zero (entries ++ [entry]) = add op zero entry.1 entry.2 (sums op zero entries) := by
  simp [sums]

/-- **The sums are sorted** by key, each key once. -/
theorem sorted_sums (entries : List (κ × α)) : Sorted (sums op zero entries) := by
  induction entries using List.reverseRecOn with
  | nil => exact List.Pairwise.nil
  | append_singleton entries entry ih =>
    rw [sums_concat]
    exact sorted_add ih _ _

/-- The values of a key, with a further entry. -/
theorem valuesAt_concat (entries : List (κ × α)) (entry : κ × α) :
    valuesAt k (entries ++ [entry])
      = if entry.1 = k then valuesAt k entries ++ [entry.2] else valuesAt k entries := by
  unfold valuesAt
  split_ifs with h <;> simp [h]

/-- **The sums, key by key.** -/
theorem mem_sums : (k, sum) ∈ sums op zero entries ↔
    valuesAt k entries ≠ [] ∧ sum = (valuesAt k entries).foldl op zero := by
  induction entries using List.reverseRecOn generalizing sum with
  | nil => simp [sums, valuesAt]
  | append_singleton entries entry ih =>
    rw [sums_concat, valuesAt_concat]
    by_cases hkey : entry.1 = k
    · rw [if_pos hkey, hkey, mem_add_self (sorted_sums entries)]
      simp only [ih]
      by_cases hnil : valuesAt k entries = []
      · simp [hnil]
      · simp [hnil]
    · rw [if_neg hkey, mem_add_of_ne (Ne.symm hkey)]
      exact ih

end KeyedSums
