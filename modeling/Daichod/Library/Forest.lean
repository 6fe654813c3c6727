import Mathlib.Data.Finset.Card
import Mathlib.Data.Set.Insert
import Mathlib.Logic.Function.Basic
import Mathlib.Logic.Relation

/-!
# Daichod.Library.Forest

Rooted trees given by parent pointers. `IsTree parent nodes root` says that every node
climbs to the root; the operations that keep it are adding a leaf and moving a subtree, which
are one (`IsTree.graft`), and cutting off a leaf (`IsTree.prune`).

`meets` walks up the parents and looks for a node on the way. In a tree it comes to an end
before it has made as many steps as there are nodes, and says whether the node it looks for is
an ancestor (`IsTree.meets_eq`). `ListsBelow` is what a listing from the root down is.
-/

universe u

namespace Forest

variable {κ : Type u} {parent : κ → Option κ} {nodes : Set κ} {root x y z p : κ}

/-- `y` is `x` or one of its ancestors. -/
def Climbs (parent : κ → Option κ) : κ → κ → Prop :=
  Relation.ReflTransGen fun a b => parent a = some b

/-- Every node climbs to the root. -/
structure IsTree (parent : κ → Option κ) (nodes : Set κ) (root : κ) : Prop where
  root_mem : root ∈ nodes
  root_top : parent root = none
  closed : ∀ a b, parent a = some b → a ∈ nodes
  climbs : ∀ a ∈ nodes, Climbs parent a root

/-! ### Climbing -/

/-- The first step of a climb is to the parent. -/
theorem climbs_iff_of_parent (h : parent x = some p) : Climbs parent x z ↔ x = z ∨ Climbs parent p z := by
  constructor
  · intro hclimbs
    rcases Relation.ReflTransGen.cases_head hclimbs with heq | ⟨q, hq, hrest⟩
    · exact Or.inl heq
    · obtain rfl := Option.some.inj (h.symm.trans hq)
      exact Or.inr hrest
  · intro hor
    rcases hor with rfl | hrest
    · exact .refl
    · exact .head h hrest

theorem climbs_iff_of_top (h : parent x = none) : Climbs parent x z ↔ x = z := by
  constructor
  · intro hclimbs
    rcases Relation.ReflTransGen.cases_head hclimbs with heq | ⟨q, hq, -⟩
    · exact heq
    · rw [h] at hq
      cases hq
  · rintro rfl
    exact .refl

/-- What climbs to a node without a parent does not come back to where it started. -/
theorem not_climbs_of_parent (hroot : parent root = none) (hx : Climbs parent x root)
    (h : parent x = some p) : ¬Climbs parent p x := by
  induction hx using Relation.ReflTransGen.head_induction_on generalizing p with
  | refl =>
    rw [hroot] at h
    cases h
  | @head a c hstep hrest ih =>
    obtain rfl := Option.some.inj (hstep.symm.trans h)
    intro hback
    rcases Relation.ReflTransGen.cases_head hback with rfl | ⟨q, hq, hback⟩
    · exact ih hstep .refl
    · exact ih hq (hback.tail hstep)

namespace IsTree

variable (h : IsTree parent nodes root)
include h

/-- The parent of a node is a node. -/
theorem parent_mem (hparent : parent x = some p) : p ∈ nodes := by
  have hclimbs := h.climbs x (h.closed x p hparent)
  rcases (climbs_iff_of_parent hparent).mp hclimbs with rfl | hrest
  · rw [h.root_top] at hparent
    cases hparent
  · rcases Relation.ReflTransGen.cases_head hrest with rfl | ⟨q, hq, -⟩
    · exact h.root_mem
    · exact h.closed p q hq

/-- Every ancestor of a node is a node. -/
theorem mem_of_climbs (hx : x ∈ nodes) (hclimbs : Climbs parent x y) : y ∈ nodes := by
  induction hclimbs with
  | refl => exact hx
  | tail _ hstep _ => exact h.parent_mem hstep

end IsTree

/-! ### Operations -/

section Update

variable [DecidableEq κ] {q : Option κ}

/-- With the parent of `x` changed, a climb goes on as before until it comes to `x`. -/
theorem climbs_update (h : Climbs parent y z) :
    Climbs (Function.update parent x q) y z ∨ Climbs (Function.update parent x q) y x := by
  induction h using Relation.ReflTransGen.head_induction_on with
  | refl => exact Or.inl .refl
  | @head a c hstep _ ih =>
    by_cases ha : a = x
    · exact Or.inr (ha ▸ .refl)
    · have hstep' : Function.update parent x q a = some c := by
        rw [Function.update_of_ne ha]
        exact hstep
      exact ih.imp (.head hstep') (.head hstep')

/-- Below `x` nothing is different. -/
theorem climbs_update_of_not (hnot : ¬Climbs parent y x) (h : Climbs parent y z) :
    Climbs (Function.update parent x q) y z := by
  induction h using Relation.ReflTransGen.head_induction_on with
  | refl => exact .refl
  | @head a c hstep _ ih =>
    have ha : a ≠ x := fun heq => hnot (heq ▸ .refl)
    refine .head ?_ (ih fun hc => hnot (.head hstep hc))
    rw [Function.update_of_ne ha]
    exact hstep

/-- **Grafting**: a new leaf, or a whole subtree, is put under a node that is not below it. -/
theorem IsTree.graft (h : IsTree parent nodes root) (hx : x ≠ root) (hp : p ∈ nodes)
    (hnot : ¬Climbs parent p x) :
    IsTree (Function.update parent x (some p)) (insert x nodes) root where
  root_mem := Set.mem_insert_of_mem x h.root_mem
  root_top := by
    rw [Function.update_of_ne (Ne.symm hx)]
    exact h.root_top
  closed a b hab := by
    by_cases ha : a = x
    · exact ha ▸ Set.mem_insert x nodes
    · rw [Function.update_of_ne ha] at hab
      exact Set.mem_insert_of_mem x (h.closed a b hab)
  climbs a ha := by
    have hx' : Climbs (Function.update parent x (some p)) x root :=
      .head (Function.update_self ..) (climbs_update_of_not hnot (h.climbs p hp))
    rcases Set.mem_insert_iff.mp ha with rfl | ha
    · exact hx'
    · exact (climbs_update (h.climbs a ha)).elim id fun hax => hax.trans hx'

/-- **Pruning**: a leaf is cut off. -/
theorem IsTree.prune (h : IsTree parent nodes root) (hx : x ≠ root)
    (hleaf : ∀ a, parent a ≠ some x) :
    IsTree (Function.update parent x none) (nodes \ {x}) root where
  root_mem := ⟨h.root_mem, Ne.symm hx⟩
  root_top := by
    rw [Function.update_of_ne (Ne.symm hx)]
    exact h.root_top
  closed a b hab := by
    have ha : a ≠ x := fun heq => by
      rw [heq, Function.update_self] at hab
      cases hab
    rw [Function.update_of_ne ha] at hab
    exact ⟨h.closed a b hab, ha⟩
  climbs a ha := by
    have hnot : ¬Climbs parent a x := by
      intro hclimbs
      rcases Relation.ReflTransGen.cases_tail hclimbs with heq | ⟨c, -, hstep⟩
      · exact ha.2 heq.symm
      · exact hleaf c hstep
    exact climbs_update_of_not hnot (h.climbs a ha.1)

omit [DecidableEq κ] in
/-- A node that is not in the tree has nothing below it. -/
theorem IsTree.not_climbs_of_not_mem (h : IsTree parent nodes root) (hx : x ∉ nodes)
    (hp : p ∈ nodes) : ¬Climbs parent p x := fun hclimbs => hx (h.mem_of_climbs hp hclimbs)

end Update

/-! ### The walk up the parents -/

section Walk

variable [DecidableEq κ]

/-- Does the walk from a node up its parents meet `target`? `none` when `fuel` steps do not
end it. -/
def meets (parent : κ → Option κ) (target : κ) : ℕ → Option κ → Option Bool
  | _, none => some false
  | 0, some _ => none
  | fuel + 1, some a => if a = target then some true else meets parent target fuel (parent a)

/-- **The walk ends**, and meets exactly the ancestors. -/
theorem IsTree.meets_eq (h : IsTree parent nodes root) {all : Finset κ}
    (hall : ∀ a ∈ nodes, a ∈ all) {target : κ} {fuel : ℕ}
    (hfuel : all.card ≤ fuel) (hx : x ∈ nodes) :
    ∃ met, meets parent target fuel (some x) = some met ∧ (met = true ↔ Climbs parent x target) := by
  classical
  -- What is left to climb shrinks with every step.
  have hbound : (all.filter (Climbs parent x)).card ≤ fuel :=
    (Finset.card_filter_le _ _).trans hfuel
  clear hfuel
  induction fuel generalizing x with
  | zero =>
    have hself : x ∈ all.filter (Climbs parent x) :=
      Finset.mem_filter.mpr ⟨hall x hx, .refl⟩
    have := Finset.card_pos.mpr ⟨x, hself⟩
    omega
  | succ fuel ih =>
    rw [meets]
    by_cases htarget : x = target
    · rw [if_pos htarget]
      exact ⟨true, rfl, by simpa using (htarget ▸ .refl : Climbs parent x target)⟩
    · rw [if_neg htarget]
      cases hparent : parent x with
      | none =>
        refine ⟨false, by cases fuel <;> rfl, ?_⟩
        rw [climbs_iff_of_top hparent]
        simp [htarget]
      | some p =>
        have hp : p ∈ nodes := h.parent_mem hparent
        have hshrinks : all.filter (Climbs parent p) ⊂ all.filter (Climbs parent x) := by
          refine Finset.ssubset_iff_of_subset ?_ |>.mpr ⟨x, ?_, ?_⟩
          · intro a ha
            obtain ⟨ha, hclimbs⟩ := Finset.mem_filter.mp ha
            exact Finset.mem_filter.mpr ⟨ha, .head hparent hclimbs⟩
          · exact Finset.mem_filter.mpr ⟨hall x hx, .refl⟩
          · intro hmem
            exact not_climbs_of_parent h.root_top (h.climbs x hx) hparent
              (Finset.mem_filter.mp hmem).2
        have hcard := Finset.card_lt_card hshrinks
        obtain ⟨met, hmet, hiff⟩ := ih hp (by omega)
        refine ⟨met, hmet, ?_⟩
        rw [hiff, climbs_iff_of_parent hparent]
        simp [htarget]

end Walk

/-! ### Listings -/

/-- A listing of the nodes below `top`: each once, and behind its parent. -/
structure ListsBelow (parent : κ → Option κ) (top : κ) (listing : List κ) : Prop where
  nodup : listing.Nodup
  mem_iff : ∀ x, x ∈ listing ↔ x ≠ top ∧ Climbs parent x top
  behind : ∀ before x after, listing = before ++ x :: after →
    ∀ p, parent x = some p → p = top ∨ p ∈ before

/-- In a tree these are all nodes but the root. -/
theorem IsTree.mem_listing_iff (h : IsTree parent nodes root) {listing : List κ}
    (hlists : ListsBelow parent root listing) : x ∈ root :: listing ↔ x ∈ nodes := by
  rw [List.mem_cons, hlists.mem_iff]
  constructor
  · rintro (rfl | ⟨hne, hclimbs⟩)
    · exact h.root_mem
    · -- What is below the root has a parent.
      rcases Relation.ReflTransGen.cases_head hclimbs with heq | ⟨p, hp, -⟩
      · exact absurd heq hne
      · exact h.closed x p hp
  · intro hx
    by_cases heq : x = root
    · exact Or.inl heq
    · exact Or.inr ⟨heq, h.climbs x hx⟩

/-- With the root in front, every parent is in front of its children. -/
theorem ListsBelow.behind_cons {top : κ} {listing before after : List κ}
    (h : ListsBelow parent top listing) (htop : parent top = none)
    (hsplit : top :: listing = before ++ x :: after) (hparent : parent x = some p) : p ∈ before := by
  cases before with
  | nil =>
    obtain ⟨rfl, -⟩ := List.cons.inj hsplit
    rw [htop] at hparent
    cases hparent
  | cons first before =>
    obtain ⟨rfl, hrest⟩ := List.cons.inj hsplit
    rcases h.behind before x after hrest p hparent with rfl | hmem
    · exact List.mem_cons_self
    · exact List.mem_cons_of_mem _ hmem

end Forest
