import Mathlib.Data.List.Chain
import Mathlib.Data.List.Nodup

/-!
# Daichod.Library.Paging

Reading a list page by page. The cursor is the key of the last element handed out, a page is
a bounded number of the elements behind it that pass a filter, and there is a next cursor only
if a further element passes.

The list may change between two reads. `Walk.count_eq_one` says what a reader gets all the
same: an element that stays in the list and keeps passing is handed out exactly once, as long
as the elements that stay keep their order. `exists_walk` says that over one list the walk
ends, and `Walk.flatten_eq` that its pages make up the filtered list.

## Proof shape

One page is described by `Read.Served`: what lay behind the cursor, split into what the page
skipped, what it handed out, and what it left. From one page to the next, `mem_next_rest_iff` says
who is still to come: the elements that stay, pass and were behind the old cursor and not on the
page. Counting an element over the pages of a walk is then an induction in which each page moves
it from "still to come" to "handed out" at most once.

The list may not hold an element twice, and the elements that stay must keep their order. Without
either, a cursor does not say what lies behind it.
-/

universe u v

open scoped List

namespace Paging

variable {α : Type u} {κ : Type v} [DecidableEq κ]

/-- What lies behind the cursor; `none` where the cursor is in no position. -/
def behind (key : α → κ) : Option κ → List α → Option (List α)
  | none, xs => some xs
  | some _, [] => none
  | some k, x :: xs => if key x = k then some xs else behind key (some k) xs

/-- A read without a cursor starts at the beginning. -/
@[simp] theorem behind_none (key : α → κ) (xs : List α) : behind key none xs = some xs := by
  cases xs <;> rfl

/-- A page: its items, and the cursor behind which the next one begins. -/
structure Page (α : Type u) (κ : Type v) where
  items : List α
  next : Option κ

/-- One read: the list as it stands, the filter and the size of the page. -/
structure Read (α : Type u) where
  listed : List α
  keep : α → Bool
  size : ℕ
  size_pos : 0 < size

variable (key : α → κ)

/-- As many of the elements as go on a page, and a cursor behind them if there are more. -/
def cut (size : ℕ) (found : List α) : Page α κ where
  items := found.take size
  next := if size < found.length then (found.take size).getLast?.map key else none

omit [DecidableEq κ] in
/-- What fits on one page is the last page. -/
theorem cut_of_length_le {size : ℕ} {found : List α} (h : found.length ≤ size) :
    cut key size found = ⟨found, none⟩ := by
  rw [cut, List.take_of_length_le h, if_neg (not_lt.mpr h)]

omit [DecidableEq κ] in
/-- A full page names its last element, if there is more. -/
theorem cut_of_full {size : ℕ} {found : List α} {x : α} {more : List α}
    (h : found.length = size) :
    cut key size (found ++ x :: more) = ⟨found, found.getLast?.map key⟩ := by
  rw [cut, List.take_left' h, if_pos (by simp; omega)]

/-- The page at the head of what lies behind the cursor. -/
def Read.pageOf (r : Read α) (rest : List α) : Page α κ := cut key r.size (rest.filter r.keep)

/-- The page behind a cursor. -/
def Read.page (r : Read α) (cursor : Option κ) : Option (Page α κ) :=
  (behind key cursor r.listed).map (r.pageOf key)

/-- The keys listed. -/
def Read.keys (r : Read α) : List κ := r.listed.map key

/-- The keys listed whose elements pass the filter. -/
def Read.found (r : Read α) : List κ := (r.listed.filter r.keep).map key

/-- A complete walk: each read continues behind the page before, the last has no next
cursor. -/
inductive Walk : Option κ → List (Read α) → List (List α) → Prop
  | last {cursor : Option κ} {r : Read α} {items : List α}
      (hpage : r.page key cursor = some ⟨items, none⟩) : Walk cursor [r] [items]
  | more {cursor : Option κ} {r : Read α} {items : List α} {next : κ} {reads : List (Read α)}
      {pages : List (List α)} (hpage : r.page key cursor = some ⟨items, some next⟩)
      (hrest : Walk (some next) reads pages) : Walk cursor (r :: reads) (items :: pages)

/-- `a` stands before `b`. -/
def Precedes (ks : List κ) (a b : κ) : Prop := [a, b] <+ ks

/-- What is in both lists is in the same order in both. -/
def SameOrder (r r' : Read α) : Prop :=
  ∀ a b, Precedes (r.keys key) a b → a ∈ r'.keys key → b ∈ r'.keys key →
    Precedes (r'.keys key) a b

/-! ### Order in a list without duplicates

Where an element stands is told by what stands on either side of it, as it stands there only once.
-/

section Order

variable {a b x : κ} {pre post : List κ}

omit [DecidableEq κ] in
/-- What comes before an element lies to its left. -/
theorem mem_left_of_precedes (hnodup : (pre ++ x :: post).Nodup)
    (h : Precedes (pre ++ x :: post) a x) : a ∈ pre := by
  induction pre with
  | nil =>
    have hx : x ∉ post := (List.nodup_cons.mp hnodup).1
    cases h with
    | cons _ h => exact absurd (h.subset (by simp)) hx
    | cons_cons _ h => exact absurd (h.subset (by simp)) hx
  | cons p pre ih =>
    cases h with
    | cons _ h => exact List.mem_cons_of_mem _ (ih (List.nodup_cons.mp hnodup).2 h)
    | cons_cons _ _ => exact List.mem_cons_self

omit [DecidableEq κ] in
/-- What comes after it lies to its right. -/
theorem mem_right_of_precedes (hnodup : (pre ++ x :: post).Nodup)
    (h : Precedes (pre ++ x :: post) x b) : b ∈ post := by
  induction pre with
  | nil =>
    have hx : x ∉ post := (List.nodup_cons.mp hnodup).1
    cases h with
    | cons _ h => exact absurd (h.subset (by simp)) hx
    | cons_cons _ h => exact h.subset (by simp)
  | cons p pre ih =>
    have hp : p ∉ pre ++ x :: post := (List.nodup_cons.mp hnodup).1
    cases h with
    | cons _ h => exact ih (List.nodup_cons.mp hnodup).2 h
    | cons_cons _ _ => exact absurd (by simp) hp

end Order

/-! ### What lies behind a cursor -/

variable {key} {cursor : Option κ} {r r' : Read α} {rest rest' items : List α} {k next : κ}

/-- Behind a key lies what follows its element. -/
theorem behind_some {xs : List α} (h : behind key (some k) xs = some rest) :
    ∃ pre x, xs = pre ++ x :: rest ∧ key x = k := by
  induction xs with
  | nil => cases h
  | cons x xs ih =>
    rw [behind] at h
    split at h
    · next hx =>
      obtain rfl := Option.some.inj h
      exact ⟨[], x, rfl, hx⟩
    · obtain ⟨pre, y, rfl, hy⟩ := ih h
      exact ⟨x :: pre, y, rfl, hy⟩

/-- What lies behind a cursor is an end of the list. -/
theorem behind_isSuffix {xs : List α} (h : behind key cursor xs = some rest) : rest <:+ xs := by
  cases cursor with
  | none =>
    obtain rfl : xs = rest := Option.some.inj ((behind_none key xs).symm.trans h)
    exact List.suffix_refl _
  | some k =>
    obtain ⟨pre, x, rfl, -⟩ := behind_some h
    exact ⟨pre ++ [x], by simp⟩

/-- A cursor has a position exactly if its key is listed. -/
theorem behind_isSome_iff {xs : List α} :
    (behind key (some k) xs).isSome = true ↔ k ∈ xs.map key := by
  induction xs with
  | nil => simp [behind]
  | cons x xs ih =>
    rw [behind]
    split
    · next hx => simp [hx]
    · next hx => simp [ih, Ne.symm hx]

/-! ### One page

A page of a read is got from the end of the list behind the cursor: filtered, and cut to its size.
-/

variable {page : Page α κ} {further : List α}

/-- How a page comes about: `rest` lies behind the cursor, and `further` of what passes there
is left for later. -/
structure Read.Served (key : α → κ) (r : Read α) (cursor : Option κ) (page : Page α κ)
    (rest further : List α) : Prop where
  behind_eq : behind key cursor r.listed = some rest
  filter_eq : rest.filter r.keep = page.items ++ further
  length_le : page.items.length ≤ r.size
  done : page.next = none → further = []
  next : ∀ k, page.next = some k → further ≠ [] ∧ ∃ init x, page.items = init ++ [x] ∧ key x = k

/-- **A page** that was served was served from what lies behind its cursor. -/
theorem Read.served (h : r.page key cursor = some page) :
    ∃ rest further, r.Served key cursor page rest further := by
  obtain ⟨rest, hrest, rfl⟩ := Option.map_eq_some_iff.mp h
  have hfurther : (rest.filter r.keep).drop r.size = [] ↔ (rest.filter r.keep).length ≤ r.size :=
    List.drop_eq_nil_iff
  refine ⟨rest, (rest.filter r.keep).drop r.size, hrest, (List.take_append_drop _ _).symm,
    List.length_take_le _ _, ?_, ?_⟩
  · intro hnone
    rw [hfurther]
    -- Without a next cursor there was no further element.
    by_contra hlt
    have hne : (rest.filter r.keep).take r.size ≠ [] := by
      have := r.size_pos
      rw [← List.length_pos_iff, List.length_take]
      omega
    simp only [Read.pageOf, cut, if_pos (not_le.mp hlt), Option.map_eq_none_iff,
      List.getLast?_eq_none_iff] at hnone
    exact hne hnone
  · intro k hsome
    simp only [Read.pageOf, cut] at hsome
    split at hsome
    · next hlt =>
      obtain ⟨x, hx, rfl⟩ := Option.map_eq_some_iff.mp hsome
      -- The next cursor is the key of the last element of the page.
      obtain ⟨init, hinit⟩ := List.getLast?_eq_some_iff.mp hx
      exact ⟨fun hnil => absurd (hfurther.mp hnil) (by omega), init, x, hinit, rfl⟩
    · cases hsome

namespace Read.Served

variable (h : r.Served key cursor page rest further)
include h

/-- What passes behind the cursor is listed, in that order. -/
theorem sublist_keys : page.items.map key ++ further.map key <+ r.keys key := by
  rw [← List.map_append, ← h.filter_eq]
  exact (List.filter_sublist.trans (behind_isSuffix h.behind_eq).sublist).map key

/-- A page hands out what lies behind its cursor. -/
theorem mem_rest_of_mem_items (hk : k ∈ page.items.map key) : k ∈ rest.map key := by
  obtain ⟨x, hx, rfl⟩ := List.mem_map.mp hk
  have hfound : x ∈ rest.filter r.keep := by
    rw [h.filter_eq]
    exact List.mem_append_left _ hx
  exact List.mem_map_of_mem (List.mem_filter.mp hfound).1

/-- The next cursor is the key of an item. -/
theorem next_mem (hnext : page.next = some next) : next ∈ page.items.map key := by
  obtain ⟨-, init, x, hitems, rfl⟩ := h.next next hnext
  rw [hitems]
  simp

/-- What the cursor has passed stands before the next cursor. -/
theorem precedes_of_passed (hnext : page.next = some next) (hk : k ∈ r.keys key)
    (hpassed : k ∉ rest.map key) : Precedes (r.keys key) k next := by
  obtain ⟨pre, hpre⟩ := behind_isSuffix h.behind_eq
  rw [Read.keys, ← hpre, List.map_append] at hk ⊢
  have hleft : [k] <+ pre.map key :=
    List.singleton_sublist.mpr ((List.mem_append.mp hk).resolve_right hpassed)
  have hright : [next] <+ rest.map key :=
    List.singleton_sublist.mpr (h.mem_rest_of_mem_items (h.next_mem hnext))
  exact hleft.append hright

/-- So does every other item of the page. -/
theorem precedes_of_item (hnext : page.next = some next) (hk : k ∈ page.items.map key)
    (hne : k ≠ next) : Precedes (r.keys key) k next := by
  obtain ⟨-, init, x, hitems, rfl⟩ := h.next next hnext
  have hinit : k ∈ init.map key := by
    rw [hitems, List.map_append, List.mem_append] at hk
    exact hk.resolve_right (by simpa using hne)
  have hpair : [k, key x] <+ page.items.map key := by
    rw [hitems, List.map_append]
    exact (List.singleton_sublist.mpr hinit).append (List.Sublist.refl [key x])
  exact (hpair.trans (List.sublist_append_left _ _)).trans h.sublist_keys

/-- What is left for later stands behind it. -/
theorem precedes_of_further (hnext : page.next = some next) (hk : k ∈ further.map key) :
    Precedes (r.keys key) next k := by
  have hpair := (List.singleton_sublist.mpr (h.next_mem hnext)).append
    (List.singleton_sublist.mpr hk)
  exact hpair.trans h.sublist_keys

end Read.Served

/-! ### From one read to the next -/

/-- Behind a cursor lies what stands behind its key. -/
theorem mem_behind_of_precedes (hnodup : (r.keys key).Nodup)
    (hrest : behind key (some next) r.listed = some rest) (h : Precedes (r.keys key) next k) :
    k ∈ rest.map key := by
  obtain ⟨pre, x, hlisted, rfl⟩ := behind_some hrest
  rw [Read.keys, hlisted, List.map_append, List.map_cons] at h hnodup
  exact mem_right_of_precedes hnodup h

/-- What came before the cursor is never seen again. -/
theorem not_mem_behind_of_precedes (hnodup : (r.keys key).Nodup)
    (hrest : behind key (some next) r.listed = some rest) (h : Precedes (r.keys key) k next) :
    k ∉ rest.map key := by
  obtain ⟨pre, x, hlisted, rfl⟩ := behind_some hrest
  rw [Read.keys, hlisted, List.map_append, List.map_cons] at h hnodup
  have hk := mem_left_of_precedes hnodup h
  intro hk'
  exact (List.nodup_append.mp hnodup).2.2 k hk k (List.mem_cons_of_mem _ hk') rfl

/-- Nor is the element the cursor names. -/
theorem not_mem_behind_self (hnodup : (r.keys key).Nodup)
    (hrest : behind key (some next) r.listed = some rest) : next ∉ rest.map key := by
  obtain ⟨pre, x, hlisted, rfl⟩ := behind_some hrest
  rw [Read.keys, hlisted, List.map_append, List.map_cons] at hnodup
  exact (List.nodup_cons.mp (List.nodup_append.mp hnodup).2.1).1

/-- One read lists the key once, and its element passes exactly if its key is listed at all
behind the cursor. -/
theorem Read.Served.count_eq (h : r.Served key cursor page rest further)
    (hnodup : (r.keys key).Nodup) (hk : k ∈ r.found key) :
    (page.items.map key).count k + (further.map key).count k
      = if k ∈ rest.map key then 1 else 0 := by
  have hcounts : (page.items.map key ++ further.map key).Nodup := hnodup.sublist h.sublist_keys
  rw [← List.count_append, hcounts.count]
  refine if_congr ?_ rfl rfl
  rw [← List.map_append, ← h.filter_eq]
  constructor
  · intro hmem
    obtain ⟨x, hx, rfl⟩ := List.mem_map.mp hmem
    exact List.mem_map_of_mem (List.mem_filter.mp hx).1
  · intro hmem
    obtain ⟨x, hx, rfl⟩ := List.mem_map.mp hk
    obtain ⟨hxlisted, hkeep⟩ := List.mem_filter.mp hx
    obtain ⟨y, hy, hyx⟩ := List.mem_map.mp hmem
    -- The element behind the cursor is the one that passes: keys are listed once.
    obtain rfl := List.inj_on_of_nodup_map hnodup
      ((behind_isSuffix h.behind_eq).subset hy) hxlisted hyx
    exact List.mem_map_of_mem (List.mem_filter.mpr ⟨hy, hkeep⟩)

omit [DecidableEq κ] in
/-- What is found is in the list. -/
theorem found_subset_keys : r.found key ⊆ r.keys key :=
  (List.filter_sublist.map key).subset

/-- A cursor that is accepted names an element of the list. -/
theorem next_listed (hrest : behind key (some next) r.listed = some rest) : next ∈ r.keys key :=
  behind_isSome_iff.mp (by rw [hrest]; rfl)

/-- Of what one read still has behind its cursor, the next read has behind its own what the
page has left for later, and no more. -/
theorem mem_next_rest_iff {rest' : List α} (h : r.Served key cursor page rest further)
    (hnodup : (r.keys key).Nodup) (hnodup' : (r'.keys key).Nodup) (horder : SameOrder key r r')
    (hnext : page.next = some next) (hrest' : behind key (some next) r'.listed = some rest')
    (hk : k ∈ r.found key) (hk' : k ∈ r'.keys key) :
    k ∈ rest'.map key ↔ k ∈ further.map key := by
  have hlisted := next_listed hrest'
  have hcount := h.count_eq hnodup hk
  constructor
  · intro hbehind
    by_contra hfurther
    rw [List.count_eq_zero_of_not_mem hfurther, Nat.add_zero] at hcount
    have hprecedes : k ≠ next → Precedes (r.keys key) k next := by
      intro hne
      by_cases hrest : k ∈ rest.map key
      · rw [if_pos hrest] at hcount
        exact h.precedes_of_item hnext (List.count_pos_iff.mp (by omega)) hne
      · exact h.precedes_of_passed hnext (found_subset_keys hk) hrest
    by_cases hne : k = next
    · exact not_mem_behind_self hnodup' hrest' (hne ▸ hbehind)
    · exact not_mem_behind_of_precedes hnodup' hrest'
        (horder k next (hprecedes hne) hk' hlisted) hbehind
  · intro hfurther
    exact mem_behind_of_precedes hnodup' hrest'
      (horder next k (h.precedes_of_further hnext hfurther) hlisted hk')

/-! ### Whole walks -/

variable {reads : List (Read α)} {pages : List (List α)}

/-- A walk hands out what lies behind its cursor once, and what the cursor has passed not at
all. -/
theorem Walk.count_eq (h : Walk key cursor reads pages)
    (hnodup : ∀ r ∈ reads, (r.keys key).Nodup) (horder : reads.IsChain (SameOrder key))
    (hk : ∀ r ∈ reads, k ∈ r.found key) :
    ∃ r tail rest, reads = r :: tail ∧ behind key cursor r.listed = some rest ∧
      (pages.flatten.map key).count k = if k ∈ rest.map key then 1 else 0 := by
  induction h with
  | last hpage =>
    obtain ⟨rest, further, hserved⟩ := Read.served hpage
    refine ⟨_, [], rest, rfl, hserved.behind_eq, ?_⟩
    have hcount := hserved.count_eq (hnodup _ (by simp)) (hk _ (by simp))
    rw [hserved.done rfl] at hcount
    simpa using hcount
  | @more cursor r items next reads pages hpage hwalk ih =>
    obtain ⟨rest, further, hserved⟩ := Read.served hpage
    -- What the later pages hand out is what the next read finds behind its cursor.
    obtain ⟨r', tail, rest', rfl, hrest', hcount'⟩ := ih
      (fun r hr => hnodup r (List.mem_cons_of_mem _ hr)) horder.tail
      (fun r hr => hk r (List.mem_cons_of_mem _ hr))
    refine ⟨r, _, rest, rfl, hserved.behind_eq, ?_⟩
    have hcount := hserved.count_eq (hnodup _ (by simp)) (hk _ (by simp))
    have hiff := mem_next_rest_iff hserved (hnodup r (by simp)) (hnodup r' (by simp))
      (List.isChain_cons_cons.mp horder).1 rfl hrest' (hk r (by simp))
      (found_subset_keys (hk r' (by simp)))
    have hfurther : (further.map key).Nodup := by
      have hboth := (hnodup r (by simp)).sublist hserved.sublist_keys
      exact (List.nodup_append.mp hboth).2.1
    rw [List.flatten_cons, List.map_append, List.count_append, hcount', ← hcount,
      hfurther.count]
    simp only [hiff]

/-- **Neither lost nor repeated**: what every read lists and passes is handed out once. -/
theorem Walk.count_eq_one (h : Walk key none reads pages)
    (hnodup : ∀ r ∈ reads, (r.keys key).Nodup) (horder : reads.IsChain (SameOrder key))
    (hk : ∀ r ∈ reads, k ∈ r.found key) : (pages.flatten.map key).count k = 1 := by
  obtain ⟨r, tail, rest, rfl, hrest, hcount⟩ := h.count_eq hnodup horder hk
  obtain rfl : r.listed = rest := Option.some.inj ((behind_none key _).symm.trans hrest)
  have hlisted : k ∈ r.listed.map key := found_subset_keys (hk r (by simp))
  rw [hcount, if_pos hlisted]

/-! ### Walks over one list -/

/-- What lies behind an element of the list. -/
theorem behind_append {xs ys : List α} {x : α} (hnodup : ((xs ++ x :: ys).map key).Nodup) :
    behind key (some (key x)) (xs ++ x :: ys) = some ys := by
  induction xs with
  | nil => rw [List.nil_append, behind, if_pos rfl]
  | cons y xs ih =>
    rw [List.cons_append, List.map_cons, List.nodup_cons] at hnodup
    have hne : key y ≠ key x := fun heq => hnodup.1 (heq ▸ List.mem_map_of_mem (by simp))
    rw [List.cons_append, behind, if_neg hne]
    exact ih hnodup.2

/-- Over one list, the next page begins with what the page before has left for later. -/
theorem Read.Served.next_rest (h : r.Served key cursor page rest further)
    (hnodup : (r.keys key).Nodup) (hnext : page.next = some next) :
    ∃ rest', behind key (some next) r.listed = some rest' ∧ rest'.filter r.keep = further ∧
      rest'.length < rest.length := by
  obtain ⟨-, init, x, hitems, rfl⟩ := h.next next hnext
  obtain ⟨pre, hpre⟩ := behind_isSuffix h.behind_eq
  have hfilter : rest.filter r.keep = init ++ (x :: further) := by
    rw [h.filter_eq, hitems]
    simp
  obtain ⟨before, after, rfl, -, hafter⟩ := List.filter_eq_append_iff.mp hfilter
  obtain ⟨skipped, rest', rfl, -, -, hrest'⟩ := List.filter_eq_cons_iff.mp hafter
  have hlisted : r.listed = (pre ++ before ++ skipped) ++ x :: rest' := by
    rw [← hpre]
    simp
  refine ⟨rest', ?_, hrest', by simp; omega⟩
  rw [Read.keys, hlisted] at hnodup
  rw [hlisted]
  exact behind_append hnodup

/-- The pages of a walk over one list make up what passes behind its cursor. -/
theorem Walk.flatten_eq {xs : List α} {keep : α → Bool} (h : Walk key cursor reads pages)
    (hnodup : (xs.map key).Nodup) (hsame : ∀ r ∈ reads, r.listed = xs ∧ r.keep = keep) :
    ∃ rest, behind key cursor xs = some rest ∧ pages.flatten = rest.filter keep := by
  induction h with
  | @last cursor r items hpage =>
    obtain ⟨rest, further, hserved⟩ := Read.served hpage
    obtain ⟨hxs, hkeep⟩ := hsame r (by simp)
    refine ⟨rest, hxs ▸ hserved.behind_eq, ?_⟩
    have hfilter := hserved.filter_eq
    rw [hserved.done rfl] at hfilter
    simpa [hkeep] using hfilter.symm
  | @more cursor r items next reads pages hpage hwalk ih =>
    obtain ⟨rest, further, hserved⟩ := Read.served hpage
    obtain ⟨hxs, hkeep⟩ := hsame r (by simp)
    obtain ⟨rest', hrest', hflatten⟩ := ih fun r' hr' => hsame r' (List.mem_cons_of_mem _ hr')
    obtain ⟨rest'', hrest'', hfurther, -⟩ := hserved.next_rest (by rwa [Read.keys, hxs]) rfl
    rw [hxs, hrest'] at hrest''
    obtain rfl := Option.some.inj hrest''
    refine ⟨rest, hxs ▸ hserved.behind_eq, ?_⟩
    have hfilter := hserved.filter_eq
    rw [← hfurther, hkeep, ← hflatten] at hfilter
    exact hfilter.symm

/-- **Over one list every walk ends**, from any cursor that has a position. -/
theorem exists_walk (r : Read α) (hnodup : (r.keys key).Nodup)
    (hrest : behind key cursor r.listed = some rest) :
    ∃ reads pages, (∀ r' ∈ reads, r' = r) ∧ Walk key cursor reads pages := by
  induction hlength : rest.length using Nat.strong_induction_on generalizing cursor rest with
  | _ n ih =>
    have hpage : r.page key cursor = some (r.pageOf key rest) := by rw [Read.page, hrest]; rfl
    obtain ⟨rest₁, further, hserved⟩ := Read.served hpage
    obtain rfl := Option.some.inj (hrest.symm.trans hserved.behind_eq)
    cases hnext : (r.pageOf key rest).next with
    | none =>
      refine ⟨[r], [(r.pageOf key rest).items], by simp, .last ?_⟩
      rw [hpage, ← hnext]
    | some next =>
      obtain ⟨rest', hrest', -, hshorter⟩ := hserved.next_rest hnodup hnext
      obtain ⟨reads, pages, hsame, hwalk⟩ := ih rest'.length (hlength ▸ hshorter) hrest' rfl
      refine ⟨r :: reads, (r.pageOf key rest).items :: pages, by simpa using hsame, .more ?_ hwalk⟩
      rw [hpage, ← hnext]

end Paging
