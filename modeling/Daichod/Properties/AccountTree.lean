import Daichod.Library.Forest
import Daichod.Memory
import Daichod.Reference
import Daichod.Rpc.Verdicts

/-!
# Daichod.Properties.AccountTree

**Account references stay a rooted tree** (`accounts_stay_rooted`) in the memory of every tended
run, however its requests fare: one that throws half way may leave its edit open, but the book is
not opened, closed or loaded anew before that edit is over (`Daemon.Tended`).

The account handlers change one parent pointer at a time, and each change is one of the two
operations of `Forest`: a created or moved account is grafted under its parent, a deleted one
is pruned. What they ask first is what these need: `CheckNoCycle` that the parent is not below
the account, the emptiness test that the account is a leaf and has no splits. In a tree
`CheckNoCycle` comes to an end, and so protects what it depends on.

## Proof shape

`Book.Rooted` is `Forest.Tree` of the parent pointers, together with the fact that every split
lies in an account of the tree. How an edit bears on it depends on two things only: which account
it leaves under which key (`Sets`), and whether its splits lie in accounts that had splits before
(`SplitsWithin`). For each account RPC these are read off the plan and the ways its edit can end,
and then `Rooted.graft`, `Rooted.prune` or `Rooted.keep` applies.

An edit left open has changed memory as far as it got. So the run invariant (`Tree`) also keeps
track of which accounts are marked for destruction by an open edit; they are still in the tree.
-/

namespace Daichod

namespace Book

/-- The parent of an account. -/
def parentOf (b : Book) (g : Guid) : Option Guid := (b.account g).bind Account.parent

/-- The accounts of the book. -/
def accountGuids (b : Book) : Set Guid := {g | (b.account g).isSome = true}

/-- The accounts form a tree under the root account, and every split is in one of them. -/
structure Rooted (b : Book) : Prop where
  tree : Forest.IsTree b.parentOf b.accountGuids b.rootAccount
  splits : ∀ g t, b.transaction g = some t → ∀ s ∈ t.splits, s.account ∈ b.accountGuids

variable {b b' : Book} {g p : Guid} {a : Account}

/-- What a changed account is, seen from all accounts. -/
structure Sets (b b' : Book) (g : Guid) (account : Option Account) : Prop where
  root : b'.rootAccount = b.rootAccount
  self : b'.account g = account
  others : ∀ g' ≠ g, b'.account g' = b.account g'

/-- No split is in an account that none was in before. -/
def SplitsWithin (b b' : Book) : Prop :=
  ∀ g t, b'.transaction g = some t → ∀ s ∈ t.splits,
    ∃ g₀ t₀, b.transaction g₀ = some t₀ ∧ ∃ s₀ ∈ t₀.splits, s₀.account = s.account

namespace Sets

variable {account : Option Account}

theorem parentOf (h : Sets b b' g account) :
    b'.parentOf = Function.update b.parentOf g (account.bind Account.parent) := by
  funext g'
  by_cases hg : g' = g
  · rw [hg, Function.update_self, Book.parentOf, h.self]
  · rw [Function.update_of_ne hg, Book.parentOf, Book.parentOf, h.others g' hg]

/-- An account that is there afterwards. -/
theorem accountGuids_some (h : Sets b b' g (some a)) :
    b'.accountGuids = insert g b.accountGuids := by
  ext g'
  by_cases hg : g' = g
  · simp [accountGuids, hg, h.self]
  · simp [accountGuids, hg, h.others g' hg]

/-- An account that is gone afterwards. -/
theorem accountGuids_none (h : Sets b b' g none) : b'.accountGuids = b.accountGuids \ {g} := by
  ext g'
  by_cases hg : g' = g
  · simp [accountGuids, hg, h.self]
  · simp [accountGuids, hg, h.others g' hg]

end Sets

namespace Rooted

/-- An account that is new or moved, under a parent that is not below it. -/
theorem graft (h : b.Rooted) (hsets : Sets b b' g (some a)) (hwithin : SplitsWithin b b')
    (hparent : a.parent = some p) (hg : g ≠ b.rootAccount) (hp : p ∈ b.accountGuids)
    (hnot : ¬Forest.Climbs b.parentOf p g) : b'.Rooted where
  tree := by
    rw [hsets.parentOf, hsets.accountGuids_some, hsets.root, Option.bind_some, hparent]
    exact h.tree.graft hg hp hnot
  splits g' t ht s hs := by
    obtain ⟨g₀, t₀, ht₀, s₀, hs₀, haccount⟩ := hwithin g' t ht s hs
    rw [hsets.accountGuids_some, ← haccount]
    exact Set.mem_insert_of_mem g (h.splits g₀ t₀ ht₀ s₀ hs₀)

/-- An account without children and splits that is gone. -/
theorem prune (h : b.Rooted) (hsets : Sets b b' g none) (hwithin : SplitsWithin b b')
    (hg : g ≠ b.rootAccount) (hchildren : ¬b.hasChildren g) (hsplits : b.accountSplits g = 0) :
    b'.Rooted where
  tree := by
    rw [hsets.parentOf, hsets.accountGuids_none, hsets.root, Option.bind_none]
    refine h.tree.prune hg fun g' hg' => ?_
    obtain ⟨a, ha, hparent⟩ := Option.bind_eq_some_iff.mp hg'
    exact hchildren (hasChildren_iff.mpr ⟨g', a, ha, hparent⟩)
  splits g' t ht s hs := by
    obtain ⟨g₀, t₀, ht₀, s₀, hs₀, haccount⟩ := hwithin g' t ht s hs
    rw [hsets.accountGuids_none, ← haccount]
    refine ⟨h.splits g₀ t₀ ht₀ s₀ hs₀, fun heq => ?_⟩
    have hmem : s₀ ∈ b.accountSplits g := mem_accountSplits.mpr ⟨⟨g₀, t₀, ht₀, hs₀⟩, heq⟩
    rw [hsplits] at hmem
    exact absurd hmem (Multiset.notMem_zero _)

/-- A change of splits and of what accounts say besides their parents. -/
theorem congr (h : b.Rooted) (hroot : b'.rootAccount = b.rootAccount)
    (hparents : b'.parentOf = b.parentOf) (hguids : b'.accountGuids = b.accountGuids)
    (hsplits : ∀ g t, b'.transaction g = some t → ∀ s ∈ t.splits, s.account ∈ b.accountGuids) :
    b'.Rooted where
  tree := by
    rw [hroot, hparents, hguids]
    exact h.tree
  splits g t ht s hs := hguids ▸ hsplits g t ht s hs

/-- An account that stays where it is. -/
theorem keep (h : b.Rooted) {account : Option Account} (hsets : Sets b b' g account)
    (hwithin : SplitsWithin b b') (hparent : account.bind Account.parent = b.parentOf g)
    (hsome : account.isSome = (b.account g).isSome) : b'.Rooted := by
  refine h.congr hsets.root ?_ ?_ fun g' t ht s hs => ?_
  · rw [hsets.parentOf, hparent, Function.update_eq_self]
  · ext g'
    by_cases hg : g' = g
    · simp only [accountGuids, Set.mem_ofPred_eq, hg, hsets.self, hsome]
    · simp only [accountGuids, Set.mem_ofPred_eq, hsets.others g' hg]
  · obtain ⟨g₀, t₀, ht₀, s₀, hs₀, haccount⟩ := hwithin g' t ht s hs
    rw [← haccount]
    exact h.splits g₀ t₀ ht₀ s₀ hs₀

/-- A load, in whatever order of the splits. -/
theorem relist (h : b.Rooted) (o : LoadOrder) : (b.relist o).Rooted := by
  refine h.congr rfl ?_ ?_ fun g r hr s hs => ?_
  · funext g
    simp only [Book.parentOf, relist_account]
  · ext g
    simp only [accountGuids, relist_account]
  · obtain ⟨t, ht, hlisted⟩ := (relisted_relist o b).symm.transaction hr
    exact h.splits g t ht s (hlisted.splits.mem_iff.mpr hs)

/-- Nobody's parent is an account that is not there. -/
theorem not_climbs_of_account_none (h : b.Rooted) (hp : p ∈ b.accountGuids)
    (hg : b.account g = none) : ¬Forest.Climbs b.parentOf p g :=
  h.tree.not_climbs_of_not_mem (by simp [accountGuids, hg]) hp

end Rooted

end Book

/-! ### The cycle check

`CheckNoCycle` climbs from the new parent and looks for the account. That this comes to an end is
a property of the tree, and not of the function. -/

section Check

variable [Wire] {b : Book} {account newParent : Guid}

omit [Wire] in
/-- The loop of the source is the climb of the library. -/
theorem walkMeets_eq_meets (b : Book) (account : Guid) (fuel : ℕ) (cursor : Option Guid) :
    walkMeets b account fuel cursor = Forest.meets b.parentOf account fuel cursor := by
  induction fuel generalizing cursor with
  | zero => cases cursor <;> rfl
  | succ fuel ih =>
    cases cursor with
    | none => rfl
    | some cursor =>
      rw [walkMeets, Forest.meets, ih]
      rfl

omit [Wire] in
/-- In a tree the walk ends, and meets exactly the accounts above where it starts. -/
theorem Book.Rooted.walkMeets (h : b.Rooted) (hparent : newParent ∈ b.accountGuids) :
    ∃ met, walkMeets b account (b.accounts.card + 1) (some newParent) = some met ∧
      (met = true ↔ Forest.Climbs b.parentOf newParent account) := by
  have hall : ∀ g ∈ b.accountGuids, g ∈ (b.accounts.map Prod.fst).toFinset := by
    intro g hg
    obtain ⟨a, ha⟩ := Option.isSome_iff_exists.mp hg
    exact Multiset.mem_toFinset.mpr (Multiset.mem_map.mpr ⟨(g, a), Book.mem_accounts.mpr ha, rfl⟩)
  have hcard : (b.accounts.map Prod.fst).toFinset.card ≤ b.accounts.card + 1 := by
    have h := Multiset.toFinset_card_le (b.accounts.map Prod.fst)
    rw [Multiset.card_map] at h
    omega
  simp only [walkMeets_eq_meets]
  exact h.tree.meets_eq hall hcard hparent

/-- **`CheckNoCycle` in a tree**: it ends, and throws for the account itself and the accounts
below it. -/
theorem Book.Rooted.checkNoCycle (h : b.Rooted) (hparent : newParent ∈ b.accountGuids)
    (context : String) (w : World) :
    (Forest.Climbs b.parentOf newParent account →
      checkNoCycle b account newParent context w
        = .error (.shim ⟨.invalidArgument, "parent_guid would create a cycle", context⟩) w) ∧
      (¬Forest.Climbs b.parentOf newParent account →
        checkNoCycle b account newParent context w = .ok () w) := by
  obtain ⟨met, hwalk, hmet⟩ := h.walkMeets hparent
  unfold Daichod.checkNoCycle
  rw [hwalk, ← hmet]
  cases met with
  | true => exact ⟨fun _ => rfl, fun hnot => absurd rfl hnot⟩
  | false => exact ⟨fun hmet => absurd hmet Bool.false_ne_true, fun _ => rfl⟩

omit [Wire] in
/-- **In a tree the check ends**, and what it lets through is not below the account. -/
theorem Book.Rooted.noCycle (h : b.Rooted) (hparent : newParent ∈ b.accountGuids)
    (context : String) :
    noCycle b account newParent context ≠ .error .killed ∧
      (noCycle b account newParent context = .ok () →
        ¬Forest.Climbs b.parentOf newParent account) := by
  obtain ⟨met, hwalk, hmet⟩ := h.walkMeets hparent
  unfold Daichod.noCycle
  rw [hwalk, ← hmet]
  cases met with
  | true => exact ⟨nofun, nofun⟩
  | false => exact ⟨nofun, fun _ => Bool.false_ne_true⟩

end Check

/-! ### What an edit leaves of the tree

An edit of an account ends in one of the ways `Leaves` lists: left open, committed, or rolled
back. In each of them the other accounts are as the change left them. -/

/-- An account marked for destruction is in an edit that is still open. -/
def MarkedOpen (s : EditStore Entity) : Prop :=
  ∀ (g : Guid) (a : Account), s.working.lookup (.account g) = some a → a.destroying = true →
    Editing (.account g) s

namespace Edit.Leaves

variable {s s' : EditStore Entity} {ref : EntityRef} {g : Guid}
  {change : Finmap Entity → Finmap Entity}

/-- Accounts that the change does not touch. -/
theorem account_eq (h : Leaves ref change s s') {g' : Guid} (hne : EntityRef.account g' ≠ ref)
    (hsame : (change s.working).lookup (.account g') = s.working.lookup (.account g')) :
    s'.working.lookup (.account g') = s.working.lookup (.account g') :=
  (h.others _ hne).elim id fun heq => heq.trans hsame

/-- An account marked for destruction is held by an open edit. -/
theorem markedOpen (h : Leaves ref change s s') (hmarked : MarkedOpen s)
    (hothers : ∀ g, EntityRef.account g ≠ ref →
      (change s.working).lookup (.account g) = s.working.lookup (.account g)) :
    MarkedOpen s' := by
  intro g a ha hdestroying
  by_cases hg : EntityRef.account g = ref
  · subst hg
    rcases h.self with heq | ⟨-, hediting⟩ | ⟨-, heq⟩
    · rw [heq] at ha
      exact h.editing _ (hmarked g a ha hdestroying)
    · exact hediting
    · -- What is marked does not survive the end of its edit.
      rw [heq, Option.bind_eq_some_iff] at ha
      obtain ⟨a₀, -, hsettle⟩ := ha
      have hlive : a.destroying = false :=
        @Entity.settle_atRest (.account g) a₀ a trivial hsettle
      rw [hlive] at hdestroying
      cases hdestroying
  · rw [h.account_eq hg (hothers g hg)] at ha
    exact h.editing _ (hmarked g a ha hdestroying)

/-- The account of the edit is as it was, or changed. -/
theorem self_of_live (h : Leaves (.account g) change s s') {a : Account}
    (hchange : (change s.working).lookup (.account g) = some a)
    (hlive : ¬Editing (.account g) s → a.destroying = false) :
    s'.working.lookup (.account g) = s.working.lookup (.account g) ∨
      s'.working.lookup (.account g) = some a := by
  rcases h.self with heq | ⟨heq, -⟩ | ⟨hnot, heq⟩
  · exact Or.inl heq
  · exact Or.inr (heq.trans hchange)
  · right
    have hsettle : Entity.settle (.account g) a = some a :=
      Entity.settle_of_atRest (.account g) (hlive hnot)
    rw [heq, hchange]
    exact hsettle

variable {b : Book}

/-- One account is set, to what the edit left of it. -/
theorem sets (h : Leaves (.account g) change s s')
    (hothers : ∀ g', g' ≠ g →
      (change s.working).lookup (.account g') = s.working.lookup (.account g')) :
    Book.Sets (b.setEntities s.working) (b.setEntities s'.working) g
      (s'.working.lookup (.account g)) where
  root := rfl
  self := rfl
  others g' hg' := by
    have hne : EntityRef.account g' ≠ .account g := fun heq => hg' (EntityRef.account.inj heq)
    exact h.account_eq hne (hothers g' hg')

/-- The edit of an account moves no split. -/
theorem splitsWithin (h : Leaves (.account g) change s s')
    (hsplits : ∀ (g' : Guid) (t : Transaction),
      (change s.working).lookup (.transaction g') = some t →
        ∃ t₀ : Transaction, s.working.lookup (.transaction g') = some t₀ ∧
          t.splits.map Split.account = t₀.splits.map Split.account) :
    Book.SplitsWithin (b.setEntities s.working) (b.setEntities s'.working) := by
  intro g' t ht split hs
  rcases h.others (.transaction g') (by simp) with heq | heq
  · exact ⟨g', t, heq.symm.trans ht, split, hs, rfl⟩
  · obtain ⟨t₀, ht₀, hmap⟩ := hsplits g' t (heq.symm.trans ht)
    have hmem : split.account ∈ t₀.splits.map Split.account :=
      hmap ▸ List.mem_map.mpr ⟨split, hs, rfl⟩
    obtain ⟨split₀, hs₀, haccount⟩ := List.mem_map.mp hmem
    exact ⟨g', t₀, ht₀, split₀, hs₀, haccount⟩

end Edit.Leaves

/-! ### Every edit keeps the tree

One lemma for each RPC that touches accounts; the others leave the pointers alone. -/

/-- The tree of a run that began with `b₀`, with what the memory must be for it to last. -/
structure Tree (b₀ : Book) (s : EditStore Entity) : Prop where
  rooted : (b₀.setEntities s.working).Rooted
  clean : s.Clean
  markedOpen : MarkedOpen s
  rootType : ((b₀.setEntities s.working).account b₀.rootAccount).map Account.type
    = (b₀.account b₀.rootAccount).map Account.type

namespace Tree

variable {b₀ : Book} {s s' : EditStore Entity} {g p : Guid} {a : Account}
  {change : Finmap Entity → Finmap Entity}

/-- The root account is there. -/
theorem root_isSome (h : Tree b₀ s) : (s.working.lookup (.account b₀.rootAccount)).isSome = true :=
  h.rooted.tree.root_mem

/-- A load when no edit is open. -/
theorem load (h : Tree b₀ s) (hquiet : s.Quiet) (o : LoadOrder) : Tree b₀ (s.load o.entity) := by
  have hbook := Book.setEntities_load hquiet b₀ o
  refine ⟨hbook ▸ h.rooted.relist o, (EditStore.load_quiet _ _).clean, fun g a ha hmarked => ?_, ?_⟩
  · have haccount : s.working.lookup (.account g) = some a := by
      have hload : ((b₀.setEntities s.working).relist o).account g = some a := hbook ▸ ha
      rwa [Book.relist_account] at hload
    -- No edit is open, so no account is marked.
    obtain ⟨scope, hscope, -⟩ := h.markedOpen g a haccount hmarked
    rw [hquiet.scopes_nil] at hscope
    cases hscope
  · rw [hbook, Book.relist_account]
    exact h.rootType

/-- An account that no edit is open on is not marked. -/
theorem live (h : Tree b₀ s) (ha : s.working.lookup (.account g) = some a)
    (hnot : ¬Editing (.account g) s) : a.destroying = false := by
  by_contra hdestroying
  exact hnot (h.markedOpen g a ha (by simpa using hdestroying))

/-- An edit of one account, which leaves the root its type. -/
theorem of_sets (h : Tree b₀ s) (hleaves : Edit.Leaves (.account g) change s s')
    (hothers : ∀ g', g' ≠ g →
      (change s.working).lookup (.account g') = s.working.lookup (.account g'))
    (htype : g = b₀.rootAccount → (s'.working.lookup (.account g)).map Account.type
      = (s.working.lookup (.account g)).map Account.type)
    (hrooted : (b₀.setEntities s'.working).Rooted) : Tree b₀ s' where
  rooted := hrooted
  clean := hleaves.clean
  markedOpen := hleaves.markedOpen h.markedOpen fun g' hne =>
    hothers g' fun heq => hne (heq ▸ rfl)
  rootType := by
    rw [← h.rootType]
    by_cases hg : g = b₀.rootAccount
    · exact hg ▸ htype hg
    · exact congrArg (Option.map Account.type)
        ((hleaves.sets (b := b₀) hothers).others _ (Ne.symm hg))

/-- A new account, or one that is moved. -/
theorem graft (h : Tree b₀ s) (hleaves : Edit.Leaves (.account g) change s s')
    (hothers : ∀ g', g' ≠ g →
      (change s.working).lookup (.account g') = s.working.lookup (.account g'))
    (hsplits : ∀ (g' : Guid) (t : Transaction),
      (change s.working).lookup (.transaction g') = some t →
        ∃ t₀ : Transaction, s.working.lookup (.transaction g') = some t₀ ∧
          t.splits.map Split.account = t₀.splits.map Split.account)
    (hchange : (change s.working).lookup (.account g) = some a)
    (hlive : ¬Editing (.account g) s → a.destroying = false) (hparent : a.parent = some p)
    (hg : g ≠ b₀.rootAccount) (hp : p ∈ (b₀.setEntities s.working).accountGuids)
    (hnot : ¬Forest.Climbs (b₀.setEntities s.working).parentOf p g) : Tree b₀ s' := by
  refine h.of_sets hleaves hothers (fun heq => absurd heq hg) ?_
  have hsets := hleaves.sets (b := b₀) hothers
  have hwithin := hleaves.splitsWithin (b := b₀) hsplits
  rcases hleaves.self_of_live hchange hlive with heq | heq
  · rw [heq] at hsets
    exact h.rooted.keep hsets hwithin rfl rfl
  · rw [heq] at hsets
    exact h.rooted.graft hsets hwithin hparent hg hp hnot

/-- An edit that changes no account. -/
theorem of_accounts (h : Tree b₀ s)
    (haccounts : ∀ g, s'.working.lookup (.account g) = s.working.lookup (.account g))
    (hediting : ∀ k, Editing k s → Editing k s') (hclean : s'.Clean)
    (hsplits : ∀ (g : Guid) (t : Transaction), s'.working.lookup (.transaction g) = some t →
      ∀ split ∈ t.splits, split.account ∈ (b₀.setEntities s.working).accountGuids) :
    Tree b₀ s' where
  rooted := by
    have haccount : ∀ g, (b₀.setEntities s'.working).account g
        = (b₀.setEntities s.working).account g := haccounts
    refine h.rooted.congr rfl ?_ ?_ hsplits
    · funext g
      rw [Book.parentOf, Book.parentOf, haccount]
    · ext g
      simp only [Book.accountGuids, Set.mem_ofPred_eq, haccount]
  clean := hclean
  markedOpen g a ha hdestroying := by
    rw [haccounts] at ha
    exact hediting _ (h.markedOpen g a ha hdestroying)
  rootType := by
    rw [← h.rootType]
    exact congrArg (Option.map Account.type) (haccounts _)

/-- An edit of one transaction whose splits all go into accounts of the book. -/
theorem of_transaction (h : Tree b₀ s) (hleaves : Edit.Leaves (.transaction g) change s s')
    (hothers : ∀ ref ≠ EntityRef.transaction g,
      (change s.working).lookup ref = s.working.lookup ref)
    (hsplits : ∀ t : Transaction, (change s.working).lookup (.transaction g) = some t →
      ∀ split ∈ t.splits, split.account ∈ (b₀.setEntities s.working).accountGuids) :
    Tree b₀ s' := by
  have hsame : ∀ ref ≠ EntityRef.transaction g, s'.working.lookup ref = s.working.lookup ref :=
    fun ref hne => (hleaves.others ref hne).elim id fun heq => heq.trans (hothers ref hne)
  refine h.of_accounts (fun g' => hsame _ (by simp)) hleaves.editing hleaves.clean ?_
  intro g' t ht
  by_cases hg : g' = g
  · subst hg
    rcases hleaves.self with heq | ⟨heq, -⟩ | ⟨-, heq⟩
    · exact h.rooted.splits g' t (heq.symm.trans ht)
    · exact hsplits t (heq.symm.trans ht)
    · -- The end of the edit only drops splits.
      rw [heq, Option.bind_eq_some_iff] at ht
      obtain ⟨t₀, ht₀, hsettle⟩ := ht
      simp only [Entity.settle] at hsettle
      split at hsettle
      · cases hsettle
      · cases hsettle
        exact fun split hs => hsplits t₀ ht₀ split (List.mem_filter.mp hs).1
  · rw [hsame _ (by simpa using hg)] at ht
    exact h.rooted.splits g' t ht

end Tree

section Edits

variable [Engine] {b₀ : Book} {s s' : EditStore Entity}

/-- A planned transaction has its splits in accounts of the book. -/
theorem applyPlan_accounts {b : Book} {now : Int64} {spec : Shim.Transaction}
    {existing : Option Transaction} {plan : TransactionPlan} {newGuid : ℕ → Guid} {t : Transaction}
    (hplan : planTransaction now b spec existing = .ok plan)
    (ht : ∀ split ∈ t.splits, split.account ∈ b.accountGuids) :
    ∀ split ∈ (applyPlan newGuid b plan t).splits, split.account ∈ b.accountGuids :=
  applyPlan_forall (fun _ _ _ hs => hs) (fun _ hs => hs)
    (fun p hp => SplitPlan.gives_of_set fun _ _ => planTransaction_accounts hplan p hp) ht

/-- **CreateAccount** grafts a new leaf. -/
theorem Tree.createAccount (h : Tree b₀ s) {request : Shim.CreateAccountRequest} {fate : Fate}
    {edit : Edit Shim.Account} (hfresh : fate.Fresh (b₀.setEntities s.working))
    (hplan : (Mutation.createAccount request).plan fate (b₀.setEntities s.working) = .ok edit)
    (hends : edit.Ends s s') : Tree b₀ s' := by
  obtain ⟨parent, type, commodity, hparent, -, -, rfl⟩ := plan_createAccount_ok hplan
  have hp : parent ∈ (b₀.setEntities s.working).accountGuids := by
    obtain ⟨-, a, ha⟩ := findAccount_ok hparent
    simp [Book.accountGuids, ha]
  have hnew : s.working.lookup (.account (fate.newGuid 0)) = none := (hfresh 0).1
  -- the root is there already, and the new account is not
  have hroot : fate.newGuid 0 ≠ b₀.rootAccount := by
    intro heq
    have hsome := h.root_isSome
    rw [← heq, hnew] at hsome
    cases hsome
  have hinsert : ∀ ref ≠ EntityRef.account (fate.newGuid 0),
      (s.working.insert (.account (fate.newGuid 0)) Account.blank).lookup ref
        = s.working.lookup ref := fun ref hne => Finmap.lookup_insert_of_ne _ hne
  simp only [createAccountEdit] at hends
  have hleaves := hends.leaves_inPlace h.clean fun ref hne => by
    rw [lookup_setAccount_of_not_mem hne]
    exact hinsert ref fun heq => hne (Finset.mem_insert.mpr (Or.inl heq))
  -- a new account has nothing below it, so its parent is not there
  refine h.graft hleaves ?_ ?_ (lookup_setAccount_self _ _ _ _ (Finmap.lookup_insert _))
    (fun _ => rfl) rfl hroot hp (h.rooted.not_climbs_of_account_none hp hnew)
  · intro g' hne
    rw [lookup_setAccount_account hne]
    exact hinsert _ (by simpa using hne)
  · intro g' t ht
    obtain ⟨t₀, ht₀, hmap⟩ := lookup_setAccount_transaction ht
    exact ⟨t₀, (hinsert _ (by simp)).symm.trans ht₀, hmap⟩

/-- **UpdateAccount** grafts an account under a parent that is not below it. -/
theorem Tree.updateAccount (h : Tree b₀ s) {request : Shim.UpdateAccountRequest} {fate : Fate}
    {edit : Edit Shim.Account}
    (hplan : (Mutation.updateAccount request).plan fate (b₀.setEntities s.working) = .ok edit)
    (hends : edit.Ends s s') : Tree b₀ s' := by
  obtain ⟨account, type, commodity, parent, haccount, hroot, -, -, hparent, hcycle, rfl⟩ :=
    plan_updateAccount_ok hplan
  obtain ⟨-, a, ha⟩ := findAccount_ok haccount
  have ha : s.working.lookup (.account account) = some a := ha
  have hp : parent ∈ (b₀.setEntities s.working).accountGuids := by
    obtain ⟨-, a, ha⟩ := findAccount_ok hparent
    simp [Book.accountGuids, ha]
  simp only [updateAccountEdit] at hends
  have hleaves := hends.leaves_inPlace h.clean fun ref hne => lookup_setAccount_of_not_mem hne
  exact h.graft hleaves (fun g' hne => lookup_setAccount_account hne)
    (fun g' t ht => lookup_setAccount_transaction ht) (lookup_setAccount_self _ _ _ _ ha)
    (fun hnot => (h.live ha hnot :)) rfl hroot hp ((h.rooted.noCycle hp _).2 hcycle)

/-- **DeleteAccount** prunes a leaf, or marks it and leaves it where it is. -/
theorem Tree.deleteAccount (h : Tree b₀ s) {request : Shim.DeleteAccountRequest} {fate : Fate}
    {edit : Edit Unit}
    (hplan : (Mutation.deleteAccount request).plan fate (b₀.setEntities s.working) = .ok edit)
    (hends : edit.Ends s s') : Tree b₀ s' := by
  obtain ⟨account, haccount, hroot, hempty, rfl⟩ := plan_deleteAccount_ok hplan
  obtain ⟨-, a, ha⟩ := findAccount_ok haccount
  have ha : s.working.lookup (.account account) = some a := ha
  obtain ⟨hsplits, hchildren⟩ := not_or.mp hempty
  have hchange : (editAccount account ({ · with destroying := true }) s.working).lookup
      (.account account) = some { a with destroying := true } := lookup_editAccount_self ha
  have hothers : ∀ ref ≠ EntityRef.account account,
      (editAccount account ({ · with destroying := true }) s.working).lookup ref
        = s.working.lookup ref := fun ref hne => lookup_editAccount_ne _ hne
  have hothers' : ∀ g' ≠ account,
      (editAccount account ({ · with destroying := true }) s.working).lookup (.account g')
        = s.working.lookup (.account g') := fun g' hne => hothers _ (by simpa using hne)
  have hleaves : Edit.Leaves (.account account)
      (editAccount account ({ · with destroying := true })) s s' :=
    hends.leaves_destroy h.clean hothers
  have hsets := hleaves.sets (b := b₀) hothers'
  have hwithin := hleaves.splitsWithin (b := b₀) fun g' t ht =>
    ⟨t, (hothers _ (by simp)).symm.trans ht, rfl⟩
  -- the account is as it was, marked with its edit open, or gone
  refine h.of_sets hleaves hothers' (fun heq => absurd heq hroot) ?_
  rcases hleaves.self with heq | ⟨heq, -⟩ | ⟨-, heq⟩
  · rw [heq] at hsets
    exact h.rooted.keep hsets hwithin rfl rfl
  · -- Marked, and still there.
    rw [heq, hchange] at hsets
    refine h.rooted.keep hsets hwithin ?_ ?_
    · rw [Book.parentOf, Book.account]
      exact (congrArg (·.bind Account.parent) ha).symm
    · exact (congrArg Option.isSome ha).symm
  · rw [heq, hchange] at hsets
    exact h.rooted.prune hsets hwithin hroot hchildren (not_not.mp hsplits)

/-- **SetReconcileInfo** leaves the account where it is. -/
theorem Tree.setReconcileInfo (h : Tree b₀ s) {request : Shim.SetReconcileInfoRequest}
    {fate : Fate} {edit : Edit Shim.ReconcileInfo}
    (hplan : (Mutation.setReconcileInfo request).plan fate (b₀.setEntities s.working) = .ok edit)
    (hends : edit.Ends s s') : Tree b₀ s' := by
  obtain ⟨account, _, date, haccount, -, -, rfl⟩ := plan_setReconcileInfo_ok hplan
  obtain ⟨-, a, ha⟩ := findAccount_ok haccount
  have ha : s.working.lookup (.account account) = some a := ha
  have hlive : ¬Editing (.account account) s →
      (a.setReconcileLastDate date).destroying = false := fun hnot => (h.live ha hnot :)
  have hothers : ∀ ref ≠ EntityRef.account account,
      (editAccount account (Account.setReconcileLastDate date) s.working).lookup ref
        = s.working.lookup ref := fun ref hne => lookup_editAccount_ne _ hne
  have hothers' : ∀ g' ≠ account,
      (editAccount account (Account.setReconcileLastDate date) s.working).lookup (.account g')
        = s.working.lookup (.account g') := fun g' hne => hothers _ (by simpa using hne)
  simp only [setReconcileInfoEdit] at hends
  have hleaves := hends.leaves_inPlace h.clean fun ref hne =>
    hothers ref fun heq => hne (Finset.mem_insert.mpr (Or.inl heq))
  have hsets := hleaves.sets (b := b₀) hothers'
  have hwithin := hleaves.splitsWithin (b := b₀) fun g' t ht =>
    ⟨t, (hothers _ (by simp)).symm.trans ht, rfl⟩
  -- Neither the parent nor the type is set.
  rcases hleaves.self_of_live (lookup_editAccount_self ha) hlive with heq | heq
  · refine h.of_sets hleaves hothers' (fun _ => congrArg _ heq) ?_
    rw [heq] at hsets
    exact h.rooted.keep hsets hwithin rfl rfl
  · refine h.of_sets hleaves hothers' (fun _ => by rw [heq, ha]; rfl) ?_
    rw [heq] at hsets
    refine h.rooted.keep hsets hwithin ?_ (congrArg Option.isSome ha).symm
    rw [Book.parentOf, Book.account]
    exact (congrArg (·.bind Account.parent) ha).symm

/-- **Every end of every planned edit keeps the tree.** -/
theorem Tree.edit (h : Tree b₀ s) {m : Mutation} {fate : Fate} {edit : Edit m.Response}
    (hfresh : fate.Fresh (b₀.setEntities s.working))
    (hplan : m.plan fate (b₀.setEntities s.working) = .ok edit) (hends : edit.Ends s s') :
    Tree b₀ s' := by
  -- The transaction RPCs put splits into accounts that the plan has found.
  cases m with
  | createAccount request => exact h.createAccount hfresh hplan hends
  | updateAccount request => exact h.updateAccount hplan hends
  | deleteAccount request => exact h.deleteAccount hplan hends
  | setReconcileInfo request => exact h.setReconcileInfo hplan hends
  | postTransaction request =>
    obtain ⟨plan, hplanned, rfl⟩ := plan_postTransaction_ok hplan
    have hothers : ∀ ref ≠ EntityRef.transaction (fate.newGuid 0),
        (editTransaction (fate.newGuid 0) (applyPlan fate.newGuid (b₀.setEntities s.working) plan)
          (s.working.insert (.transaction (fate.newGuid 0)) Transaction.blank)).lookup ref
            = s.working.lookup ref := by
      intro ref hne
      rw [lookup_editTransaction_ne _ hne, Finmap.lookup_insert_of_ne _ hne]
    simp only [postTransactionEdit] at hends
    refine h.of_transaction (hends.leaves_inPlace h.clean fun ref hne => hothers ref ?_) hothers ?_
    · exact fun heq => hne (Finset.mem_insert.mpr (Or.inl heq))
    · intro t ht
      rw [editTransaction_of_lookup (Finmap.lookup_insert _), Finmap.lookup_insert] at ht
      obtain rfl := Option.some.inj ht
      exact applyPlan_accounts hplanned fun split hs => by cases hs
  | updateTransaction request =>
    obtain ⟨transaction, plan, -, hplanned, rfl⟩ := plan_updateTransaction_ok hplan
    simp only [updateTransactionEdit] at hends
    refine h.of_transaction (hends.leaves_inPlace h.clean fun ref hne => ?_)
      (fun ref hne => lookup_editTransaction_ne _ hne) ?_
    · exact lookup_editTransaction_ne _ fun heq => hne (Finset.mem_insert.mpr (Or.inl heq))
    intro t ht
    cases hold : (s.working.lookup (.transaction transaction) : Option Transaction) with
    | none =>
      simp only [editTransaction, hold] at ht
      cases ht
    | some t₀ =>
      rw [editTransaction_of_lookup hold, Finmap.lookup_insert] at ht
      obtain rfl := Option.some.inj ht
      exact applyPlan_accounts hplanned (h.rooted.splits transaction t₀ hold)
  | deleteTransaction request =>
    obtain ⟨transaction, -, rfl⟩ := plan_deleteTransaction_ok hplan
    refine h.of_transaction (hends.leaves_destroy h.clean fun ref hne =>
      lookup_editTransaction_ne _ hne) (fun ref hne => lookup_editTransaction_ne _ hne) ?_
    intro t ht
    cases hold : (s.working.lookup (.transaction transaction) : Option Transaction) with
    | none =>
      simp only [editTransaction, hold] at ht
      cases ht
    | some t₀ =>
      rw [editTransaction_of_lookup hold, Finmap.lookup_insert] at ht
      obtain rfl := Option.some.inj ht
      have hsplits : t₀.destroy.splits = t₀.splits := by
        unfold Transaction.destroy
        split <;> rfl
      rw [hsplits]
      exact h.rooted.splits transaction t₀ hold
  | addPrice request =>
    obtain ⟨_, _, _, _, _, -, -, -, -, -, -, rfl⟩ := plan_addPrice_ok hplan
    obtain ⟨hkeeps, hediting, hclean⟩ := hends.price_keeps h.clean
    refine h.of_accounts (fun g => hkeeps _ (by simp)) hediting hclean fun g t ht => ?_
    rw [hkeeps _ (by simp)] at ht
    exact h.rooted.splits g t ht

omit [Engine] in
/-- A check ends. -/
theorem throws_check_ends {α : Type} (v : Except ShimError α) : Throws (· ≠ .killed) (check v) := by
  intro e he
  cases v with
  | ok a => cases he
  | error s =>
    cases he
    exact nofun

/-- In a tree no validation goes on for ever. -/
theorem Book.Rooted.plan_ends {b : Book} (h : b.Rooted) (m : Mutation) (fate : Fate) :
    Throws (· ≠ .killed) (m.plan fate b) := by
  cases m with
  | createAccount request =>
    refine (throws_check_ends _).bind fun _ => (throws_check_ends _).bind fun _ => ?_
    exact (throws_check_ends _).bind fun _ => throws_ok _
  | updateAccount request =>
    refine (throws_check_ends _).bind fun account => (throws_check_ends _).bind fun _ => ?_
    refine (throws_check_ends _).bind fun _ => (throws_check_ends _).bind fun _ => ?_
    refine (throws_check_ends _).bind fun _ => (throws_check_ends _).bind_ok fun parent hparent => ?_
    -- The walk starts at an account of the tree.
    have hp : parent ∈ b.accountGuids := by
      obtain ⟨a, ha⟩ := (findAccount_ok (check_ok hparent)).2
      simp [Book.accountGuids, ha]
    refine Throws.bind (fun e he hkilled => ?_) fun _ => throws_ok _
    exact (h.noCycle hp _).1 (hkilled ▸ he)
  | deleteAccount request =>
    refine (throws_check_ends _).bind fun _ => (throws_check_ends _).bind fun _ => ?_
    exact (throws_check_ends _).bind fun _ => throws_ok _
  | setReconcileInfo request =>
    refine (throws_check_ends _).bind fun _ => (throws_check_ends _).bind fun _ => ?_
    exact (throws_check_ends _).bind fun _ => throws_ok _
  | postTransaction request => exact (throws_check_ends _).bind fun _ => throws_ok _
  | updateTransaction request =>
    exact (throws_check_ends _).bind fun _ => (throws_check_ends _).bind fun _ => throws_ok _
  | deleteTransaction request => exact (throws_check_ends _).bind fun _ => throws_ok _
  | addPrice request =>
    refine (throws_check_ends _).bind fun _ => (throws_check_ends _).bind fun _ => ?_
    refine (throws_check_ends _).bind fun _ => (throws_check_ends _).bind fun _ => ?_
    exact (throws_check_ends _).bind fun _ => (throws_check_ends _).bind fun _ => throws_ok _

end Edits

/-! ### Runs -/

section Runs

variable [Wire] [Engine]

omit [Wire] [Engine] in
/-- The memory a run begins with. -/
theorem Tree.init {b₀ : Book} (hrooted : b₀.Rooted)
    (hlive : ∀ g a, b₀.account g = some a → a.destroying = false) :
    Tree b₀ (EditStore.ofTable b₀.entities) :=
  ⟨hrooted, (EditStore.ofTable_quiet _).clean,
    fun g a ha hdestroying => absurd hdestroying (by simp [hlive g a ha]), rfl⟩

/-- The memory of a tended run, and the book it makes. -/
theorem Tree.run {config : Config} {b₀ : Book} {events : List Event}
    (hrooted : b₀.Rooted) (hlive : ∀ g a, b₀.account g = some a → a.destroying = false)
    (htended : Machine.Along Daemon.step Daemon.Tended (Daemon.fresh config b₀) events) :
    let w := ((Daemon.fresh config b₀).run events).world
    Tree b₀ w.store ∧ w.book = b₀.setEntities w.store.working := by
  exact Along.store (I := Tree b₀) htended (Tree.init hrooted hlive)
    (fun s o hquiet h => h.load hquiet o)
    (fun m fate s h hkilled => h.rooted.plan_ends m fate _ hkilled rfl)
    (fun m fate s s' edit h hfresh hplan hends => h.edit hfresh hplan hends)

/-- **Account references stay a rooted tree**, whatever requests come and however they fare. -/
theorem accounts_stay_rooted {config : Config} {b₀ : Book} {events : List Event}
    (hrooted : b₀.Rooted) (hlive : ∀ g a, b₀.account g = some a → a.destroying = false)
    (htended : Machine.Along Daemon.step Daemon.Tended (Daemon.fresh config b₀) events) :
    let b := ((Daemon.fresh config b₀).run events).world.book
    b.Rooted ∧ b.rootAccount = b₀.rootAccount ∧ b.parentOf b₀.rootAccount = none ∧
      (b.account b₀.rootAccount).map Account.type = (b₀.account b₀.rootAccount).map Account.type ∧
      ∀ account, ∀ newParent ∈ b.accountGuids, ∀ context w,
        checkNoCycle b account newParent context w
            = .error (.shim ⟨.invalidArgument, "parent_guid would create a cycle", context⟩) w ∧
          Forest.Climbs b.parentOf newParent account ∨
        checkNoCycle b account newParent context w = .ok () w ∧
          ¬Forest.Climbs b.parentOf newParent account := by
  obtain ⟨htree, hbook⟩ := Tree.run hrooted hlive htended
  dsimp only
  rw [hbook]
  refine ⟨htree.rooted, rfl, htree.rooted.tree.root_top, htree.rootType, ?_⟩
  intro account newParent hparent context w
  obtain ⟨hthrows, hreturns⟩ := htree.rooted.checkNoCycle hparent context w
  by_cases hbelow : Forest.Climbs (b₀.setEntities ((Daemon.fresh config b₀).run
      events).world.store.working).parentOf newParent account
  · exact Or.inl ⟨hthrows hbelow, hbelow⟩
  · exact Or.inr ⟨hreturns hbelow, hbelow⟩

end Runs

section Witness

open Reference

attribute [local instance] Reference.engine Reference.wire

/-- The small book has the GUIDs up to 3. -/
theorem book_parentOf {g : ℕ} (h : 3 < g) : book.parentOf g = none := by
  rw [Book.parentOf, (book_lookup_of_lt h).1]
  rfl

/-- The small book is a tree: a root with two accounts below it. -/
theorem book_rooted : book.Rooted where
  tree := by
    have hclimb : ∀ g : ℕ, book.parentOf g = some 1 → Forest.Climbs book.parentOf g 1 :=
      fun g h => .single h
    have hroot : (book.account 1).isSome = true := by decide +kernel
    refine ⟨hroot, by decide +kernel, ?_, ?_⟩
    · intro g p hparent
      obtain ⟨a, ha, -⟩ := Option.bind_eq_some_iff.mp hparent
      simp [Book.accountGuids, ha]
    · intro (g : ℕ) (hg : (book.account g).isSome = true)
      by_cases hlt : 3 < g
      · rw [(book_lookup_of_lt hlt).1] at hg
        cases hg
      · have hcases : g = 0 ∨ g = 1 ∨ g = 2 ∨ g = 3 := by omega
        rcases hcases with rfl | rfl | rfl | rfl
        · exact absurd hg (by decide +kernel)
        · exact .refl
        · exact hclimb 2 (by decide +kernel)
        · exact hclimb 3 (by decide +kernel)
  splits g t ht := by
    rw [book_transaction] at ht
    cases ht

/-- A start, and a transaction whose pending record cannot be written: its edit is left
open. -/
def unpendedPost : List Event :=
  [.start (starts []), .mutate (post '1' 100) { calm 16 with recordPendingFault := some diskFull }]

/-- A post whose pending record cannot be written leaves its edit open, and the tree as it was. -/
theorem accounts_stay_rooted_unpendedPost :
    ((Daemon.fresh config book).run unpendedPost).world.book.Rooted := by
  have hlive : ∀ g a, book.account g = some a → a.destroying = false :=
    fun g a ha => book_atRest (.account g) a ha
  have hfresh : Fate.Fresh { calm 16 with recordPendingFault := some diskFull }
      started.world.book := by
    rw [started_book]
    exact calm_fresh (by decide) none
  have hrun : Machine.Along Daemon.step Daemon.Tended (Daemon.fresh config book) unpendedPost :=
    ⟨trivial, ⟨hfresh, fun hcrash => absurd rfl hcrash⟩, trivial⟩
  exact (accounts_stay_rooted book_rooted hlive hrun).1

end Witness

end Daichod
