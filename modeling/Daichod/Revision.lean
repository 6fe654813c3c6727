import Daichod.Memory
import Daichod.Rpc.Results

/-!
# Daichod.Revision

What a call makes of a transaction. `Revision` has one constructor for each way a call can
change one; `Mutation.revised` says that whatever a call leaves in memory is a revision, or
what the end of the edit leaves of one. What every revision keeps of a transaction holds of
all transactions in every state of a run.

## Proof shape

`Edit.Leaves` says entity by entity where a call can leave the store, so it is enough to know what
the change of each edit does to transactions: `Edit.Leaves.revised` puts the two together. An edit
of an account at most rounds the splits on it again (`Edit.Leaves.revised_of_account`), an edit of
a transaction touches no other (`Edit.Leaves.revised_of_transaction`), and `Mutation.revised`
names the case of each RPC.
-/

namespace Daichod

variable [Engine]

/-- What an edit can make of transaction `g` of a book. -/
inductive Revision (fate : Fate) (b : Book) (g : Guid) : Transaction → Prop
  | kept {t} (ht : b.transaction g = some t) : Revision fate b g t
  | planned {t spec existing plan} (ht : t = .blank ∨ b.transaction g = some t)
      (hplan : planTransaction fate.gncTime b spec existing = .ok plan) :
      Revision fate b g (applyPlan fate.newGuid b plan t)
  | destroyed {t} (ht : b.transaction g = some t) : Revision fate b g t.destroy
  | rerounded {t} (account : Guid) (fraction : Int64) (ht : b.transaction g = some t) :
      Revision fate b g (t.reround account fraction)

/-- What a call has left of transaction `g`, from `s` to `s'`. -/
structure Revised (fate : Fate) (b : Book) (s s' : EditStore Entity) (g : Guid)
    (t' : Transaction) : Prop where
  revision : ∃ t, Revision fate b g t ∧
    (t' = t ∨ Entity.settle (.transaction g) t = some t')
  live : (∀ t₀ : Transaction, s.working.lookup (.transaction g) = some t₀ →
      ¬Editing (.transaction g) s → t₀.destroying = false) →
    ¬Editing (.transaction g) s' → t'.destroying = false

section Leaves

variable {fate : Fate} {b₀ : Book} {s s' : EditStore Entity} {ref : EntityRef}
  {change : Finmap Entity → Finmap Entity}

omit [Engine] in
/-- A transaction that settling leaves in the book is not marked. -/
theorem Entity.settle_live {g : Guid} {t t' : Transaction}
    (h : Entity.settle (.transaction g) t = some t') : t'.destroying = false := by
  simp only [Entity.settle] at h
  split at h
  · cases h
  · next hlive =>
    cases h
    simpa using hlive

/-- An edit whose change revises transactions, and marks none but its own. -/
theorem Edit.Leaves.revised (h : Edit.Leaves ref change s s')
    (hrevision : ∀ (g : Guid) (t : Transaction),
      (change s.working).lookup (.transaction g) = some t →
        Revision fate (b₀.setEntities s.working) g t)
    (hmarks : ∀ (g : Guid) (t : Transaction), EntityRef.transaction g ≠ ref →
      (change s.working).lookup (.transaction g) = some t →
        ∃ t₀ : Transaction, s.working.lookup (.transaction g) = some t₀ ∧
          t.destroying = t₀.destroying)
    {g : Guid} {t' : Transaction} (ht' : s'.working.lookup (.transaction g) = some t') :
    Revised fate (b₀.setEntities s.working) s s' g t' := by
  -- as it was: a revision of itself, and not marked unless an edit is still open on it
  have hkept : s'.working.lookup (.transaction g) = s.working.lookup (.transaction g) →
      Revised fate (b₀.setEntities s.working) s s' g t' := by
    intro heq
    have ht : s.working.lookup (.transaction g) = some t' := heq.symm.trans ht'
    exact ⟨⟨t', .kept ht, Or.inl rfl⟩, fun hlive hnot =>
      hlive t' ht fun hediting => hnot (h.editing _ hediting)⟩
  by_cases hg : EntityRef.transaction g = ref
  · subst hg
    -- the edit's own transaction: as before, changed with its edit open, or changed and settled
    rcases h.self with heq | ⟨heq, hediting⟩ | ⟨-, heq⟩
    · exact hkept heq
    · exact ⟨⟨t', hrevision g t' (heq.symm.trans ht'), Or.inl rfl⟩,
        fun _ hnot => absurd hediting hnot⟩
    · rw [heq, Option.bind_eq_some_iff] at ht'
      obtain ⟨t, ht, hsettle⟩ := ht'
      exact ⟨⟨t, hrevision g t ht, Or.inr hsettle⟩, fun _ _ => Entity.settle_live hsettle⟩
  -- another one that the change has touched is marked as it was before
  · rcases h.others _ hg with heq | heq
    · exact hkept heq
    · obtain ⟨t₀, ht₀, hdestroying⟩ := hmarks g t' hg (heq.symm.trans ht')
      exact ⟨⟨t', hrevision g t' (heq.symm.trans ht'), Or.inl rfl⟩, fun hlive hnot =>
        hdestroying.trans (hlive t₀ ht₀ fun hediting => hnot (h.editing _ hediting))⟩

/-- An edit that changes no transaction. -/
theorem revised_of_same {g : Guid}
    (hsame : s'.working.lookup (.transaction g) = s.working.lookup (.transaction g))
    (hediting : ∀ k, Editing k s → Editing k s') {t' : Transaction}
    (ht' : s'.working.lookup (.transaction g) = some t') :
    Revised fate (b₀.setEntities s.working) s s' g t' := by
  have ht : s.working.lookup (.transaction g) = some t' := hsame.symm.trans ht'
  exact ⟨⟨t', .kept ht, Or.inl rfl⟩, fun hlive hnot =>
    hlive t' ht fun h => hnot (hediting _ h)⟩

/-- An edit of one account. -/
theorem Edit.Leaves.revised_of_account {account : Guid}
    (h : Edit.Leaves (.account account) change s s')
    (hchange : ∀ (g : Guid) (t : Transaction),
      (change s.working).lookup (.transaction g) = some t →
        ∃ t₀ : Transaction, s.working.lookup (.transaction g) = some t₀ ∧
          (t = t₀ ∨ ∃ fraction, t = t₀.reround account fraction))
    {g : Guid} {t' : Transaction} (ht' : s'.working.lookup (.transaction g) = some t') :
    Revised fate (b₀.setEntities s.working) s s' g t' := by
  refine h.revised (fun g t ht => ?_) (fun g t _ ht => ?_) ht'
  · obtain ⟨t₀, ht₀, rfl | ⟨fraction, rfl⟩⟩ := hchange g t ht
    · exact .kept ht₀
    · exact .rerounded account fraction ht₀
  · obtain ⟨t₀, ht₀, rfl | ⟨fraction, rfl⟩⟩ := hchange g t ht
    · exact ⟨t, ht₀, rfl⟩
    · exact ⟨t₀, ht₀, rfl⟩

/-- An edit of one transaction. -/
theorem Edit.Leaves.revised_of_transaction {transaction : Guid}
    (h : Edit.Leaves (.transaction transaction) change s s')
    (hothers : ∀ k ≠ EntityRef.transaction transaction,
      (change s.working).lookup k = s.working.lookup k)
    (hrevision : ∀ t : Transaction, (change s.working).lookup (.transaction transaction) = some t →
      Revision fate (b₀.setEntities s.working) transaction t)
    {g : Guid} {t' : Transaction} (ht' : s'.working.lookup (.transaction g) = some t') :
    Revised fate (b₀.setEntities s.working) s s' g t' := by
  refine h.revised (fun g t ht => ?_) (fun g t hne ht => ?_) ht'
  · by_cases hg : g = transaction
    · subst hg
      exact hrevision t ht
    · rw [hothers _ (by simpa using hg)] at ht
      exact .kept ht
  · exact ⟨t, (hothers _ hne).symm.trans ht, rfl⟩

end Leaves

/-! ### Every edit revises

For each RPC, what its change does to the transactions of the table it is run on. -/

section Calls

variable {fate : Fate} {b₀ : Book} {s s' : EditStore Entity}

/-- **What a call leaves of a transaction.** -/
theorem Mutation.revised {m : Mutation} {edit : Edit m.Response} (hclean : s.Clean)
    (hplan : m.plan fate (b₀.setEntities s.working) = .ok edit) (hends : edit.Ends s s')
    {g : Guid} {t' : Transaction} (ht' : s'.working.lookup (.transaction g) = some t') :
    Revised fate (b₀.setEntities s.working) s s' g t' := by
  cases m with
  | createAccount request =>
    obtain ⟨parent, type, commodity, -, -, -, rfl⟩ := plan_createAccount_ok hplan
    simp only [createAccountEdit] at hends
    have hinsert : ∀ k ≠ EntityRef.account (fate.newGuid 0),
        (s.working.insert (.account (fate.newGuid 0)) Account.blank).lookup k
          = s.working.lookup k := fun k hk => Finmap.lookup_insert_of_ne _ hk
    have hleaves := hends.leaves_inPlace hclean fun k hk => by
      rw [lookup_setAccount_of_not_mem hk]
      exact hinsert k fun heq => hk (Finset.mem_insert.mpr (Or.inl heq))
    -- setting the commodity is the one setter that reaches transactions
    refine hleaves.revised_of_account (fun g t ht => ?_) ht'
    obtain ⟨t₀, ht₀, h⟩ := lookup_setAccount_reround ht
    exact ⟨t₀, (hinsert _ (by simp)).symm.trans ht₀, h.imp id fun heq => ⟨_, heq⟩⟩
  | updateAccount request =>
    -- the same setters, on an account that may have splits
    obtain ⟨account, type, commodity, parent, -, -, -, -, -, -, rfl⟩ := plan_updateAccount_ok hplan
    simp only [updateAccountEdit] at hends
    have hleaves := hends.leaves_inPlace hclean fun k hk => lookup_setAccount_of_not_mem hk
    refine hleaves.revised_of_account (fun g t ht => ?_) ht'
    obtain ⟨t₀, ht₀, h⟩ := lookup_setAccount_reround ht
    exact ⟨t₀, ht₀, h.imp id fun heq => ⟨_, heq⟩⟩
  | deleteAccount request =>
    obtain ⟨account, -, -, -, rfl⟩ := plan_deleteAccount_ok hplan
    have hleaves := hends.leaves_destroy hclean fun k hk => lookup_editAccount_ne _ hk
    refine hleaves.revised_of_account (fun g t ht => ?_) ht'
    exact ⟨t, (lookup_editAccount_ne _ (by simp)).symm.trans ht, Or.inl rfl⟩
  | setReconcileInfo request =>
    obtain ⟨account, _, date, -, -, -, rfl⟩ := plan_setReconcileInfo_ok hplan
    simp only [setReconcileInfoEdit] at hends
    have hleaves := hends.leaves_inPlace hclean fun k hk =>
      lookup_editAccount_ne _ fun heq => hk (Finset.mem_insert.mpr (Or.inl heq))
    refine hleaves.revised_of_account (fun g t ht => ?_) ht'
    exact ⟨t, (lookup_editAccount_ne _ (by simp)).symm.trans ht, Or.inl rfl⟩
  | postTransaction request =>
    obtain ⟨plan, hplanned, rfl⟩ := plan_postTransaction_ok hplan
    simp only [postTransactionEdit] at hends
    have hothers : ∀ k ≠ EntityRef.transaction (fate.newGuid 0),
        (editTransaction (fate.newGuid 0) (applyPlan fate.newGuid (b₀.setEntities s.working) plan)
          (s.working.insert (.transaction (fate.newGuid 0)) Transaction.blank)).lookup k
            = s.working.lookup k := by
      intro k hk
      rw [lookup_editTransaction_ne _ hk, Finmap.lookup_insert_of_ne _ hk]
    have hleaves := hends.leaves_inPlace hclean fun k hk =>
      hothers k fun heq => hk (Finset.mem_insert.mpr (Or.inl heq))
    refine hleaves.revised_of_transaction hothers (fun t ht => ?_) ht'
    rw [editTransaction_of_lookup (Finmap.lookup_insert _), Finmap.lookup_insert] at ht
    obtain rfl := Option.some.inj ht
    -- a plan that begins with a blank transaction
    exact .planned (Or.inl rfl) hplanned
  | updateTransaction request =>
    obtain ⟨transaction, plan, hfind, hplanned, rfl⟩ := plan_updateTransaction_ok hplan
    obtain ⟨-, t₀, ht₀⟩ := findTransaction_ok hfind
    have ht₀ : s.working.lookup (.transaction transaction) = some t₀ := ht₀
    simp only [updateTransactionEdit] at hends
    have hleaves := hends.leaves_inPlace hclean fun k hk =>
      lookup_editTransaction_ne _ fun heq => hk (Finset.mem_insert.mpr (Or.inl heq))
    refine hleaves.revised_of_transaction (fun k hk => lookup_editTransaction_ne _ hk)
      (fun t ht => ?_) ht'
    rw [editTransaction_of_lookup ht₀, Finmap.lookup_insert] at ht
    obtain rfl := Option.some.inj ht
    -- a plan that begins with the stored one
    exact .planned (Or.inr ht₀) hplanned
  | deleteTransaction request =>
    obtain ⟨transaction, hfind, rfl⟩ := plan_deleteTransaction_ok hplan
    obtain ⟨-, t₀, ht₀⟩ := findTransaction_ok hfind
    have ht₀ : s.working.lookup (.transaction transaction) = some t₀ := ht₀
    have hleaves := hends.leaves_destroy hclean fun k hk => lookup_editTransaction_ne _ hk
    refine hleaves.revised_of_transaction (fun k hk => lookup_editTransaction_ne _ hk)
      (fun t ht => ?_) ht'
    rw [editTransaction_of_lookup ht₀, Finmap.lookup_insert] at ht
    obtain rfl := Option.some.inj ht
    exact .destroyed ht₀
  | addPrice request =>
    obtain ⟨_, _, _, _, _, -, -, -, -, -, -, rfl⟩ := plan_addPrice_ok hplan
    obtain ⟨hkeeps, hediting, -⟩ := hends.price_keeps hclean
    exact revised_of_same (hkeeps _ (by simp)) hediting ht'

end Calls

end Daichod
