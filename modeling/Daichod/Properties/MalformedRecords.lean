import Daichod.Journal.Settlement
import Daichod.Reference

/-!
# Daichod.Properties.MalformedRecords

**Recovery on malformed records.** `WasApplied` is meant to answer nothing for a record it
cannot read, so that recovery never resolves one as done. Six of its eight branches keep to
that. The two for deletions take an entity that is not found for one that is gone, and
`GuidExists` finds nothing for a text that is no GUID: a deletion whose request parses but
names no entity is recorded as a success (`wasApplied_malformed`), and nothing else is
(`recovery_conservative_iff`).

## Proof shape

`WasApplied` selects one of three comparisons by the RPC's name. Each is looked at once, for
entries that do not read: `createdExists_ne` and `entityMatches_ne` find nothing there,
`deletedGone_iff` says when a deletion is taken for done. Over the journal, a record is settled as
a success exactly if its own comparison says so.
-/

namespace Daichod

open Reference (undisturbed undisturbed_undisturbed)

section Malformed

variable [Wire] [Engine]

/-- The text by which a pending record names its entity; none where the message it is decided
from does not parse, and where the RPC is unknown. -/
def Journal.PendingEntry.entityGuid (entry : Journal.PendingEntry) : Option String :=
  let rpc := entry.rpcName
  if endsWith rpc "/CreateAccount" then
    (Wire.account.parse entry.pendingResponse).map Shim.Account.guid
  else if endsWith rpc "/UpdateAccount" then
    (Wire.account.parse entry.pendingResponse).map Shim.Account.guid
  else if endsWith rpc "/DeleteAccount" then
    (Wire.deleteAccountRequest.parse entry.requestPayload).map Shim.DeleteAccountRequest.guid
  else if endsWith rpc "/SetReconcileInfo" then
    (Wire.reconcileInfo.parse entry.pendingResponse).map Shim.ReconcileInfo.accountGuid
  else if endsWith rpc "/PostTransaction" then
    (Wire.transaction.parse entry.pendingResponse).map Shim.Transaction.guid
  else if endsWith rpc "/UpdateTransaction" then
    (Wire.transaction.parse entry.pendingResponse).map Shim.Transaction.guid
  else if endsWith rpc "/DeleteTransaction" then
    (Wire.deleteTransactionRequest.parse entry.requestPayload).map
      Shim.DeleteTransactionRequest.guid
  else if endsWith rpc "/AddPrice" then
    (Wire.price.parse entry.pendingResponse).map Shim.Price.guid
  else none

/-- The text is empty, or not a GUID. -/
def NoGuid (text : String) : Prop := text = "" ∨ parseGuid text = none

/-- The record is malformed for its RPC, or its RPC is unknown. -/
def Journal.PendingEntry.Malformed (entry : Journal.PendingEntry) : Prop :=
  ∀ text, entry.entityGuid = some text → NoGuid text

/-- The RPC deletes its entity. -/
def Journal.PendingEntry.Deletes (entry : Journal.PendingEntry) : Prop :=
  endsWith entry.rpcName "/DeleteAccount" ∨ endsWith entry.rpcName "/DeleteTransaction"

/-- A deletion whose request parses but names nothing. -/
def Journal.PendingEntry.DeletesNothing (entry : Journal.PendingEntry) : Prop :=
  entry.Deletes ∧ ∃ text, entry.entityGuid = some text ∧ NoGuid text

/-! ### One record

An entry is malformed if its request does not parse, its response does not, or the GUID in it
names nothing. -/

section Branches

variable {entry : Journal.PendingEntry} {book : Book}

omit [Wire] [Engine] in
/-- Of two suffixes of one name, one is a suffix of the other. -/
theorem endsWith_comparable {rpc s t : String} (hs : endsWith rpc s = true)
    (ht : endsWith rpc t = true) : s.toList <:+ t.toList ∨ t.toList <:+ s.toList :=
  List.suffix_or_suffix_of_suffix (List.isSuffixOf_iff_suffix.mp hs)
    (List.isSuffixOf_iff_suffix.mp ht)

omit [Engine] in
/-- A name with another suffix is no deletion's. -/
theorem not_deletes_of_endsWith {s : String} (hs : endsWith entry.rpcName s = true)
    (hother : ∀ t ∈ ["/DeleteAccount", "/DeleteTransaction"],
      ¬s.toList <:+ t.toList ∧ ¬t.toList <:+ s.toList) : ¬entry.Deletes := by
  intro hdeletes
  rcases hdeletes with h | h
  · obtain ⟨hst, hts⟩ := hother "/DeleteAccount" (by simp)
    rcases endsWith_comparable hs h with h' | h'
    · exact hst h'
    · exact hts h'
  · obtain ⟨hst, hts⟩ := hother "/DeleteTransaction" (by simp)
    rcases endsWith_comparable hs h with h' | h'
    · exact hst h'
    · exact hts h'

omit [Wire] in
/-- No account and no transaction has such a text for a GUID. -/
theorem NoGuid.parseGuid (hempty : Engine.stringToGuid "" = none) {text : String}
    (h : NoGuid text) : parseGuid text = none := by
  rcases h with rfl | h
  · exact hempty
  · exact h

omit [Engine] in
/-- A creation whose GUID does not read is not taken for done. -/
theorem createdExists_ne {α : Type} {codec : Codec Bytes α} {present : α → Option Bool}
    (h : ∀ response, codec.parse entry.pendingResponse = some response →
      present response ≠ some true) : createdExists codec present entry ≠ some true := by
  unfold createdExists
  cases hparse : codec.parse entry.pendingResponse with
  | none => simp
  | some response => exact h response hparse

/-- Nor is a change. -/
theorem entityMatches_ne {α β : Type} {codec : Codec Bytes α} {guid : α → String}
    {find : Guid → Option β} {toProto : Guid → β → α}
    (h : ∀ response, codec.parse entry.pendingResponse = some response →
      parseGuid (guid response) = none) : entityMatches codec guid find toProto entry ≠ some true := by
  unfold entityMatches
  cases hparse : codec.parse entry.pendingResponse with
  | none => simp
  | some response => simp [h response hparse]

omit [Engine] in
/-- A deletion is taken for done if its request reads and its GUID finds nothing. -/
theorem deletedGone_iff {α : Type} {codec : Codec Bytes α} {guid : α → String}
    {found : String → Bool}
    (h : ∀ request, codec.parse entry.requestPayload = some request →
      found (guid request) = false) :
    deletedGone codec guid found entry = some true ↔
      ∃ text, (codec.parse entry.requestPayload).map guid = some text := by
  unfold deletedGone
  cases hparse : codec.parse entry.requestPayload with
  | none => simp
  | some request => simp [h request hparse]

/-- On a malformed record, naming anything is naming nothing. -/
theorem deletesNothing_iff (h : entry.Malformed) (hdeletes : entry.Deletes) :
    entry.DeletesNothing ↔ ∃ text, entry.entityGuid = some text := by
  constructor
  · intro hnothing
    obtain ⟨-, text, htext, -⟩ := hnothing
    exact ⟨text, htext⟩
  · intro hnamed
    obtain ⟨text, htext⟩ := hnamed
    exact ⟨hdeletes, text, htext, h text htext⟩

/-- **The verdict on a malformed record**: a deletion that names nothing counts as applied,
any other record does not. -/
theorem wasApplied_malformed (hempty : Engine.stringToGuid "" = none) (h : entry.Malformed) :
    wasApplied book entry = some true ↔ entry.DeletesNothing := by
  have hnone : ∀ text, entry.entityGuid = some text → parseGuid text = none := fun text htext =>
    (h text htext).parseGuid hempty
  -- A branch that does not delete says no, as its record names no entity.
  have hother : ∀ s, endsWith entry.rpcName s = true → wasApplied book entry ≠ some true →
      (∀ t ∈ ["/DeleteAccount", "/DeleteTransaction"],
        ¬s.toList <:+ t.toList ∧ ¬t.toList <:+ s.toList) →
      (wasApplied book entry = some true ↔ entry.DeletesNothing) := fun s hs hne hapart =>
    iff_of_false hne fun hdeletes => not_deletes_of_endsWith hs hapart hdeletes.1
  unfold Journal.PendingEntry.entityGuid at hnone
  by_cases h₁ : endsWith entry.rpcName "/CreateAccount" = true
  · refine hother _ h₁ ?_ (by decide)
    simp only [wasApplied, h₁, if_true] at hnone ⊢
    refine createdExists_ne fun response hparse => ?_
    simp [accountExists, hnone response.guid (by rw [hparse]; rfl)]
  by_cases h₂ : endsWith entry.rpcName "/UpdateAccount" = true
  · refine hother _ h₂ ?_ (by decide)
    simp only [wasApplied, h₁, h₂, if_true, if_false, Bool.false_eq_true] at hnone ⊢
    exact entityMatches_ne fun response hparse => hnone response.guid (by rw [hparse]; rfl)
  by_cases h₃ : endsWith entry.rpcName "/DeleteAccount" = true
  · rw [deletesNothing_iff h (Or.inl h₃)]
    simp only [wasApplied, Journal.PendingEntry.entityGuid, h₁, h₂, h₃, if_true, if_false,
      Bool.false_eq_true] at hnone ⊢
    refine deletedGone_iff fun request hparse => ?_
    simp [accountExists, hnone request.guid (by rw [hparse]; rfl)]
  by_cases h₄ : endsWith entry.rpcName "/SetReconcileInfo" = true
  · refine hother _ h₄ ?_ (by decide)
    simp only [wasApplied, h₁, h₂, h₃, h₄, if_true, if_false, Bool.false_eq_true] at hnone ⊢
    exact entityMatches_ne fun response hparse => hnone response.accountGuid (by rw [hparse]; rfl)
  by_cases h₅ : endsWith entry.rpcName "/PostTransaction" = true
  · refine hother _ h₅ ?_ (by decide)
    simp only [wasApplied, h₁, h₂, h₃, h₄, h₅, if_true, if_false, Bool.false_eq_true] at hnone ⊢
    refine createdExists_ne fun response hparse => ?_
    simp [transactionExists, hnone response.guid (by rw [hparse]; rfl)]
  by_cases h₆ : endsWith entry.rpcName "/UpdateTransaction" = true
  · refine hother _ h₆ ?_ (by decide)
    simp only [wasApplied, h₁, h₂, h₃, h₄, h₅, h₆, if_true, if_false, Bool.false_eq_true]
      at hnone ⊢
    exact entityMatches_ne fun response hparse => hnone response.guid (by rw [hparse]; rfl)
  by_cases h₇ : endsWith entry.rpcName "/DeleteTransaction" = true
  · rw [deletesNothing_iff h (Or.inr h₇)]
    simp only [wasApplied, Journal.PendingEntry.entityGuid, h₁, h₂, h₃, h₄, h₅, h₆, h₇, if_true,
      if_false, Bool.false_eq_true] at hnone ⊢
    refine deletedGone_iff fun request hparse => ?_
    simp [transactionExists, hnone request.guid (by rw [hparse]; rfl)]
  have hkeeps : ¬entry.Deletes := fun hdeletes => hdeletes.elim h₃ h₇
  by_cases h₈ : endsWith entry.rpcName "/AddPrice" = true
  · refine iff_of_false ?_ fun hdeletes => hkeeps hdeletes.1
    simp only [wasApplied, h₁, h₂, h₃, h₄, h₅, h₆, h₇, h₈, if_true, if_false, Bool.false_eq_true]
      at hnone ⊢
    refine createdExists_ne fun response hparse => ?_
    simp [hnone response.guid (by rw [hparse]; rfl)]
  · refine iff_of_false ?_ fun hdeletes => hkeeps hdeletes.1
    simp only [wasApplied, h₁, h₂, h₃, h₄, h₅, h₆, h₇, h₈, if_false, Bool.false_eq_true]
    nofun

end Branches

/-! ### The whole journal

One start settles every pending record, each by itself. -/

/-- One reconciliation resolves no malformed record; if it returns, each of them has lost its
pending response and is still listed as indeterminate. -/
def Conservative (fate : ReconcileFate) (book : Book) (w : World) : Prop :=
  ∀ row, w.journal.Unresolved row → (Journal.pendingEntry row).Malformed →
    (worldAfter (reconcilePendingMutations fate book w)).journal.resolved row.mutationId = none ∧
    (Returned (reconcilePendingMutations fate book w) →
      (worldAfter (reconcilePendingMutations fate book w)).journal.intent row.mutationId
          = some { row with pendingResponse := none } ∧
        { row with pendingResponse := none } ∈
          (worldAfter (reconcilePendingMutations fate book w)).journal.listIndeterminate)

/-- **Recovery is conservative exactly where no unresolved deletion names nothing.** -/
theorem recovery_conservative_iff (hempty : Engine.stringToGuid "" = none) (book : Book)
    (w : World) :
    (∀ fate, Conservative fate book w) ↔
      ∀ row, w.journal.Unresolved row → ¬(Journal.pendingEntry row).DeletesNothing := by
  constructor
  · intro h row hrow hnothing
    have hmalformed : (Journal.pendingEntry row).Malformed := by
      intro text htext
      obtain ⟨-, text', htext', hno⟩ := hnothing
      rw [htext] at htext'
      exact Option.some.inj htext' ▸ hno
    -- Left alone, the reconciliation gets to the row and records it.
    have hreturned := Journal.reconcile_undisturbed undisturbed_undisturbed book w
    obtain ⟨r, hr, -, hsettled⟩ := Journal.reconcile_row hrow undisturbed book
    have hverdict : wasApplied book (Journal.pendingEntry row) = some true :=
      (wasApplied_malformed hempty hmalformed).mpr hnothing
    have happlied := Journal.settle_applied (r := ⟨row, none⟩) ⟨rfl, hrow.2.2⟩ hverdict
    rw [hsettled hreturned, happlied] at hr
    have hout := (Journal.mem_records.mp hr).2
    rw [(h undisturbed row hrow hmalformed).1] at hout
    cases hout
  · intro h fate row hrow hmalformed
    have hverdict : wasApplied book (Journal.pendingEntry row) ≠ some true := fun happlied =>
      h row hrow ((wasApplied_malformed hempty hmalformed).mp happlied)
    have hcleared := Journal.settle_cleared (r := ⟨row, none⟩) ⟨rfl, hrow.2.2⟩ hverdict
    obtain ⟨r, hr, hcases, hsettled⟩ := Journal.reconcile_row hrow fate book
    rw [hcleared] at hcases hsettled
    obtain ⟨hmem, hout⟩ := Journal.mem_records.mp hr
    have hnone : (worldAfter (reconcilePendingMutations fate book w)).journal.resolved
        row.mutationId = none := by
      rcases hcases with rfl | rfl
      · exact Option.map_eq_none_iff.mp hout.symm
      · exact Option.map_eq_none_iff.mp hout.symm
    refine ⟨hnone, fun hreturned => ?_⟩
    rw [hsettled hreturned] at hmem
    exact ⟨Journal.intent_eq_some.mpr ⟨hmem, rfl⟩,
      Journal.mem_listIndeterminate.mpr ⟨hmem, hnone⟩⟩

end Malformed

section Resent

open Reference

attribute [local instance] Reference.engine Reference.wire

/-- `DeleteAccount` without a GUID. -/
def deleteNothing : Mutation := .deleteAccount ⟨⟨mutationId '1'⟩, ""⟩

/-- `CreateAccount` under the same mutation id. -/
def createUnderIt : Mutation :=
  .createAccount ⟨⟨mutationId '1'⟩, ⟨"", some (guidToString 1), "Rent", .expense,
    some ⟨"CURRENCY", "USD"⟩, "", "", false, false⟩⟩

/-- The refusal of the deletion could not be recorded; the creation that was then sent under
its mutation id was killed ahead of its commit, with its response on the deletion's row. -/
def resentUnderDelete : World :=
  (started.run [.mutate deleteNothing { calm 16 with recordOutcomeFault := some diskFull },
    .mutate createUnderIt { calm 16 with crashAt := some .afterPending }]).world

/-- The next start records the deletion of nothing as a success. -/
theorem resentUnderDelete_recorded :
    ¬Conservative undisturbed resentUnderDelete.book resentUnderDelete ∧
      (worldAfter (reconcilePendingMutations undisturbed resentUnderDelete.book
        resentUnderDelete)).journal.RecordedOk (mutationId '1') := by
  have hrecorded : (worldAfter (reconcilePendingMutations undisturbed resentUnderDelete.book
      resentUnderDelete)).journal.RecordedOk (mutationId '1') := by decide +kernel
  have hnone : (resentUnderDelete.journal.resolved (mutationId '1')).isNone = true := by
    decide +kernel
  have hrow : (resentUnderDelete.journal.intent (mutationId '1')).map (fun row =>
      ((Journal.pendingEntry row).entityGuid, row.pendingResponse.isSome)) = some (some "", true) := by
    decide +kernel
  obtain ⟨row, hintent, hcolumns⟩ := Option.map_eq_some_iff.mp hrow
  obtain ⟨hguid, hpending⟩ := Prod.mk.inj hcolumns
  obtain ⟨hmem, hid⟩ := Journal.intent_eq_some.mp hintent
  have hunresolved : resentUnderDelete.journal.Unresolved row :=
    ⟨hmem, by rw [hid]; exact Option.isNone_iff_eq_none.mp hnone,
      Option.isSome_iff_ne_none.mp hpending⟩
  have hmalformed : (Journal.pendingEntry row).Malformed := by
    intro text htext
    rw [hguid] at htext
    exact Or.inl (Option.some.inj htext).symm
  refine ⟨fun h => hrecorded.resolved_ne_none ?_, hrecorded⟩
  rw [← hid]
  exact (h row hunresolved hmalformed).1

/-- A post that was killed ahead of its commit, with its response on its own row. -/
def pendingPost : World :=
  (started.run [.mutate (post '1' 100) { calm 16 with crashAt := some .afterPending }]).world

/-- The post's row is unresolved, and it deletes nothing. -/
theorem pendingPost_unresolved :
    (∃ row, pendingPost.journal.Unresolved row) ∧
      ∀ row, pendingPost.journal.Unresolved row → ¬(Journal.pendingEntry row).DeletesNothing := by
  have hnames : pendingPost.journal.listPendingUnresolved.map (fun row =>
      (endsWith row.rpcName "/DeleteAccount", endsWith row.rpcName "/DeleteTransaction"))
        = [(false, false)] := by decide +kernel
  have hnot : ∀ row, pendingPost.journal.Unresolved row →
      endsWith row.rpcName "/DeleteAccount" = false ∧
        endsWith row.rpcName "/DeleteTransaction" = false := by
    intro row hrow
    have hmem := List.mem_map_of_mem (f := fun row : Intent =>
      (endsWith row.rpcName "/DeleteAccount", endsWith row.rpcName "/DeleteTransaction"))
      (Journal.mem_listPendingUnresolved.mpr hrow)
    rw [hnames, List.mem_singleton] at hmem
    exact Prod.mk.inj hmem
  refine ⟨?_, fun row hrow hnothing => ?_⟩
  · obtain ⟨row, rest, hrows, -⟩ := List.map_eq_cons_iff.mp hnames
    exact ⟨row, Journal.mem_listPendingUnresolved.mp (by rw [hrows]; exact List.mem_cons_self)⟩
  · obtain ⟨haccount, htransaction⟩ := hnot row hrow
    rcases hnothing.1 with hdeletes | hdeletes
    · exact Bool.false_ne_true (haccount.symm.trans hdeletes)
    · exact Bool.false_ne_true (htransaction.symm.trans hdeletes)

/-- At the journal of the failing run, and at one whose pending row is harmless. -/
theorem recovery_conservative_iff_resent :
    ((∀ fate, Conservative fate resentUnderDelete.book resentUnderDelete) ↔
      ∀ row, resentUnderDelete.journal.Unresolved row →
        ¬(Journal.pendingEntry row).DeletesNothing) ∧
    ∀ fate, Conservative fate pendingPost.book pendingPost :=
  ⟨recovery_conservative_iff (by decide) resentUnderDelete.book resentUnderDelete,
    (recovery_conservative_iff (by decide) pendingPost.book pendingPost).mpr
      pendingPost_unresolved.2⟩

end Resent

end Daichod
