import Daichod.Engine.Session
import Daichod.Journal.Journal

/-!
# Daichod.Journal.Recovery

Startup reconciliation (`journal/recovery.cpp`): for every intent that reached its pending
record and has no outcome, decide from the book whether the engine commit happened
(`wasApplied`), and record the outcome or drop the pending record accordingly.

Reconciliation is a loop of single journal writes, and the process can die between any two
of them; `ReconcileFate.killBefore` says before which.
-/

namespace Daichod

variable [Wire] [Engine]

/-- `string_to_guid(text.c_str(), …)`. -/
def parseGuid (text : String) : Option Guid := Engine.stringToGuid (cStr text)

/-- `GuidExists` for accounts. -/
def accountExists (book : Book) (guid : String) : Bool :=
  match parseGuid guid with
  | none => false
  | some parsed => (book.account parsed).isSome

/-- `GuidExists` for transactions. -/
def transactionExists (book : Book) (guid : String) : Bool :=
  match parseGuid guid with
  | none => false
  | some parsed => (book.transaction parsed).isSome

/-- The `ends_with` of `WasApplied`. -/
def endsWith (rpc suffix : String) : Bool := suffix.toList.isSuffixOf rpc.toList

/-- `WasApplied` for the RPCs that create an entity: does the response's entity exist? -/
def createdExists {α : Type} (codec : Codec Bytes α) (present : α → Option Bool)
    (entry : Journal.PendingEntry) : Option Bool :=
  match codec.parse entry.pendingResponse with
  | none => none
  | some response => present response

/-- `WasApplied` for the RPCs that change an entity: does it serialize to the recorded
response? -/
def entityMatches {α β : Type} (codec : Codec Bytes α) (guid : α → String)
    (find : Guid → Option β) (toProto : Guid → β → α) (entry : Journal.PendingEntry) :
    Option Bool :=
  match codec.parse entry.pendingResponse with
  | none => none
  | some response =>
    match parseGuid (guid response) with
    | none => none
    | some parsed =>
      match find parsed with
      | none => none
      | some entity => some (codec.serialize (toProto parsed entity) == entry.pendingResponse)

/-- `WasApplied` for the RPCs that delete an entity: is the request's entity gone? -/
def deletedGone {α : Type} (codec : Codec Bytes α) (guid : α → String) (found : String → Bool)
    (entry : Journal.PendingEntry) : Option Bool :=
  match codec.parse entry.requestPayload with
  | none => none
  | some request => some (!found (guid request))

/-- `WasApplied`. `none` means the record is malformed. -/
def wasApplied (book : Book) (entry : Journal.PendingEntry) : Option Bool :=
  let rpc := entry.rpcName
  if endsWith rpc "/CreateAccount" then
    createdExists Wire.account (fun response => some (accountExists book response.guid)) entry
  else if endsWith rpc "/UpdateAccount" then
    entityMatches Wire.account Shim.Account.guid book.account accountToProto entry
  else if endsWith rpc "/DeleteAccount" then
    deletedGone Wire.deleteAccountRequest Shim.DeleteAccountRequest.guid (accountExists book) entry
  else if endsWith rpc "/SetReconcileInfo" then
    entityMatches Wire.reconcileInfo Shim.ReconcileInfo.accountGuid book.account
      (reconcileInfoToProto book) entry
  else if endsWith rpc "/PostTransaction" then
    createdExists Wire.transaction (fun response => some (transactionExists book response.guid))
      entry
  else if endsWith rpc "/UpdateTransaction" then
    entityMatches Wire.transaction Shim.Transaction.guid book.transaction transactionToProto entry
  else if endsWith rpc "/DeleteTransaction" then
    deletedGone Wire.deleteTransactionRequest Shim.DeleteTransactionRequest.guid
      (transactionExists book) entry
  else if endsWith rpc "/AddPrice" then
    createdExists Wire.price (fun response =>
      (parseGuid response.guid).map fun parsed => (book.price parsed).isSome) entry
  else none

/-! ### The loop -/

/-- The surroundings of one reconciliation. Its journal writes are numbered from `0`. -/
structure ReconcileFate where
  /-- `std::time`. -/
  now : Int64
  listFault : Option SqliteError
  writeFault : ℕ → Option SqliteError
  /-- The write before which the process is killed; the number of writes means after the
  last. -/
  killBefore : Option ℕ

/-- The process lives and SQLite works. -/
structure ReconcileFate.Undisturbed (fate : ReconcileFate) : Prop where
  list : fate.listFault = none
  write : ∀ i, fate.writeFault i = none
  alive : fate.killBefore = none

/-- The outcome recorded for a pending mutation that turns out to be applied. -/
def recoveredOutcome (entry : Journal.PendingEntry) : Outcome Bytes :=
  { rpcName := entry.rpcName, ok := true, response := some entry.pendingResponse, error := none }

/-- One round of the loop; true when the entry counts as applied. -/
def reconcileEntry (fate : ReconcileFate) (book : Book) (i : ℕ) (entry : Journal.PendingEntry) :
    Exec Bool := do
  if fate.killBefore = some i then throw .killed
  if wasApplied book entry = some true then
    Journal.recordOutcome (fate.writeFault i) entry.mutationId (recoveredOutcome entry) fate.now
    return true
  else
    Journal.clearPending (fate.writeFault i) entry.mutationId
    return false

/-- The loop, from the `i`-th write on, with the number of applied entries so far. -/
def reconcileEntries (fate : ReconcileFate) (book : Book) :
    ℕ → ℕ → List Journal.PendingEntry → Exec ℕ
  | i, appliedCount, [] => do
    if fate.killBefore = some i then throw .killed
    return appliedCount
  | i, appliedCount, entry :: entries => do
    let applied ← reconcileEntry fate book i entry
    reconcileEntries fate book (i + 1) (if applied then appliedCount + 1 else appliedCount) entries

/-- `Journal::ListPendingUnresolved`. -/
def Journal.pendingUnresolved (fault : Option SqliteError) : Exec (List Journal.PendingEntry) :=
  Journal.statement fault do
    return (← get).journal.listPendingUnresolved.map Journal.pendingEntry

/-- `ReconcilePendingMutations`. -/
def reconcilePendingMutations (fate : ReconcileFate) (book : Book) : Exec ℕ := do
  let entries ← Journal.pendingUnresolved fate.listFault
  reconcileEntries fate book 0 0 entries

/-! ### What a reconciliation leaves -/

/-- Reconciling entries one after the other takes the first journal to the second. -/
inductive Journal.Reconciled (book : Book) (now : Int64) :
    List Journal.PendingEntry → Journal → Journal → Prop
  | nil (j : Journal) : Reconciled book now [] j j
  | applied {j j₁ j₂ : Journal} {entry : Journal.PendingEntry}
      {entries : List Journal.PendingEntry} (hverdict : wasApplied book entry = some true)
      (hj : j.insertApplied
        (Journal.outcomeRow entry.mutationId (recoveredOutcome entry) now) = some j₁)
      (hrest : Reconciled book now entries j₁ j₂) : Reconciled book now (entry :: entries) j j₂
  | cleared {j j₂ : Journal} {entry : Journal.PendingEntry}
      {entries : List Journal.PendingEntry} (hverdict : wasApplied book entry ≠ some true)
      (hrest : Reconciled book now entries (j.updatePending entry.mutationId none) j₂) :
      Reconciled book now (entry :: entries) j j₂

section Reconciled

variable {book : Book} {now : Int64} {entries : List Journal.PendingEntry} {j j' : Journal}

/-- Only the entries handed to it get an outcome. -/
theorem Journal.Reconciled.recordedOk (h : Journal.Reconciled book now entries j j') {id : String}
    (hok : j'.RecordedOk id) : j.RecordedOk id ∨ ∃ entry ∈ entries, entry.mutationId = id := by
  induction h with
  | nil j => exact Or.inl hok
  | @applied j j₁ j₂ entry entries hverdict hj hrest ih =>
    rcases ih hok with h | ⟨entry', hmem, hid⟩
    · rw [Journal.recordedOk_insertApplied hj] at h
      by_cases hid : entry.mutationId = id
      · exact Or.inr ⟨entry, List.mem_cons_self, hid⟩
      · rw [if_neg hid] at h
        exact Or.inl h
    · exact Or.inr ⟨entry', List.mem_cons_of_mem _ hmem, hid⟩
  | @cleared j j₂ entry entries hverdict hrest ih =>
    rcases ih hok with h | ⟨entry', hmem, hid⟩
    · exact Or.inl ((Journal.recordedOk_congr fun _ => Journal.resolved_updatePending ..).mp h)
    · exact Or.inr ⟨entry', List.mem_cons_of_mem _ hmem, hid⟩

/-- It leaves no new unresolved record. -/
theorem Journal.Reconciled.unresolved (h : Journal.Reconciled book now entries j j') {row : Intent}
    (hrow : j'.Unresolved row) : j.Unresolved row := by
  induction h with
  | nil j => exact hrow
  | applied hverdict hj hrest ih => exact ((Journal.unresolved_insertApplied hj).mp (ih hrow)).2
  | cleared hverdict hrest ih =>
    rcases Journal.unresolved_updatePending (ih hrow) with ⟨-, h⟩ | ⟨old, -, -, -, hnone, -⟩
    · exact h
    · exact absurd rfl hnone

end Reconciled

/-- Did the task return? -/
def Returned {α : Type} : EStateM.Result Exn World α → Prop
  | .ok _ _ => True
  | .error _ _ => False

section Loop

variable {fate : ReconcileFate} {book : Book}

/-- One round either stops the loop and changes nothing, or settles its entry. -/
theorem reconcileEntry_cases (fate : ReconcileFate) (book : Book) (i : ℕ) (entry : Journal.PendingEntry) (w : World) :
    (∃ e, reconcileEntry fate book i entry w = .error e w) ∨
    (∃ j, wasApplied book entry = some true ∧
      w.journal.insertApplied
        (Journal.outcomeRow entry.mutationId (recoveredOutcome entry) fate.now) = some j ∧
      reconcileEntry fate book i entry w = .ok true (w.setJournal j)) ∨
    (wasApplied book entry ≠ some true ∧ reconcileEntry fate book i entry w
      = .ok false (w.setJournal (w.journal.updatePending entry.mutationId none))) := by
  unfold reconcileEntry
  by_cases hkill : fate.killBefore = some i
  · exact Or.inl ⟨.killed, by simp [hkill]; rfl⟩
  by_cases hverdict : wasApplied book entry = some true
  · simp only [hkill, hverdict, if_false, if_true]
    rcases Journal.recordOutcome_ran (w := w) entry.mutationId (fate.writeFault i)
      (recoveredOutcome entry) fate.now with ⟨e, hrun⟩ | ⟨j, hj, hrun⟩
    · exact Or.inl ⟨e, run_bind_error hrun⟩
    · exact Or.inr (Or.inl ⟨j, trivial, hj, run_bind_ok hrun⟩)
  · simp only [hkill, hverdict, if_false]
    rcases Journal.clearPending_ran (w := w) entry.mutationId (fate.writeFault i) with
      ⟨e, hrun⟩ | hrun
    · exact Or.inl ⟨e, run_bind_error hrun⟩
    · exact Or.inr (Or.inr ⟨hverdict, run_bind_ok hrun⟩)

/-- The loop settles its entries in order, up to where it is stopped. -/
theorem reconcileEntries_ran (entries : List Journal.PendingEntry) (i n : ℕ) (w : World) :
    ∃ settled rest j, entries = settled ++ rest ∧
      Journal.Reconciled book fate.now settled w.journal j ∧
      worldAfter (reconcileEntries fate book i n entries w) = w.setJournal j ∧
      (Returned (reconcileEntries fate book i n entries w) → rest = []) := by
  induction entries generalizing i n w with
  | nil =>
    refine ⟨[], [], w.journal, rfl, .nil _, ?_, fun _ => rfl⟩
    unfold reconcileEntries
    by_cases hkill : fate.killBefore = some i
    · rw [if_pos hkill]
      rfl
    · rw [if_neg hkill]
      rfl
  | cons entry entries ih =>
    unfold reconcileEntries
    rcases reconcileEntry_cases fate book i entry w with
      ⟨e, hrun⟩ | ⟨j, hverdict, hj, hrun⟩ | ⟨hverdict, hrun⟩
    · rw [run_bind_error hrun]
      exact ⟨[], entry :: entries, w.journal, rfl, .nil _, rfl, fun h => h.elim⟩
    · rw [run_bind_ok hrun]
      obtain ⟨settled, rest, j', rfl, hrec, hworld, hret⟩ := ih (i + 1) (n + 1) (w.setJournal j)
      exact ⟨entry :: settled, rest, j', rfl, .applied hverdict hj hrec, hworld, hret⟩
    · rw [run_bind_ok hrun]
      obtain ⟨settled, rest, j', rfl, hrec, hworld, hret⟩ :=
        ih (i + 1) n (w.setJournal (w.journal.updatePending entry.mutationId none))
      exact ⟨entry :: settled, rest, j', rfl, .cleared hverdict hrec, hworld, hret⟩

/-- A reconciliation settles the unresolved records in order, up to where it is stopped. -/
theorem reconcilePendingMutations_ran (fate : ReconcileFate) (book : Book) (w : World) :
    ∃ settled rest j,
      w.journal.listPendingUnresolved.map Journal.pendingEntry = settled ++ rest ∧
      Journal.Reconciled book fate.now settled w.journal j ∧
      worldAfter (reconcilePendingMutations fate book w) = w.setJournal j ∧
      (Returned (reconcilePendingMutations fate book w) → rest = []) := by
  unfold reconcilePendingMutations
  cases hfault : fate.listFault with
  | some e =>
    have hrun : Journal.pendingUnresolved (some e) w
        = .error (.shim ⟨.engineError, "journal: " ++ e.message, e.context⟩) w := rfl
    rw [run_bind_error hrun]
    exact ⟨[], _, w.journal, rfl, .nil _, rfl, fun h => h.elim⟩
  | none =>
    have hrun : Journal.pendingUnresolved none w
        = .ok (w.journal.listPendingUnresolved.map Journal.pendingEntry) w := rfl
    rw [run_bind_ok hrun]
    exact reconcileEntries_ran _ 0 0 w

end Loop

end Daichod
