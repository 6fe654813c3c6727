import Daichod.Journal.Recovery
import Daichod.Library.Sweep

/-!
# Daichod.Journal.Settlement

Reconciliation row by row. What it makes of a row of `intents` and of the outcome beside it
is a function of the two and of the book (`Record.settle`), up to the time in the `applied`
row; settling a row twice is settling it once. The loop of single writes is then a sweep:
stopped anywhere it has settled some of the records (`reconcile_partly`), and returning it
has settled all of them (`reconcile_complete`).
-/

namespace Daichod.Journal

variable [Wire]

/-- A row of `intents` beside the outcome on record for it, without the time. -/
structure Record where
  intent : Intent
  outcome : Option Bytes

/-- The `intents` rows in order, each with its outcome (`intents LEFT JOIN applied`). -/
def records (j : Journal) : List Record :=
  j.intents.map fun row => ⟨row, (j.resolved row.mutationId).map Applied.outcome⟩

/-- Is the record one that `ListPendingUnresolved` selects? -/
def Record.Pending (r : Record) : Prop := r.outcome = none ∧ r.intent.pendingResponse ≠ none

instance (r : Record) : Decidable r.Pending := inferInstanceAs (Decidable (_ ∧ _))

variable [Engine]

/-- What reconciliation against `book` makes of a record. -/
def Record.settle (book : Book) (r : Record) : Record :=
  if r.Pending then
    if wasApplied book (pendingEntry r.intent) = some true then
      { r with outcome := some (Wire.outcome.serialize (recoveredOutcome (pendingEntry r.intent))) }
    else { r with intent := { r.intent with pendingResponse := none } }
  else r

/-! ### Records

A record is a row of `intents` with the outcome beside it, which is all that reconciliation looks
at of the journal. -/

section Records

variable {j j' : Journal} {book : Book} {r : Record} {row : Intent}

omit [Engine] in
/-- The records of a journal are its intents, each with what is on record for its id. -/
theorem mem_records : r ∈ j.records ↔
    r.intent ∈ j.intents ∧ r.outcome = (j.resolved r.intent.mutationId).map Applied.outcome := by
  simp only [records, List.mem_map]
  constructor
  · intro h
    obtain ⟨row, hrow, rfl⟩ := h
    exact ⟨hrow, rfl⟩
  · intro h
    obtain ⟨hrow, hout⟩ := h
    exact ⟨r.intent, hrow, by rw [← hout]⟩

omit [Engine] in
/-- A record is pending when its row is unresolved. -/
theorem pending_iff (h : r ∈ j.records) : r.Pending ↔ j.Unresolved r.intent := by
  obtain ⟨hrow, hout⟩ := mem_records.mp h
  simp only [Record.Pending, Unresolved, hout, Option.map_eq_none_iff, hrow, true_and]

omit [Engine] in
/-- The rows and their order are part of the records. -/
theorem intents_eq (h : j.records = j'.records) : j.intents = j'.intents := by
  have hmap : j.records.map Record.intent = j'.records.map Record.intent := by rw [h]
  simpa [records, List.map_map, Function.comp_def] using hmap

omit [Engine] in
/-- So are the outcomes, of every mutation there is. -/
theorem outcome_eq (h : j.records = j'.records) (id : String) :
    (j.resolved id).map Applied.outcome = (j'.resolved id).map Applied.outcome := by
  have hintents := intents_eq h
  cases hrow : j.intent id with
  | none =>
    -- No row of `applied` refers to a mutation without an intent.
    have hnone : ∀ {k : Journal}, k.intent id = none → k.resolved id = none := by
      intro k hk
      cases hres : k.resolved id with
      | none => rfl
      | some a =>
        obtain ⟨i, hi⟩ := intent_isSome_of_resolved hres
        rw [hk] at hi
        cases hi
    have hrow' : j'.intent id = none := by rw [intent, ← hintents]; exact hrow
    rw [hnone hrow, hnone hrow']
  | some row =>
    obtain ⟨hmem, hid⟩ := intent_eq_some.mp hrow
    have hrec : (⟨row, (j.resolved row.mutationId).map Applied.outcome⟩ : Record) ∈ j'.records := by
      rw [← h]
      exact mem_records.mpr ⟨hmem, rfl⟩
    have hout := (mem_records.mp hrec).2
    rwa [hid] at hout

omit [Engine] in
/-- And what `ListIndeterminate` answers. -/
theorem listIndeterminate_eq (h : j.records = j'.records) :
    j.listIndeterminate = j'.listIndeterminate := by
  have hnone : ∀ row : Intent, (j.resolved row.mutationId).isNone
      = (j'.resolved row.mutationId).isNone := by
    intro row
    have hout := outcome_eq h row.mutationId
    cases hres : j.resolved row.mutationId with
    | none =>
      rw [hres] at hout
      rw [Option.map_eq_none_iff.mp hout.symm]
    | some a =>
      rw [hres] at hout
      obtain ⟨b, hb, -⟩ := Option.map_eq_some_iff.mp hout.symm
      rw [hb]
      rfl
  simp only [listIndeterminate, intents_eq h, hnone]

/-! ### Settling one record

A record is settled by what the book says of its pending response: a response that is in the book
becomes the outcome, any other is dropped. -/

/-- There is nothing to settle about a record with an outcome, or with no pending response. -/
theorem settle_of_not_pending (h : ¬r.Pending) : r.settle book = r := if_neg h

/-- The book has the response: it is recorded as the outcome. -/
theorem settle_applied (h : r.Pending)
    (happlied : wasApplied book (pendingEntry r.intent) = some true) :
    r.settle book = { r with
      outcome := some (Wire.outcome.serialize (recoveredOutcome (pendingEntry r.intent))) } := by
  rw [Record.settle, if_pos h, if_pos happlied]

/-- The book has it not: the pending response is dropped, and the id stays unresolved. -/
theorem settle_cleared (h : r.Pending)
    (hnot : wasApplied book (pendingEntry r.intent) ≠ some true) :
    r.settle book = { r with intent := { r.intent with pendingResponse := none } } := by
  rw [Record.settle, if_pos h, if_neg hnot]

/-- A settled record is not pending. -/
theorem settle_not_pending (book : Book) (r : Record) : ¬(r.settle book).Pending := by
  by_cases h : r.Pending
  · by_cases happlied : wasApplied book (pendingEntry r.intent) = some true
    · rw [settle_applied h happlied]
      intro hpending
      cases hpending.1
    · rw [settle_cleared h happlied]
      intro hpending
      exact hpending.2 rfl
  · rw [settle_of_not_pending h]
    exact h

/-- **Settling twice is settling once.** -/
theorem settle_settle (book : Book) (r : Record) : (r.settle book).settle book = r.settle book :=
  settle_of_not_pending (settle_not_pending book r)

/-- Settling keeps the id. -/
@[simp] theorem settle_mutationId (book : Book) (r : Record) :
    (r.settle book).intent.mutationId = r.intent.mutationId := by
  by_cases h : r.Pending
  · by_cases happlied : wasApplied book (pendingEntry r.intent) = some true
    · rw [settle_applied h happlied]
    · rw [settle_cleared h happlied]
  · rw [settle_of_not_pending h]

end Records

/-! ### The writes of the loop

The loop writes one row at a time. Each write settles its own record and leaves the others, so
after any number of them some records are settled and the rest are as they were. -/

section Writes

variable {book : Book} {now : Int64} {j j' : Journal} {row : Intent} {rows : List Intent}

omit [Engine] in
/-- A mutation has one row. -/
theorem row_unique {other : Intent} (hother : other ∈ j.intents) (hrow : row ∈ j.intents)
    (hid : other.mutationId = row.mutationId) : other = row := by
  have h : j.intent row.mutationId = some other := intent_eq_some.mpr ⟨hother, hid⟩
  rw [intent_eq_some.mpr ⟨hrow, rfl⟩] at h
  exact (Option.some.inj h).symm

/-- Recording the outcome of an applied row settles its record and no other. -/
theorem records_applied (hrow : j.Unresolved row)
    (happlied : wasApplied book (pendingEntry row) = some true)
    (hj : j.insertApplied
      (outcomeRow (pendingEntry row).mutationId (recoveredOutcome (pendingEntry row)) now)
        = some j') :
    j'.records = j.records.map fun r =>
      if r.intent.mutationId = row.mutationId then r.settle book else r := by
  have hintents : j'.intents = j.intents := (insertApplied_eq_some.mp hj).2.2.1
  unfold records
  rw [hintents, List.map_map]
  refine List.map_congr_left fun other hother => ?_
  rw [resolved_insertApplied hj]
  simp only [Function.comp]
  by_cases hid : other.mutationId = row.mutationId
  · obtain rfl := row_unique hother hrow.1 hid
    have hpending : (⟨other, (j.resolved other.mutationId).map Applied.outcome⟩ : Record).Pending :=
      (pending_iff (mem_records.mpr ⟨hother, rfl⟩)).mpr hrow
    rw [if_pos rfl, settle_applied hpending happlied]
    simp [outcomeRow, pendingEntry]
  · simp only [outcomeRow, pendingEntry, hid, Ne.symm hid, if_false]

/-- Clearing a row that was not applied settles its record and no other. -/
theorem records_cleared (hrow : j.Unresolved row)
    (hnot : wasApplied book (pendingEntry row) ≠ some true) :
    (j.updatePending row.mutationId none).records = j.records.map fun r =>
      if r.intent.mutationId = row.mutationId then r.settle book else r := by
  unfold records
  rw [intents_updatePending, List.map_map, List.map_map]
  refine List.map_congr_left fun other hother => ?_
  simp only [Function.comp, resolved_updatePending]
  by_cases hid : other.mutationId = row.mutationId
  · obtain rfl := row_unique hother hrow.1 hid
    have hpending : (⟨other, (j.resolved other.mutationId).map Applied.outcome⟩ : Record).Pending :=
      (pending_iff (mem_records.mpr ⟨hother, rfl⟩)).mpr hrow
    rw [if_pos rfl, if_pos rfl, settle_cleared hpending hnot]
  · rw [if_neg hid, if_neg hid]

omit [Engine] in
/-- Dropping one row's pending response leaves another row to be settled. -/
theorem unresolved_updatePending_of_ne {id : String} {p : Option Bytes} {r : Intent}
    (hid : r.mutationId ≠ id) (h : j.Unresolved r) : (j.updatePending id p).Unresolved r := by
  obtain ⟨hmem, hnone, hpending⟩ := h
  refine ⟨?_, hnone, hpending⟩
  rw [intents_updatePending]
  exact List.mem_map.mpr ⟨r, hmem, if_neg hid⟩

/-- **The loop**: the records of the rows it was handed are settled, the others are as they
were. -/
theorem Reconciled.records (h : Reconciled book now (rows.map pendingEntry) j j')
    (hrows : ∀ row ∈ rows, j.Unresolved row) (hnodup : (rows.map Intent.mutationId).Nodup) :
    j'.records = j.records.map fun r =>
      if r.intent.mutationId ∈ rows.map Intent.mutationId then r.settle book else r := by
  induction rows generalizing j with
  | nil =>
    cases h
    simp
  | cons row rows ih =>
    obtain ⟨hnew, hnodup⟩ := List.nodup_cons.mp hnodup
    have hne : ∀ other ∈ rows, other.mutationId ≠ row.mutationId := fun other hother heq =>
      hnew (List.mem_map.mpr ⟨other, hother, heq⟩)
    -- Settling the first row and then the others settles each of them once.
    have hcombine : ∀ k : Journal, k.records = (j.records.map fun r =>
        if r.intent.mutationId = row.mutationId then r.settle book else r) →
        (k.records.map fun r =>
          if r.intent.mutationId ∈ rows.map Intent.mutationId then r.settle book else r)
        = j.records.map fun r => if r.intent.mutationId ∈ (row :: rows).map Intent.mutationId then
            r.settle book else r := by
      intro k hk
      rw [hk, List.map_map]
      refine List.map_congr_left fun r _ => ?_
      simp only [Function.comp, List.map_cons, List.mem_cons]
      by_cases hid : r.intent.mutationId = row.mutationId
      · rw [if_pos hid, settle_mutationId, hid, if_neg hnew, if_pos (Or.inl rfl)]
      · rw [if_neg hid]
        simp only [hid, false_or]
    rw [List.map_cons] at h
    cases h with
    | applied hverdict hj hrest =>
      have hfirst := records_applied (hrows row List.mem_cons_self) hverdict hj
      rw [ih hrest (fun other hother => (unresolved_insertApplied hj).mpr
        ⟨hne other hother, hrows other (List.mem_cons_of_mem _ hother)⟩) hnodup]
      exact hcombine _ hfirst
    | cleared hverdict hrest =>
      have hfirst := records_cleared (hrows row List.mem_cons_self) hverdict
      rw [ih hrest (fun other hother => unresolved_updatePending_of_ne (hne other hother)
        (hrows other (List.mem_cons_of_mem _ hother))) hnodup]
      exact hcombine _ hfirst

end Writes

/-! ### Reconciliations

The whole loop, stopped where it may. Settling a record twice is settling it once, so a
reconciliation may be cut short and run again. -/

section Reconciliations

variable {book : Book} {fate : ReconcileFate} {w : World}

/-- What a reconciliation has settled when it stops: the first of the unresolved rows. -/
theorem reconcile_settled (fate : ReconcileFate) (book : Book) (w : World) :
    ∃ rows rest j, w.journal.listPendingUnresolved = rows ++ rest ∧
      (j.records = w.journal.records.map fun r =>
        if r.intent.mutationId ∈ rows.map Intent.mutationId then r.settle book else r) ∧
      worldAfter (reconcilePendingMutations fate book w) = w.setJournal j ∧
      (Returned (reconcilePendingMutations fate book w) → rest = []) := by
  obtain ⟨settled, rest, j, hsplit, hrec, hworld, hret⟩ := reconcilePendingMutations_ran fate book w
  obtain ⟨rows, rest', hlist, rfl, rfl⟩ := List.map_eq_append_iff.mp hsplit
  have hrows : ∀ row ∈ rows, w.journal.Unresolved row := fun row hrow =>
    mem_listPendingUnresolved.mp (hlist ▸ List.mem_append_left _ hrow)
  have hnodup : (rows.map Intent.mutationId).Nodup := by
    have hall := w.journal.listPendingUnresolved_ids_nodup
    rw [hlist, List.map_append] at hall
    exact (List.nodup_append.mp hall).1
  exact ⟨rows, rest', j, hlist, hrec.records hrows hnodup, hworld,
    fun h => List.map_eq_nil_iff.mp (hret h)⟩

/-- **Stopped anywhere, a reconciliation has settled some of the records.** -/
theorem reconcile_partly (fate : ReconcileFate) (book : Book) (w : World) :
    Sweep.Partly (Record.settle book) w.journal.records
      (worldAfter (reconcilePendingMutations fate book w)).journal.records := by
  obtain ⟨rows, rest, j, -, hrecords, hworld, -⟩ := reconcile_settled fate book w
  rw [hworld, World.setJournal_journal, hrecords]
  exact .of_choice _

/-- **Returning, it has settled all of them.** -/
theorem reconcile_complete (h : Returned (reconcilePendingMutations fate book w)) :
    (worldAfter (reconcilePendingMutations fate book w)).journal.records
      = w.journal.records.map (Record.settle book) := by
  obtain ⟨rows, rest, j, hlist, hrecords, hworld, hret⟩ := reconcile_settled fate book w
  rw [hret h, List.append_nil] at hlist
  rw [hworld, World.setJournal_journal, hrecords]
  refine List.map_congr_left fun r hr => ?_
  by_cases hid : r.intent.mutationId ∈ rows.map Intent.mutationId
  · rw [if_pos hid]
  · rw [if_neg hid, settle_of_not_pending]
    intro hpending
    have hmem := mem_listPendingUnresolved.mpr ((pending_iff hr).mp hpending)
    exact hid (List.mem_map_of_mem (hlist ▸ hmem))

/-- What a reconciliation leaves of an unresolved row. -/
theorem reconcile_row {row : Intent} (hrow : w.journal.Unresolved row) (fate : ReconcileFate)
    (book : Book) :
    ∃ r ∈ (worldAfter (reconcilePendingMutations fate book w)).journal.records,
      (r = ⟨row, none⟩ ∨ r = Record.settle book ⟨row, none⟩) ∧
      (Returned (reconcilePendingMutations fate book w) →
        r = Record.settle book ⟨row, none⟩) := by
  obtain ⟨rows, rest, j, hlist, hrecords, hworld, hret⟩ := reconcile_settled fate book w
  have hmem : (⟨row, none⟩ : Record) ∈ w.journal.records :=
    mem_records.mpr ⟨hrow.1, by rw [hrow.2.1]; rfl⟩
  rw [hworld, World.setJournal_journal, hrecords]
  refine ⟨_, List.mem_map_of_mem hmem, ?_, fun hreturned => ?_⟩
  · by_cases hid : row.mutationId ∈ rows.map Intent.mutationId
    · exact Or.inr (if_pos hid)
    · exact Or.inl (if_neg hid)
  · rw [hret hreturned, List.append_nil] at hlist
    exact if_pos (List.mem_map_of_mem (hlist ▸ mem_listPendingUnresolved.mpr hrow))

/-- A journal all of whose records are settled has nothing to reconcile. -/
theorem listPendingUnresolved_of_settled
    (h : w.journal.records.map (Record.settle book) = w.journal.records) :
    w.journal.listPendingUnresolved = [] := by
  refine listPendingUnresolved_eq_nil fun row hrow => ?_
  have hmem : (⟨row, (w.journal.resolved row.mutationId).map Applied.outcome⟩ : Record)
      ∈ w.journal.records := mem_records.mpr ⟨hrow.1, rfl⟩
  have hpending := (pending_iff hmem).mpr hrow
  rw [← h] at hmem
  obtain ⟨r, -, hr⟩ := List.mem_map.mp hmem
  exact settle_not_pending book r (hr ▸ hpending)

/-- With nothing to reconcile, a reconciliation changes nothing and answers `0`, if at all. -/
theorem reconcile_of_nothing (h : w.journal.listPendingUnresolved = []) (fate : ReconcileFate)
    (book : Book) :
    worldAfter (reconcilePendingMutations fate book w) = w ∧
      (Returned (reconcilePendingMutations fate book w) →
        reconcilePendingMutations fate book w = .ok 0 w) := by
  unfold reconcilePendingMutations
  cases hfault : fate.listFault with
  | some e =>
    have hrun : pendingUnresolved (some e) w
        = .error (.shim ⟨.engineError, "journal: " ++ e.message, e.context⟩) w := rfl
    rw [run_bind_error hrun]
    exact ⟨rfl, fun hret => hret.elim⟩
  | none =>
    have hrun : pendingUnresolved none w = .ok [] w := by
      show EStateM.Result.ok (w.journal.listPendingUnresolved.map pendingEntry) w = _
      rw [h]
      rfl
    rw [run_bind_ok hrun, reconcileEntries]
    by_cases hkill : fate.killBefore = some 0
    · rw [if_pos hkill]
      exact ⟨rfl, fun hret => hret.elim⟩
    · rw [if_neg hkill]
      exact ⟨rfl, fun _ => rfl⟩

/-! ### Reconciliations that are left alone

With no fault and no kill the loop comes to its end. -/

/-- An undisturbed round settles its row. -/
theorem reconcileEntry_undisturbed (hfate : fate.Undisturbed) {row : Intent}
    (hrow : w.journal.Unresolved row) (i : ℕ) :
    Returned (reconcileEntry fate book i (pendingEntry row) w) := by
  have hint : w.journal.intent (pendingEntry row).mutationId = some row :=
    intent_eq_some.mpr ⟨hrow.1, rfl⟩
  have hkill : fate.killBefore ≠ some i := by
    rw [hfate.alive]
    nofun
  unfold reconcileEntry
  by_cases hverdict : wasApplied book (pendingEntry row) = some true
  · simp only [hkill, hverdict, hfate.write, if_false, if_true]
    obtain ⟨j, hj⟩ := exists_insertApplied (recoveredOutcome (pendingEntry row)) fate.now hint
      hrow.2.1
    rw [run_bind_ok (run_recordOutcome_of_some (w := w) hj)]
    trivial
  · simp only [hkill, hverdict, hfate.write, if_false]
    rw [run_bind_ok run_clearPending]
    trivial

/-- Undisturbed, the loop returns. -/
theorem reconcileEntries_undisturbed (hfate : fate.Undisturbed) {rows : List Intent}
    (hrows : ∀ row ∈ rows, w.journal.Unresolved row)
    (hnodup : (rows.map Intent.mutationId).Nodup) (i n : ℕ) :
    Returned (reconcileEntries fate book i n (rows.map pendingEntry) w) := by
  induction rows generalizing i n w with
  | nil =>
    simp only [List.map_nil, reconcileEntries, hfate.alive]
    trivial
  | cons row rows ih =>
    obtain ⟨hnew, hnodup⟩ := List.nodup_cons.mp hnodup
    have hne : ∀ other ∈ rows, other.mutationId ≠ row.mutationId := fun other hother heq =>
      hnew (List.mem_map.mpr ⟨other, hother, heq⟩)
    have hround : Returned (reconcileEntry fate book i (pendingEntry row) w) :=
      reconcileEntry_undisturbed hfate (hrows row List.mem_cons_self) i
    rw [List.map_cons, reconcileEntries]
    rcases reconcileEntry_cases fate book i (pendingEntry row) w with
      ⟨e, hrun⟩ | ⟨j, -, hj, hrun⟩ | ⟨-, hrun⟩
    · rw [hrun] at hround
      exact hround.elim
    · rw [run_bind_ok hrun]
      exact ih (fun other hother => (unresolved_insertApplied hj).mpr
        ⟨hne other hother, hrows other (List.mem_cons_of_mem _ hother)⟩) hnodup _ _
    · rw [run_bind_ok hrun]
      exact ih (fun other hother => unresolved_updatePending_of_ne (hne other hother)
        (hrows other (List.mem_cons_of_mem _ hother))) hnodup _ _

/-- **Left alone, a reconciliation returns.** -/
theorem reconcile_undisturbed (hfate : fate.Undisturbed) (book : Book) (w : World) :
    Returned (reconcilePendingMutations fate book w) := by
  unfold reconcilePendingMutations
  have hrun : pendingUnresolved fate.listFault w
      = .ok (w.journal.listPendingUnresolved.map pendingEntry) w := by
    rw [hfate.list]
    rfl
  rw [run_bind_ok hrun]
  exact reconcileEntries_undisturbed hfate (fun row hrow => mem_listPendingUnresolved.mp hrow)
    w.journal.listPendingUnresolved_ids_nodup 0 0

end Reconciliations

end Daichod.Journal
