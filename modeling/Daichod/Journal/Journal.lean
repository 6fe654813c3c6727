import Daichod.World

/-!
# Daichod.Journal.Journal

The member functions of `Journal` (`journal/journal.cpp`), run against the tables of
`Daichod.Journal.Tables`. Each is one SQL statement, so each either throws and changes
nothing or has the statement's effect.
-/

namespace Daichod.Journal

variable [Wire]

/-- `ThrowSqlite`. -/
def throwSqlite {α : Type} (e : SqliteError) : Exec α :=
  throwShim .engineError ("journal: " ++ e.message) e.context

/-- Run a statement that may fail. -/
def statement {α : Type} (fault : Option SqliteError) (body : Exec α) : Exec α :=
  match fault with
  | some e => throwSqlite e
  | none => body

/-- `Journal::RecordIntent`. -/
def recordIntent (fault : Option SqliteError) (mutationId rpcName : String) (payload : Bytes)
    (nowUtc : Int64) : Exec Unit :=
  statement fault <| modify fun w => w.setJournal <| w.journal.insertIntent
    { mutationId, rpcName, payload, payloadSha256 := Wire.sha256 payload,
      journaledAtUtc := nowUtc, pendingResponse := none }

/-- `Journal::GetOutcome`. -/
def getOutcome (fault : Option SqliteError) (mutationId : String) : Exec (Option (Outcome Bytes)) :=
  statement fault do
    match (← get).journal.resolved mutationId with
    | none => return none
    | some row =>
      match Wire.outcome.parse row.outcome with
      | none => throwShim .engineError "journal: corrupt outcome record" mutationId
      | some outcome => return some outcome

/-- `Journal::RecordPending`. -/
def recordPending (fault : Option SqliteError) (mutationId : String) (responseBytes : Bytes) :
    Exec Unit :=
  statement fault <| modify fun w =>
    w.setJournal (w.journal.updatePending mutationId (some responseBytes))

/-- `Journal::ClearPending`. -/
def clearPending (fault : Option SqliteError) (mutationId : String) : Exec Unit :=
  statement fault <| modify fun w => w.setJournal (w.journal.updatePending mutationId none)

/-- The message of a constraint that rejects a row of `applied`. -/
def constraintMessage (j : Journal) (mutationId : String) : String :=
  if (j.resolved mutationId).isSome then "UNIQUE constraint failed: applied.mutation_id"
  else "FOREIGN KEY constraint failed"

/-- `Journal::RecordOutcome`. -/
def recordOutcome (fault : Option SqliteError) (mutationId : String) (outcome : Outcome Bytes)
    (nowUtc : Int64) : Exec Unit :=
  statement fault do
    let w ← get
    match w.journal.insertApplied
        { mutationId, outcome := Wire.outcome.serialize outcome, appliedAtUtc := nowUtc } with
    | some j => set (w.setJournal j)
    | none => throwSqlite ⟨constraintMessage w.journal mutationId, "step"⟩

/-- `Journal::PendingEntry`. -/
structure PendingEntry where
  mutationId : String
  rpcName : String
  requestPayload : Bytes
  pendingResponse : Bytes

/-- The columns of a row that `ListPendingUnresolved` selects. -/
def pendingEntry (row : Intent) : PendingEntry :=
  { mutationId := row.mutationId, rpcName := row.rpcName, requestPayload := row.payload,
    pendingResponse := row.pendingResponse.getD Wire.noBytes }

/-- The outcome on record for a mutation. -/
def Recorded (j : Journal) (id : String) (outcome : Outcome Bytes) : Prop :=
  ∃ row, j.resolved id = some row ∧ Wire.outcome.parse row.outcome = some outcome

/-- What is on record for a mutation. -/
def outcome? (j : Journal) (id : String) : Option (Outcome Bytes) :=
  (j.resolved id).bind fun row => Wire.outcome.parse row.outcome

/-- The same, as a relation and as a function. -/
theorem recorded_iff {j : Journal} {id : String} {outcome : Outcome Bytes} :
    j.Recorded id outcome ↔ j.outcome? id = some outcome := by
  rw [outcome?, Option.bind_eq_some_iff]
  rfl

/-- A success is on record. -/
def RecordedOk (j : Journal) (id : String) : Prop :=
  ∃ outcome, j.Recorded id outcome ∧ outcome.ok = true

/-- A failure is on record. -/
def RecordedFailure (j : Journal) (id : String) : Prop :=
  ∃ outcome, j.Recorded id outcome ∧ outcome.ok = false

instance (j : Journal) (id : String) : Decidable (j.RecordedOk id) :=
  decidable_of_iff ((j.outcome? id).map Outcome.ok = some true) (by
    simp only [Option.map_eq_some_iff, ← recorded_iff]
    rfl)

instance (j : Journal) (id : String) : Decidable (j.RecordedFailure id) :=
  decidable_of_iff ((j.outcome? id).map Outcome.ok = some false) (by
    simp only [Option.map_eq_some_iff, ← recorded_iff]
    rfl)

/-! ### What each call does

One equation a member function: with no fault it has the statement's effect on the tables, and
with one it throws and leaves them. -/

section Run

variable {w : World} {mutationId : String}

/-- `ClearPending` empties the pending column of one row. -/
theorem run_clearPending :
    clearPending none mutationId w
      = .ok () (w.setJournal (w.journal.updatePending mutationId none)) := rfl

/-- A statement that SQLite fails changes nothing and throws SQLite's error. -/
theorem run_statement_fault {α : Type} (e : SqliteError) (body : Exec α) :
    statement (some e) body w
      = .error (.shim ⟨.engineError, "journal: " ++ e.message, e.context⟩) w := rfl

/-- The row `RecordOutcome` writes. -/
def outcomeRow (mutationId : String) (outcome : Outcome Bytes) (nowUtc : Int64) : Applied :=
  { mutationId, outcome := Wire.outcome.serialize outcome, appliedAtUtc := nowUtc }

/-- `RecordOutcome` inserts its row where there is none under that id. -/
theorem run_recordOutcome_of_some {outcome : Outcome Bytes} {nowUtc : Int64} {j : Journal}
    (h : w.journal.insertApplied (outcomeRow mutationId outcome nowUtc) = some j) :
    recordOutcome none mutationId outcome nowUtc w = .ok () (w.setJournal j) := by
  unfold outcomeRow at h
  simp only [recordOutcome, statement, run_bind, run_get, h]
  rfl

/-- A journaled, unresolved mutation can be resolved. -/
theorem exists_insertApplied {j : Journal} (outcome : Outcome Bytes) (nowUtc : Int64)
    {i : Intent} (hi : j.intent mutationId = some i) (hr : j.resolved mutationId = none) :
    ∃ j', j.insertApplied (outcomeRow mutationId outcome nowUtc) = some j' := by
  have hc : (outcomeRow mutationId outcome nowUtc).mutationId ∉ j.applied.map Applied.mutationId ∧
      (outcomeRow mutationId outcome nowUtc).mutationId ∈ j.intents.map Intent.mutationId := by
    refine ⟨resolved_eq_none.mp hr, ?_⟩
    by_contra hno
    have hnone : j.intent mutationId = none := intent_eq_none.mpr hno
    rw [hnone] at hi
    cases hi
  exact ⟨_, by rw [insertApplied, dif_pos hc]⟩

/-- On a journaled, unresolved mutation `RecordOutcome` fails exactly when SQLite does. -/
theorem recordOutcome_cases (mutationId : String) (fault : Option SqliteError) (outcome : Outcome Bytes)
    (nowUtc : Int64) {i : Intent} (hi : w.journal.intent mutationId = some i)
    (hr : w.journal.resolved mutationId = none) :
    (fault ≠ none ∧ ∃ e : ShimError, e.code = .engineError ∧
      recordOutcome fault mutationId outcome nowUtc w = .error (.shim e) w) ∨
    (fault = none ∧ ∃ j, w.journal.insertApplied (outcomeRow mutationId outcome nowUtc) = some j ∧
      recordOutcome fault mutationId outcome nowUtc w = .ok () (w.setJournal j)) := by
  cases fault with
  | some e => exact Or.inl ⟨by simp, _, rfl, run_statement_fault e _⟩
  | none =>
    obtain ⟨j, hj⟩ := exists_insertApplied outcome nowUtc hi hr
    exact Or.inr ⟨rfl, j, hj, run_recordOutcome_of_some hj⟩

/-- `RecordOutcome` throws and changes nothing, or writes its row. -/
theorem recordOutcome_ran (mutationId : String) (fault : Option SqliteError) (outcome : Outcome Bytes)
    (nowUtc : Int64) :
    (∃ e, recordOutcome fault mutationId outcome nowUtc w = .error e w) ∨
    (∃ j, w.journal.insertApplied (outcomeRow mutationId outcome nowUtc) = some j ∧
      recordOutcome fault mutationId outcome nowUtc w = .ok () (w.setJournal j)) := by
  cases fault with
  | some e => exact Or.inl ⟨_, run_statement_fault e _⟩
  | none =>
    cases hj : w.journal.insertApplied (outcomeRow mutationId outcome nowUtc) with
    | some j => exact Or.inr ⟨j, rfl, run_recordOutcome_of_some hj⟩
    | none =>
      left
      unfold outcomeRow at hj
      exact ⟨_, by simp only [recordOutcome, statement, run_bind, run_get, hj]; rfl⟩

/-- `ClearPending` throws and changes nothing, or clears. -/
theorem clearPending_ran (mutationId : String) (fault : Option SqliteError) :
    (∃ e, clearPending fault mutationId w = .error e w) ∨
      clearPending fault mutationId w
        = .ok () (w.setJournal (w.journal.updatePending mutationId none)) := by
  cases fault with
  | some e => exact Or.inl ⟨_, run_statement_fault e _⟩
  | none => exact Or.inr rfl

/-- Reading an outcome finds it, finds none, or throws; it throws only when SQLite fails or
the row does not parse. -/
theorem getOutcome_cases (mutationId : String) (fault : Option SqliteError) :
    (∃ e : ShimError, e.OfJournal ∧
      (fault ≠ none ∨ ∃ row, w.journal.resolved mutationId = some row ∧
        Wire.outcome.parse row.outcome = none) ∧
      getOutcome fault mutationId w = .error (.shim e) w) ∨
    (w.journal.resolved mutationId = none ∧ getOutcome fault mutationId w = .ok none w) ∨
    (∃ row recorded, w.journal.resolved mutationId = some row ∧
      Wire.outcome.parse row.outcome = some recorded ∧
      getOutcome fault mutationId w = .ok (some recorded) w) := by
  unfold getOutcome statement
  cases fault with
  | some e => exact Or.inl ⟨_, ⟨rfl, _, rfl⟩, Or.inl (by simp), rfl⟩
  | none =>
    simp only [run_bind, run_get]
    cases hr : w.journal.resolved mutationId with
    | none => exact Or.inr (Or.inl ⟨rfl, rfl⟩)
    | some row =>
      cases hp : Wire.outcome.parse row.outcome with
      | none =>
        exact Or.inl ⟨⟨.engineError, "journal: corrupt outcome record", mutationId⟩,
          ⟨rfl, "corrupt outcome record", rfl⟩, Or.inr ⟨row, rfl, hp⟩, by simp [hp]⟩
      | some recorded => exact Or.inr (Or.inr ⟨row, recorded, rfl, hp, by simp [hp]⟩)

end Run

/-! ### Outcomes on record

`Recorded` is what a replay would answer. A row whose bytes do not parse is not among these; it
resolves its id all the same. -/

section Recorded

variable {j j' : Journal} {id id' : String} {outcome outcome' : Outcome Bytes}

/-- An id has one outcome on record. -/
theorem Recorded.unique (h : j.Recorded id outcome) (h' : j.Recorded id outcome') :
    outcome = outcome' := by
  obtain ⟨row, hrow, hparse⟩ := h
  obtain ⟨row', hrow', hparse'⟩ := h'
  rw [hrow] at hrow'
  cases hrow'
  rw [hparse] at hparse'
  exact Option.some.inj hparse'

/-- An id with an outcome on record is resolved. -/
theorem Recorded.resolved_ne_none (h : j.Recorded id outcome) : j.resolved id ≠ none := by
  obtain ⟨row, hrow, -⟩ := h
  simp [hrow]

/-- So is one whose success is on record. -/
theorem RecordedOk.resolved_ne_none (h : j.RecordedOk id) : j.resolved id ≠ none := by
  obtain ⟨outcome, h, -⟩ := h
  exact h.resolved_ne_none

/-- What is on record is read from the `applied` table alone. -/
theorem recorded_congr (h : ∀ id, j'.resolved id = j.resolved id) :
    j'.Recorded id outcome ↔ j.Recorded id outcome := by
  simp only [Recorded, h]

/-- The same of successes. -/
theorem recordedOk_congr (h : ∀ id, j'.resolved id = j.resolved id) :
    j'.RecordedOk id ↔ j.RecordedOk id := by
  simp only [RecordedOk, recorded_congr h]

/-- `RecordOutcome` puts its outcome on record and leaves the others alone. -/
theorem recorded_insertApplied {nowUtc : Int64}
    (h : j.insertApplied (outcomeRow id outcome nowUtc) = some j') :
    j'.Recorded id' outcome' ↔ if id = id' then outcome = outcome' else j.Recorded id' outcome' := by
  unfold Recorded
  rw [resolved_insertApplied h]
  by_cases hid : id = id'
  · simp [hid, outcomeRow, Wire.outcome.parse_serialize]
  · simp [hid, outcomeRow]

/-- A new outcome's id is on record as it says, the others as they were. -/
theorem recordedOk_insertApplied {nowUtc : Int64}
    (h : j.insertApplied (outcomeRow id outcome nowUtc) = some j') :
    j'.RecordedOk id' ↔ if id = id' then outcome.ok = true else j.RecordedOk id' := by
  unfold RecordedOk
  simp only [recorded_insertApplied h]
  by_cases hid : id = id'
  · simp [hid]
  · simp [hid]

end Recorded

end Daichod.Journal
