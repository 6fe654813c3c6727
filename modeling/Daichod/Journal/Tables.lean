import Daichod.Rpc.Wire
import Mathlib.Data.List.Nodup
import Mathlib.Tactic.ByContra
import Mathlib.Tactic.Tauto

/-!
# Daichod.Journal.Tables

The two tables of the sidecar journal (`journal/journal.cpp`) and the SQL statements run
on them, as functions on lists of rows in insertion order.

The schema is part of the type: a `Journal` carries its primary keys and the foreign key
from `applied` to `intents`, so every statement below has to keep them and no state that
SQLite would refuse can be written down. An `INSERT` that a constraint rejects returns
`none`.

## Proof shape

A row is found by its key, and keys are unique, so a lookup is the same as membership
(`intent_eq_some`, `resolved_eq_some`). Each statement then has one lemma for each of the two
lookups, saying what it finds afterwards; the rest of the development reads the tables through
these alone.
-/

namespace Daichod

variable [Wire]

/-- A row of `intents`. -/
structure Intent where
  mutationId : String
  rpcName : String
  payload : Bytes
  payloadSha256 : Bytes
  journaledAtUtc : Int64
  pendingResponse : Option Bytes

/-- A row of `applied`. -/
structure Applied where
  mutationId : String
  outcome : Bytes
  appliedAtUtc : Int64

/-- The journal database. -/
structure Journal where
  intents : List Intent
  applied : List Applied
  intents_key : (intents.map Intent.mutationId).Nodup
  applied_key : (applied.map Applied.mutationId).Nodup
  applied_references : ∀ id ∈ applied.map Applied.mutationId, id ∈ intents.map Intent.mutationId

namespace Journal

/-- A journal just created. -/
def empty : Journal := ⟨[], [], List.nodup_nil, List.nodup_nil, by simp⟩

/-! ### Rows -/

/-- The `intents` row of a mutation. -/
def intent (j : Journal) (id : String) : Option Intent :=
  j.intents.find? (·.mutationId = id)

/-- The `applied` row of a mutation. -/
def resolved (j : Journal) (id : String) : Option Applied :=
  j.applied.find? (·.mutationId = id)

omit [Wire] in
/-- Under a unique key, a row is found exactly where it is. -/
theorem find?_key_eq_some {α : Type} {key : α → String} {l : List α} (hl : (l.map key).Nodup)
    {id : String} {row : α} :
    l.find? (key · = id) = some row ↔ row ∈ l ∧ key row = id := by
  induction l with
  | nil => simp
  | cons a l ih =>
    rw [List.map_cons, List.nodup_cons] at hl
    rw [List.find?_cons]
    by_cases ha : key a = id
    · simp only [ha, decide_true, Option.some.injEq, List.mem_cons]
      constructor
      · intro h
        subst h
        exact ⟨Or.inl rfl, ha⟩
      · intro hrow
        obtain ⟨hmem, hid⟩ := hrow
        rcases hmem with h | h
        · exact h.symm
        · exact absurd (List.mem_map.mpr ⟨row, h, hid.trans ha.symm⟩) hl.1
    · simp only [ha, decide_false, List.mem_cons, ih hl.2]
      constructor
      · intro hrow
        obtain ⟨h, hid⟩ := hrow
        exact ⟨Or.inr h, hid⟩
      · intro hrow
        obtain ⟨hmem, hid⟩ := hrow
        rcases hmem with h | h
        · exact absurd (h ▸ hid) ha
        · exact ⟨h, hid⟩

/-- The intent of a mutation is the row under its id. -/
theorem intent_eq_some {j : Journal} {id : String} {row : Intent} :
    j.intent id = some row ↔ row ∈ j.intents ∧ row.mutationId = id :=
  find?_key_eq_some j.intents_key

/-- So is its outcome. -/
theorem resolved_eq_some {j : Journal} {id : String} {row : Applied} :
    j.resolved id = some row ↔ row ∈ j.applied ∧ row.mutationId = id :=
  find?_key_eq_some j.applied_key

/-- No intent under an id. -/
theorem intent_eq_none {j : Journal} {id : String} :
    j.intent id = none ↔ id ∉ j.intents.map Intent.mutationId := by
  simp [intent, List.find?_eq_none]

/-- No outcome under an id. -/
theorem resolved_eq_none {j : Journal} {id : String} :
    j.resolved id = none ↔ id ∉ j.applied.map Applied.mutationId := by
  simp [resolved, List.find?_eq_none]

/-- The foreign key, for lookups: a resolved mutation has its intent on record. -/
theorem intent_isSome_of_resolved {j : Journal} {id : String} {row : Applied}
    (h : j.resolved id = some row) : ∃ i, j.intent id = some i := by
  obtain ⟨hmem, hid⟩ := resolved_eq_some.mp h
  have hin := j.applied_references row.mutationId (List.mem_map_of_mem hmem)
  rw [hid] at hin
  cases hi : j.intent id with
  | none => exact absurd hin (intent_eq_none.mp hi)
  | some i => exact ⟨i, rfl⟩

/-! ### Statements -/

/-- `INSERT OR IGNORE INTO intents`. -/
def insertIntent (j : Journal) (row : Intent) : Journal :=
  if h : row.mutationId ∈ j.intents.map Intent.mutationId then j
  else
    { j with
      intents := j.intents ++ [row]
      intents_key := by
        rw [List.map_append, List.map_singleton]
        refine List.nodup_append.mpr ⟨j.intents_key, List.nodup_singleton _, ?_⟩
        intro a ha b hb
        rw [List.mem_singleton] at hb
        exact fun hab => h (hb ▸ hab ▸ ha)
      applied_references := fun id hid => by
        rw [List.map_append]
        exact List.mem_append_left _ (j.applied_references id hid) }

/-- `UPDATE intents SET pending_response = ? WHERE mutation_id = ?`. -/
def updatePending (j : Journal) (id : String) (pending : Option Bytes) : Journal :=
  have hmap : (j.intents.map fun row =>
      if row.mutationId = id then { row with pendingResponse := pending } else row).map
        Intent.mutationId = j.intents.map Intent.mutationId := by
    rw [List.map_map]
    refine List.map_congr_left fun row _ => ?_
    simp only [Function.comp]
    split <;> rfl
  { j with
    intents := j.intents.map fun row =>
      if row.mutationId = id then { row with pendingResponse := pending } else row
    intents_key := by rw [hmap]; exact j.intents_key
    applied_references := by rw [hmap]; exact j.applied_references }

/-- `INSERT INTO applied`: refused when the mutation is resolved already, or unknown. -/
def insertApplied (j : Journal) (row : Applied) : Option Journal :=
  if h : row.mutationId ∉ j.applied.map Applied.mutationId ∧
      row.mutationId ∈ j.intents.map Intent.mutationId then
    some
      { j with
        applied := j.applied ++ [row]
        applied_key := by
          rw [List.map_append, List.map_singleton]
          refine List.nodup_append.mpr ⟨j.applied_key, List.nodup_singleton _, ?_⟩
          intro a ha b hb
          rw [List.mem_singleton] at hb
          exact fun hab => h.1 (hb ▸ hab ▸ ha)
        applied_references := fun id hid => by
          rw [List.map_append, List.mem_append, List.map_singleton, List.mem_singleton] at hid
          rcases hid with hid | hid
          · exact j.applied_references id hid
          · exact hid ▸ h.2 }
  else none

/-- Intents that reached step 3a and have no recorded outcome
(`WHERE a.mutation_id IS NULL AND i.pending_response IS NOT NULL`). -/
def Unresolved (j : Journal) (row : Intent) : Prop :=
  row ∈ j.intents ∧ j.resolved row.mutationId = none ∧ row.pendingResponse ≠ none

/-- `ListPendingUnresolved`, in `ORDER BY journaled_at_utc`. -/
def listPendingUnresolved (j : Journal) : List Intent :=
  (j.intents.filter fun row =>
    (j.resolved row.mutationId).isNone && row.pendingResponse.isSome).mergeSort
      fun a b => a.journaledAtUtc ≤ b.journaledAtUtc

/-- `ListIndeterminate`, in `ORDER BY journaled_at_utc`. -/
def listIndeterminate (j : Journal) : List Intent :=
  (j.intents.filter fun row => (j.resolved row.mutationId).isNone).mergeSort
    fun a b => a.journaledAtUtc ≤ b.journaledAtUtc

/-! ### What each statement does to the rows

`INSERT OR IGNORE` keeps the first row, `UPDATE` changes one column of one row, and a plain
`INSERT` needs a key that is not there yet. -/

/-- Journaling a request resolves nothing. -/
@[simp] theorem resolved_insertIntent (j : Journal) (row : Intent) (id : String) :
    (j.insertIntent row).resolved id = j.resolved id := by
  unfold insertIntent; split <;> rfl

/-- Nor does it touch the other table. -/
@[simp] theorem applied_insertIntent (j : Journal) (row : Intent) :
    (j.insertIntent row).applied = j.applied := by
  unfold insertIntent; split <;> rfl

/-- **First writer wins**: an intent on record is left untouched. -/
theorem insertIntent_of_some {j : Journal} {row old : Intent}
    (h : j.intent row.mutationId = some old) : j.insertIntent row = j := by
  have hin : row.mutationId ∈ j.intents.map Intent.mutationId := by
    by_contra hno
    rw [intent_eq_none.mpr hno] at h
    cases h
  rw [insertIntent, dif_pos hin]

/-- A new request is the last row. -/
theorem intents_insertIntent_of_none {j : Journal} {row : Intent}
    (h : j.intent row.mutationId = none) :
    (j.insertIntent row).intents = j.intents ++ [row] := by
  rw [insertIntent, dif_neg (intent_eq_none.mp h)]

/-- **Journaling a request**: the first row under its id stays. -/
theorem intent_insertIntent (j : Journal) (row : Intent) (id : String) :
    (j.insertIntent row).intent id =
      if row.mutationId = id then some ((j.intent id).getD row) else j.intent id := by
  cases hrow : j.intent row.mutationId with
  | some old =>
    rw [insertIntent_of_some hrow]
    split
    · next hid => subst hid; simp [hrow]
    · rfl
  | none =>
    have happ := intents_insertIntent_of_none hrow
    rw [intent, happ, List.find?_append]
    split
    · next hid =>
      subst hid
      have hfind : j.intents.find? (·.mutationId = row.mutationId) = none := hrow
      simp [hfind, hrow]
    · next hid => simp [hid, intent]

/-- It brings in no other row than its own. -/
theorem mem_intents_insertIntent {j : Journal} {row i : Intent}
    (h : i ∈ (j.insertIntent row).intents) : i ∈ j.intents ∨ i = row := by
  cases hrow : j.intent row.mutationId with
  | some old => rw [insertIntent_of_some hrow] at h; exact Or.inl h
  | none =>
    rw [intents_insertIntent_of_none hrow, List.mem_append, List.mem_singleton] at h
    exact h

/-- A pending record is no outcome. -/
@[simp] theorem resolved_updatePending (j : Journal) (id : String) (p : Option Bytes)
    (id' : String) : (j.updatePending id p).resolved id' = j.resolved id' := rfl

/-- It is a column of the other table. -/
@[simp] theorem applied_updatePending (j : Journal) (id : String) (p : Option Bytes) :
    (j.updatePending id p).applied = j.applied := rfl

/-- One column of one row. -/
theorem intents_updatePending (j : Journal) (id : String) (p : Option Bytes) :
    (j.updatePending id p).intents = j.intents.map fun row =>
      if row.mutationId = id then { row with pendingResponse := p } else row := rfl

/-- **Recording what is pending**, or clearing it. -/
theorem intent_updatePending (j : Journal) (id : String) (p : Option Bytes) (id' : String) :
    (j.updatePending id p).intent id' =
      if id' = id then (j.intent id').map ({ · with pendingResponse := p }) else j.intent id' := by
  refine Option.ext fun row => ?_
  simp only [intent_eq_some, intents_updatePending, List.mem_map]
  constructor
  · intro hboth
    obtain ⟨⟨old, hold, hrow⟩, hid⟩ := hboth
    by_cases h : old.mutationId = id
    · rw [if_pos h] at hrow
      subst hrow
      have hid : old.mutationId = id' := hid
      rw [if_pos (hid ▸ h), intent_eq_some.mpr ⟨hold, hid⟩]
      rfl
    · rw [if_neg h] at hrow
      subst hrow
      rw [if_neg (hid ▸ h)]
      exact intent_eq_some.mpr ⟨hold, hid⟩
  · intro h
    split at h
    · next hid =>
      obtain ⟨old, hold, rfl⟩ := Option.map_eq_some_iff.mp h
      obtain ⟨hmem, hold⟩ := intent_eq_some.mp hold
      exact ⟨⟨old, hmem, by rw [if_pos (hold.trans hid)]⟩, hold⟩
    · next hid =>
      obtain ⟨hmem, hrow⟩ := intent_eq_some.mp h
      exact ⟨⟨row, hmem, by rw [if_neg (hrow ▸ hid)]⟩, hrow⟩

/-- An outcome is accepted exactly for a journaled mutation that has none. -/
theorem insertApplied_eq_some {j j' : Journal} {row : Applied} :
    j.insertApplied row = some j' ↔
      j.resolved row.mutationId = none ∧ (∃ i, j.intent row.mutationId = some i) ∧
        j'.intents = j.intents ∧ j'.applied = j.applied ++ [row] := by
  have hint : (∃ i, j.intent row.mutationId = some i) ↔
      row.mutationId ∈ j.intents.map Intent.mutationId := by
    rw [← not_iff_not, ← intent_eq_none, ← Option.ne_none_iff_exists']
    exact not_not
  rw [hint, resolved_eq_none, insertApplied]
  constructor
  · intro h
    split at h
    · next hc =>
      obtain rfl := Option.some.inj h
      exact ⟨hc.1, hc.2, rfl, rfl⟩
    · cases h
  · intro hall
    obtain ⟨h1, h2, hi, ha⟩ := hall
    obtain ⟨intents, applied, hk, hak, hr⟩ := j'
    simp only at hi ha
    subst hi ha
    rw [dif_pos ⟨h1, h2⟩]

/-- **Recording an outcome.** -/
theorem resolved_insertApplied {j j' : Journal} {row : Applied}
    (h : j.insertApplied row = some j') (id : String) :
    j'.resolved id = if row.mutationId = id then some row else j.resolved id := by
  obtain ⟨hnone, -, -, happ⟩ := insertApplied_eq_some.mp h
  rw [resolved, happ, List.find?_append]
  split
  · next hid =>
    subst hid
    have hfind : j.applied.find? (·.mutationId = row.mutationId) = none := hnone
    simp [hfind]
  · next hid => simp [hid, resolved]

/-- An outcome on record stays. -/
theorem resolved_insertApplied_of_some {j j' : Journal} {a row : Applied} {id : String}
    (h : j.insertApplied a = some j') (hrow : j.resolved id = some row) :
    j'.resolved id = some row := by
  rw [resolved_insertApplied h]
  by_cases hid : a.mutationId = id
  · obtain ⟨hnone, -⟩ := insertApplied_eq_some.mp h
    rw [hid, hrow] at hnone
    cases hnone
  · rw [if_neg hid, hrow]

/-- It leaves the requests alone. -/
theorem intent_insertApplied {j j' : Journal} {row : Applied}
    (h : j.insertApplied row = some j') (id : String) : j'.intent id = j.intent id := by
  rw [intent, (insertApplied_eq_some.mp h).2.2.1, intent]

/-- What recovery is asked about. -/
theorem mem_listPendingUnresolved {j : Journal} {row : Intent} :
    row ∈ j.listPendingUnresolved ↔ j.Unresolved row := by
  simp [listPendingUnresolved, Unresolved, Option.isSome_iff_ne_none]

/-- What clients are told of. -/
theorem mem_listIndeterminate {j : Journal} {row : Intent} :
    row ∈ j.listIndeterminate ↔ row ∈ j.intents ∧ j.resolved row.mutationId = none := by
  simp [listIndeterminate]

/-! ### Unresolved pending records

A row that recovery has to decide: it has a pending record and no outcome. What becomes of the
list when one row is settled is read off the rows. -/

section Unresolved

variable {j : Journal} {id : String} {row r : Intent}

/-- Journaling a request leaves no new pending record. -/
theorem unresolved_insertIntent (hrow : row.pendingResponse = none) :
    (j.insertIntent row).Unresolved r ↔ j.Unresolved r := by
  unfold Unresolved
  rw [resolved_insertIntent]
  constructor
  · intro hlisted
    obtain ⟨hmem, hnone, hpending⟩ := hlisted
    rcases mem_intents_insertIntent hmem with h | h
    · exact ⟨h, hnone, hpending⟩
    · exact absurd (h ▸ hrow) hpending
  · intro hlisted
    obtain ⟨hmem, hnone, hpending⟩ := hlisted
    refine ⟨?_, hnone, hpending⟩
    cases hold : j.intent row.mutationId with
    | some old => rw [insertIntent_of_some hold]; exact hmem
    | none => rw [intents_insertIntent_of_none hold]; exact List.mem_append_left _ hmem

/-- After `UPDATE`, the rows of other mutations are as they were. -/
theorem unresolved_updatePending {p : Option Bytes} (h : (j.updatePending id p).Unresolved r) :
    (r.mutationId ≠ id ∧ j.Unresolved r) ∨
      (∃ old ∈ j.intents, old.mutationId = id ∧ r = { old with pendingResponse := p } ∧
        p ≠ none ∧ j.resolved id = none) := by
  obtain ⟨hmem, hnone, hpending⟩ := h
  rw [intents_updatePending, List.mem_map] at hmem
  obtain ⟨old, hold, rfl⟩ := hmem
  by_cases hid : old.mutationId = id
  · subst hid
    simp only [if_true] at hnone hpending ⊢
    exact Or.inr ⟨old, hold, rfl, rfl, hpending, hnone⟩
  · simp only [hid, if_false] at hnone hpending ⊢
    exact Or.inl ⟨hid, hold, hnone, hpending⟩

/-- A pending record written where there was none is the only one. -/
theorem unresolved_updatePending_some (hnone : ∀ r, ¬j.Unresolved r) {old : Intent}
    {bytes : Bytes} (hold : j.intent id = some old) (hres : j.resolved id = none) :
    (j.updatePending id (some bytes)).Unresolved r ↔
      r = { old with pendingResponse := some bytes } := by
  obtain ⟨hmem, hid⟩ := intent_eq_some.mp hold
  constructor
  · intro h
    rcases unresolved_updatePending h with ⟨-, h⟩ | ⟨old', hmem', hid', rfl, -, -⟩
    · exact absurd h (hnone r)
    · have hold' : j.intent id = some old' := intent_eq_some.mpr ⟨hmem', hid'⟩
      rw [hold] at hold'
      rw [Option.some.inj hold']
  · intro h
    subst h
    refine ⟨?_, ?_, by simp⟩
    · rw [intents_updatePending]
      exact List.mem_map.mpr ⟨old, hmem, by rw [if_pos hid]⟩
    · rw [resolved_updatePending]
      exact hid ▸ hres

/-- An outcome resolves its own mutation and no other. -/
theorem unresolved_insertApplied {j' : Journal} {a : Applied} (hj : j.insertApplied a = some j') :
    j'.Unresolved r ↔ r.mutationId ≠ a.mutationId ∧ j.Unresolved r := by
  unfold Unresolved
  rw [(insertApplied_eq_some.mp hj).2.2.1, resolved_insertApplied hj]
  by_cases hid : a.mutationId = r.mutationId
  · simp [hid]
  · simp [hid, Ne.symm hid]

/-- With no such row there is nothing to decide. -/
theorem listPendingUnresolved_eq_nil (h : ∀ r, ¬j.Unresolved r) : j.listPendingUnresolved = [] :=
  List.eq_nil_iff_forall_not_mem.mpr fun r hr => h r (mem_listPendingUnresolved.mp hr)

/-- No row is asked about twice. -/
theorem listPendingUnresolved_nodup (j : Journal) : j.listPendingUnresolved.Nodup := by
  unfold listPendingUnresolved
  rw [(List.mergeSort_perm _ _).nodup_iff]
  exact (List.Nodup.of_map _ j.intents_key).filter _

/-- Reconciliation is handed no mutation twice. -/
theorem listPendingUnresolved_ids_nodup (j : Journal) :
    (j.listPendingUnresolved.map Intent.mutationId).Nodup := by
  unfold listPendingUnresolved
  rw [((List.mergeSort_perm _ _).map _).nodup_iff]
  exact j.intents_key.sublist (List.filter_sublist.map _)

/-- A single unresolved row is all that reconciliation is handed. -/
theorem listPendingUnresolved_eq_singleton (h : ∀ r, j.Unresolved r ↔ r = row) :
    j.listPendingUnresolved = [row] := by
  have hmem : ∀ r, r ∈ j.listPendingUnresolved ↔ r = row := fun r =>
    mem_listPendingUnresolved.trans (h r)
  have hnodup := j.listPendingUnresolved_nodup
  cases hl : j.listPendingUnresolved with
  | nil =>
    have := (hmem row).mpr rfl
    rw [hl] at this
    cases this
  | cons r rest =>
    rw [hl] at hmem hnodup
    have hr : r = row := (hmem r).mp (List.mem_cons_self ..)
    have hrest : rest = [] := by
      refine List.eq_nil_iff_forall_not_mem.mpr fun r' hr' => ?_
      have hr'row : r' = row := (hmem r').mp (List.mem_cons_of_mem _ hr')
      exact (List.nodup_cons.mp hnodup).1 (hr.trans hr'row.symm ▸ hr')
    rw [hr, hrest]

end Unresolved

end Journal

end Daichod
