import Daichod.Daemon
import Daichod.Rpc.Verdicts

/-!
# Daichod.History

Where the rows of the journal come from. In every run, whatever fails in it, each row was
written for a call of the run: an intent for its request, a pending record for the response
it was about to commit, an outcome for the result it computed (`Journal.Sound`).

## Proof shape

`Journal.Sound` is the invariant, with a lemma for each statement that writes: step 1's insert, a
write to the pending column, and step 4's insert. `Sound.ran` takes them together along the ways a
call can end; a start only moves pending responses over to outcomes, or drops them.
-/

namespace Daichod

variable [Wire] [Engine]

/-! ### Outcomes stay

An outcome's row is inserted once and never updated or deleted, by no call and by no start. -/

/-- A call leaves the outcomes on record as they are. -/
theorem Mutation.Ran.resolved_of_some {m : Mutation} {fate : Fate} {w : World}
    {r : EStateM.Result Exn World m.Response} (h : m.Ran fate w r) {id : String} {row : Applied}
    (hrow : w.journal.resolved id = some row) : (worldAfter r).journal.resolved id = some row := by
  rcases h.resolved with hsame | ⟨j, outcome, hsame, -, hinsert⟩
  · rw [hsame, hrow]
  · exact Journal.resolved_insertApplied_of_some hinsert ((hsame id).trans hrow)

/-- Reconciliation writes outcomes only where there are none. -/
theorem Journal.Reconciled.resolved_of_some {book : Book} {now : Int64}
    {entries : List Journal.PendingEntry} {j j' : Journal}
    (h : Journal.Reconciled book now entries j j') {id : String} {row : Applied}
    (hrow : j.resolved id = some row) : j'.resolved id = some row := by
  induction h with
  | nil j => exact hrow
  | applied hverdict hj hrest ih => exact ih (Journal.resolved_insertApplied_of_some hj hrow)
  | cleared hverdict hrest ih => exact ih hrow

/-- **An outcome on record stays**, whatever happens. -/
theorem Daemon.Down.resolved_run {d : Daemon} (h : d.Down) {id : String} {row : Applied}
    (hrow : d.world.journal.resolved id = some row) (events : List Event) :
    (d.run events).world.journal.resolved id = some row := by
  induction events generalizing d with
  | nil => exact hrow
  | cons e events ih =>
    refine ih (h.step e) ?_
    rcases h.step_journal e with hsame | ⟨m, fate, -, -, hcall⟩ |
      ⟨fate, o, settled, rest, -, -, -, hrec⟩
    · rw [hsame, hrow]
    · rw [hcall]
      exact (m.ran fate d.world).resolved_of_some hrow
    · exact hrec.resolved_of_some hrow

/-! ### Rows and calls

`Called` says that a run makes a call in some world. It only grows with the run, and so does
everything that a row is justified by. -/

/-- The run `es` of `d₀` has a call of `m`, served in the world `w`. -/
def Called (d₀ : Daemon) (es : List Event) (m : Mutation) (fate : Fate) (w : World) : Prop :=
  ∃ es₁, es₁ ++ [.mutate m fate] <+: es ∧ (d₀.run es₁).serving = true ∧ (d₀.run es₁).world = w

/-- A call of a run is one of every longer run. -/
theorem Called.mono {d₀ : Daemon} {es es' : List Event} {m : Mutation} {fate : Fate} {w : World}
    (h : Called d₀ es m fate w) (hes : es <+: es') : Called d₀ es' m fate w := by
  obtain ⟨es₁, hes₁, hrest⟩ := h
  exact ⟨es₁, hes₁.trans hes, hrest⟩

/-- The result a call computed, as far as a replay reads it: the response it was about to
commit, or the verdict it threw. -/
inductive Mutation.Computed (m : Mutation) (fate : Fate) (w : World) : Outcome Bytes → Prop
  | success {edit : Edit m.Response} {outcome : Outcome Bytes} (happlies : m.Applies fate w)
      (hvalid : m.validated fate w = .ok edit) (hok : outcome.ok = true)
      (hresponse : outcome.response = some (m.codec.serialize edit.response))
      (herror : outcome.error = none) : Computed m fate w outcome
  | failure {s : ShimError} {outcome : Outcome Bytes} (happlies : m.Applies fate w)
      (hvalid : m.validated fate w = .error (.shim s)) (hverdict : s.Verdict)
      (hthrown : m.run fate w = .error (.shim s) (worldAfter (m.run fate w)))
      (hok : outcome.ok = false) (herror : outcome.error = some s.toDetail) :
      Computed m fate w outcome

/-- Every row of the journal was written for a call of the run. -/
structure Journal.Sound (d₀ : Daemon) (es : List Event) (j : Journal) : Prop where
  intents : ∀ row ∈ j.intents, ∃ m fate w, Called d₀ es m fate w ∧
    m.mutationId = row.mutationId ∧ row.rpcName = m.rpcName ∧ row.payload = m.payload
  pending : ∀ row ∈ j.intents, ∀ bytes, row.pendingResponse = some bytes →
    ∃ (m : Mutation) (fate : Fate) (w : World) (edit : Edit m.Response), Called d₀ es m fate w ∧
      m.mutationId = row.mutationId ∧ m.Applies fate w ∧ m.validated fate w = .ok edit ∧
      bytes = m.codec.serialize edit.response
  applied : ∀ row ∈ j.applied, ∃ m fate w outcome, Called d₀ es m fate w ∧
    m.mutationId = row.mutationId ∧ row.outcome = Wire.outcome.serialize outcome ∧
    m.Computed fate w outcome

namespace Journal.Sound

variable {d₀ : Daemon} {es es' : List Event} {j j' : Journal} {m : Mutation} {fate : Fate}
  {w : World}

/-- What justifies a row still does when the run goes on. -/
theorem mono (h : Sound d₀ es j) (hes : es <+: es') : Sound d₀ es' j where
  intents row hrow := by
    obtain ⟨m, fate, w, hcalled, hrest⟩ := h.intents row hrow
    exact ⟨m, fate, w, hcalled.mono hes, hrest⟩
  pending row hrow bytes hbytes := by
    obtain ⟨m, fate, w, edit, hcalled, hrest⟩ := h.pending row hrow bytes hbytes
    exact ⟨m, fate, w, edit, hcalled.mono hes, hrest⟩
  applied row hrow := by
    obtain ⟨m, fate, w, outcome, hcalled, hrest⟩ := h.applied row hrow
    exact ⟨m, fate, w, outcome, hcalled.mono hes, hrest⟩

/-- Step 1: the row holds the request of its call. -/
theorem insertIntent (h : Sound d₀ es j) (hcalled : Called d₀ es m fate w) :
    Sound d₀ es (j.insertIntent (m.intentRow fate)) where
  intents row hrow := by
    rcases mem_intents_insertIntent hrow with hrow | rfl
    · exact h.intents row hrow
    · exact ⟨m, fate, w, hcalled, rfl, rfl, rfl⟩
  pending row hrow bytes hbytes := by
    rcases mem_intents_insertIntent hrow with hrow | rfl
    · exact h.pending row hrow bytes hbytes
    · cases hbytes
  applied row hrow := h.applied row (applied_insertIntent j _ ▸ hrow)

/-- A write to the pending column: a response must be that of a call that got so far, and dropping
one needs no reason. -/
theorem updatePending (h : Sound d₀ es j) (id : String) (p : Option Bytes)
    (hp : ∀ bytes, p = some bytes → ∃ (m : Mutation) (fate : Fate) (w : World)
      (edit : Edit m.Response), Called d₀ es m fate w ∧ m.mutationId = id ∧ m.Applies fate w ∧
        m.validated fate w = .ok edit ∧ bytes = m.codec.serialize edit.response) :
    Sound d₀ es (j.updatePending id p) where
  intents row hrow := by
    rw [intents_updatePending, List.mem_map] at hrow
    obtain ⟨old, hold, rfl⟩ := hrow
    obtain ⟨m, fate, w, hcalled, hrest⟩ := h.intents old hold
    split
    · exact ⟨m, fate, w, hcalled, hrest⟩
    · exact ⟨m, fate, w, hcalled, hrest⟩
  pending row hrow bytes hbytes := by
    rw [intents_updatePending, List.mem_map] at hrow
    obtain ⟨old, hold, rfl⟩ := hrow
    split at hbytes
    · next hid =>
      rw [if_pos hid]
      obtain ⟨m, fate, w, edit, hcalled, hm, hrest⟩ := hp bytes hbytes
      exact ⟨m, fate, w, edit, hcalled, hm.trans hid.symm, hrest⟩
    · next hid =>
      rw [if_neg hid]
      exact h.pending old hold bytes hbytes
  applied row hrow := h.applied row hrow

/-- An outcome must have been computed by a call. -/
theorem insertApplied (h : Sound d₀ es j) {outcome : Outcome Bytes} {now : Int64}
    (hcalled : Called d₀ es m fate w) (hcomputed : m.Computed fate w outcome)
    (hj : j.insertApplied (outcomeRow m.mutationId outcome now) = some j') : Sound d₀ es j' := by
  obtain ⟨-, -, hintents, happlied⟩ := insertApplied_eq_some.mp hj
  refine ⟨fun row hrow => h.intents row (hintents ▸ hrow),
    fun row hrow => h.pending row (hintents ▸ hrow), fun row hrow => ?_⟩
  rw [happlied, List.mem_append, List.mem_singleton] at hrow
  rcases hrow with hrow | rfl
  · exact h.applied row hrow
  · exact ⟨m, fate, w, outcome, hcalled, rfl, rfl, hcomputed⟩

/-- **A call** keeps the journal sound. -/
theorem ran {d : Daemon} (h : Sound d₀ es d.world.journal) (hrun : d = d₀.run es)
    (hserving : d.serving = true) :
    Sound d₀ (es ++ [.mutate m fate]) (worldAfter (m.run fate d.world)).journal := by
  have hcalled : Called d₀ (es ++ [.mutate m fate]) m fate d.world :=
    ⟨es, List.prefix_rfl, hrun ▸ hserving, hrun ▸ rfl⟩
  replace h := h.mono (List.prefix_append es [.mutate m fate])
  have hjournaled : Sound d₀ (es ++ [.mutate m fate]) (m.journaled fate d.world).journal :=
    h.insertIntent hcalled
  have hpended : ∀ {edit : Edit m.Response}, m.Applies fate d.world →
      m.validated fate d.world = .ok edit →
      Sound d₀ (es ++ [.mutate m fate]) ((m.journaled fate d.world).journal.updatePending
        m.mutationId (some (m.codec.serialize edit.response))) := by
    intro edit happlies hvalid
    refine hjournaled.updatePending _ _ fun bytes hbytes => ?_
    cases hbytes
    exact ⟨m, fate, d.world, edit, hcalled, rfl, happlies, hvalid, rfl⟩
  have hfinished : ∀ {edit : Edit m.Response}, m.Reaches fate d.world edit →
      Sound d₀ (es ++ [.mutate m fate]) (edit.finished fate d.world).journal := by
    intro edit hreach
    rw [edit.finished_journal]
    exact hpended hreach.toApplies hreach.valid
  have hsucceeded : ∀ {edit : Edit m.Response} {j : Journal}, m.Reaches fate d.world edit →
      (edit.finished fate d.world).journal.insertApplied
        (m.outcomeRow fate (m.call.success edit.response)) = some j →
      Sound d₀ (es ++ [.mutate m fate]) j := by
    intro edit j hreach hj
    exact (hfinished hreach).insertApplied hcalled
      (.success hreach.toApplies hreach.valid rfl rfl rfl) hj
  have hran := m.ran fate d.world
  generalize hr : m.run fate d.world = r at hran ⊢
  -- the four kinds of journal a call can leave: as it was, journaled, pended, or with an outcome
  cases hran with
  | invalid hid => exact h
  | intentFault hfault => exact h
  | killedAfterIntent hcrash => exact hjournaled
  | outcomeUnread hcode hfault => exact hjournaled
  | replayed hrow hparse =>
    cases m.call.replay _ with
    | ok response => exact hjournaled
    | error e => exact hjournaled
  | refused happlies hvalid hcode => exact hjournaled
  | verdictUnrecorded happlies hvalid hcode hfault he => exact hjournaled
  | verdict happlies hvalid hcode hj =>
    refine hjournaled.insertApplied hcalled (.failure happlies hvalid hcode ?_ rfl rfl) hj
    rw [hr]
    rfl
  | pendingFault happlies hvalid hfault => exact hjournaled
  | killedAfterPending happlies hvalid hpending hcrash => exact hpended happlies hvalid
  | threwBefore hreach hfinal => exact hpended hreach.toApplies hreach.valid
  | threwAfter hreach hfinal => exact hfinished hreach
  | killedAfterApply hreach hfinal hcrash => exact hfinished hreach
  | outcomeFault hreach hfinal halive hfault he => exact hfinished hreach
  | killedAfterOutcome hreach hfinal hfault hj hcrash => exact hsucceeded hreach hj
  | returned hreach hfinal halive hfault hj => exact hsucceeded hreach hj

/-- **Reconciliation** keeps the journal sound. -/
theorem reconciled {book : Book} {now : Int64} {rows : List Intent}
    {entries : List Journal.PendingEntry} (h : Sound d₀ es j)
    (hrec : Journal.Reconciled book now entries j j') (hentries : entries = rows.map pendingEntry)
    (hids : (rows.map Intent.mutationId).Nodup)
    (hrows : ∀ row ∈ rows, row ∈ j.intents ∧ row.pendingResponse ≠ none) : Sound d₀ es j' := by
  -- Settling one entry leaves the rows of the others alone, which carries the induction.
  induction hrec generalizing rows with
  | nil j => exact h
  | applied hverdict hj hrest ih =>
    cases rows with
    | nil => cases hentries
    | cons row rows =>
      obtain ⟨rfl, rfl⟩ := List.cons.inj hentries
      obtain ⟨hmem, hpending⟩ := hrows row List.mem_cons_self
      obtain ⟨bytes, hbytes⟩ := Option.ne_none_iff_exists'.mp hpending
      obtain ⟨m, fate, w, edit, hcalled, hid, happlies, hvalid, rfl⟩ :=
        h.pending row hmem bytes hbytes
      have hcomputed : m.Computed fate w (recoveredOutcome (pendingEntry row)) := by
        refine .success happlies hvalid rfl ?_ rfl
        simp [recoveredOutcome, pendingEntry, hbytes]
      have hj' := hj
      rw [show (pendingEntry row).mutationId = m.mutationId from hid.symm] at hj'
      refine ih (h.insertApplied hcalled hcomputed hj') rfl (List.nodup_cons.mp hids).2
        fun row' hrow' => ?_
      rw [(insertApplied_eq_some.mp hj).2.2.1]
      exact hrows row' (List.mem_cons_of_mem _ hrow')
  | cleared hverdict hrest ih =>
    cases rows with
    | nil => cases hentries
    | cons row rows =>
      obtain ⟨rfl, rfl⟩ := List.cons.inj hentries
      refine ih (h.updatePending _ _ (by simp)) rfl (List.nodup_cons.mp hids).2
        fun row' hrow' => ?_
      obtain ⟨hmem, hpending⟩ := hrows row' (List.mem_cons_of_mem _ hrow')
      have hne : row'.mutationId ≠ row.mutationId := by
        intro heq
        exact (List.nodup_cons.mp hids).1 (heq ▸ List.mem_map_of_mem hrow')
      refine ⟨?_, hpending⟩
      rw [intents_updatePending]
      exact List.mem_map.mpr ⟨row', hmem, if_neg hne⟩

end Journal.Sound

/-- What holds of every daemon that was fresh once. -/
structure Daemon.Sound (d₀ : Daemon) (es : List Event) (d : Daemon) : Prop where
  journal : d.world.journal.Sound d₀ es
  down : d.Down

/-- **One event** keeps the journal sound. -/
theorem Daemon.Sound.step {d₀ d : Daemon} {es : List Event} (h : Daemon.Sound d₀ es d)
    (hrun : d = d₀.run es) (e : Event) : Daemon.Sound d₀ (es ++ [e]) (d.step e) := by
  refine ⟨?_, h.down.step e⟩
  have hmono := h.journal.mono (List.prefix_append es [e])
  rcases h.down.step_journal e with hsame | ⟨m, fate, rfl, hserving, hcall⟩ |
    ⟨fate, o, settled, rest, rfl, -, hsplit, hrec⟩
  · rw [hsame]
    exact hmono
  · rw [hcall]
    exact h.journal.ran hrun hserving
  · obtain ⟨rows, rows', hrows, hsettled, -⟩ := List.map_eq_append_iff.mp hsplit
    have hids := d.world.journal.listPendingUnresolved_ids_nodup
    rw [hrows, List.map_append] at hids
    refine hmono.reconciled hrec hsettled.symm (List.nodup_append.mp hids).1 fun row hrow => ?_
    have hmem : row ∈ d.world.journal.listPendingUnresolved := by
      rw [hrows]
      exact List.mem_append_left _ hrow
    obtain ⟨hintent, -, hpending⟩ := Journal.mem_listPendingUnresolved.mp hmem
    exact ⟨hintent, hpending⟩

/-- **Every run** of a fresh daemon keeps the journal sound. -/
theorem Daemon.Sound.run (config : Config) (b₀ : Book) (events : List Event) :
    Daemon.Sound (Daemon.fresh config b₀) events ((Daemon.fresh config b₀).run events) := by
  refine Machine.run_invariant_history (I := Daemon.Sound (Daemon.fresh config b₀)) ?_
    fun es e h => h.step rfl e
  refine ⟨⟨?_, ?_, ?_⟩, fun _ => ⟨EditStore.ofTable_quiet _, rfl⟩⟩
  · intro row hrow
    cases hrow
  · intro row hrow
    cases hrow
  · intro row hrow
    cases hrow

end Daichod
