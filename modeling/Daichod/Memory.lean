import Daichod.Books

/-!
# Daichod.Memory

What a run does to the engine's memory when edits may be left open in it. `Edit.Ends` lists
the states of the store a call can leave once its edit has begun, whatever its fate, and
`Along.store` is the rule for what all of them keep. All it asks of a run is that the process
and the session come and go only while no edit is open (`Daemon.Tended`): what is in the
memory alone is lost otherwise.

`Edit.Leaves` reads the states entity by entity. The entity of the edit is as before, changed
with an edit still open on it, or settled; what else the edit touched is as before or changed.
-/

namespace Daichod

/-! ### Where a call leaves the store

A call that has begun its edit stops at one of four places: with the edit open, with the object
marked, committed or rolled back. The kill of the process on top of that is a reload. -/

namespace Edit

variable {Response : Type} {edit : Edit Response} {s s' : EditStore Entity}

/-- Where a call can leave the store once its edit has begun. -/
inductive Ends (edit : Edit Response) (s : EditStore Entity) : EditStore Entity → Prop
  | opened : edit.Ends s (edit.opening s)
  | marked : edit.Ends s (edit.marking (edit.opening s))
  | committed : edit.Ends s (edit.commit (edit.marking (edit.opening s)))
  | rolledBack : edit.Ends s (edit.rollback (edit.marking (edit.opening s)))

/-- What a call that began on a quiet store leaves in the database. -/
theorem Ends.reload (h : edit.Ends s s') (hatomic : edit.Atomic) (hquiet : s.Quiet) :
    s'.reload = s ∨ edit.Ends s s'.reload := by
  have hreload : ∀ {s'' : EditStore Entity}, s''.durable = s.durable → s''.reload = s := by
    intro s'' hdurable
    rw [hquiet.eq_ofTable]
    simp only [EditStore.reload, EditStore.ofTable, hdurable]
  cases h with
  | opened => exact Or.inl (hreload (hatomic.opening_durable s))
  | marked =>
    exact Or.inl (hreload ((hatomic.marking_durable _).trans (hatomic.opening_durable s)))
  | committed =>
    right
    have hcommit := hatomic.commit_quiet s.durable
    rw [← hquiet.eq_ofTable] at hcommit
    have hends : edit.Ends s (edit.commit (edit.marking (edit.opening s))) := .committed
    rw [hcommit] at hends ⊢
    exact hends
  | rolledBack =>
    left
    have hrollback := hatomic.rollback_quiet s.durable
    rw [← hquiet.eq_ofTable] at hrollback
    rw [hrollback]
    exact hquiet.reload_eq

end Edit

/-! ### What an edit leaves, entity by entity

`Edit.Leaves` is the same from the point of view of one entity, which is how an invariant of
entities wants it. One lemma for each of the ends, and one for the three kinds of edits. -/

namespace Edit

variable {Response : Type} {s s' : EditStore Entity} {ref : EntityRef}
  {change : Finmap Entity → Finmap Entity}

/-- What the edit of one entity can leave: the store is clean, every edit that was open is
still open, and the entities are as before, changed or settled. -/
structure Leaves (ref : EntityRef) (change : Finmap Entity → Finmap Entity)
    (s s' : EditStore Entity) : Prop where
  others : ∀ k ≠ ref, s'.working.lookup k = s.working.lookup k ∨
    s'.working.lookup k = (change s.working).lookup k
  self : s'.working.lookup ref = s.working.lookup ref ∨
    (s'.working.lookup ref = (change s.working).lookup ref ∧ Editing ref s') ∨
    (¬Editing ref s ∧
      s'.working.lookup ref = ((change s.working).lookup ref).bind (Entity.settle ref))
  editing : ∀ k, Editing k s → Editing k s'
  clean : s'.Clean

/-- A store on which an edit of `ref` has just changed the memory to `table`. -/
def changed (s : EditStore Entity) (ref : EntityRef) (J : Finset EntityRef)
    (table : Finmap Entity) : EditStore Entity :=
  { working := table, durable := s.durable, scopes := ⟨ref, J⟩ :: s.scopes }

/-- A store at level zero of `ref` again. -/
theorem decrementEditlevel_changed (J : Finset EntityRef) (table : Finmap Entity) :
    decrementEditlevel ref (changed s ref J table)
      = { s with working := if Editing ref s then table else settle ref table } := by
  have hclose : (changed s ref J table).close ref = { s with working := table } := by
    simp [changed, EditStore.close]
  have hediting : Editing ref { s with working := table } ↔ Editing ref s := Iff.rfl
  rw [decrementEditlevel, hclose]
  by_cases h : Editing ref s
  · simp only [hediting, h, if_true]
  · simp only [hediting, h, if_false]
    rfl

variable {J : Finset EntityRef}

/-- Nothing has happened yet. -/
theorem Leaves.self_of_begun (hclean : s.Clean) : Leaves ref change s s where
  others _ _ := Or.inl rfl
  self := Or.inl rfl
  editing _ h := h
  clean := hclean

/-- The edit is open. -/
theorem Leaves.of_changed (hclean : s.Clean)
    (htouches : ∀ k ∉ insert ref J, (change s.working).lookup k = s.working.lookup k) :
    Leaves ref change s (changed s ref J (change s.working)) where
  others _ _ := Or.inr rfl
  self := Or.inr (Or.inl ⟨rfl, ⟨_, List.mem_cons_self, rfl⟩⟩)
  editing _ h := h.imp fun _ h => ⟨List.mem_cons_of_mem _ h.1, h.2⟩
  clean k hk := by
    have hk : k ∉ insert ref J ∪ s.held := hk
    rw [Finset.mem_union, not_or] at hk
    exact (htouches k hk.1).trans (hclean k hk.2)

/-- The edit is committed. -/
theorem Leaves.of_flush :
    Leaves ref change s (decrementEditlevel ref (changed s ref J (change s.working))).flush := by
  rw [decrementEditlevel_changed]
  refine ⟨fun k hk => Or.inr ?_, ?_, fun _ h => h, EditStore.flush_clean _⟩
  · show (if Editing ref s then change s.working else settle ref (change s.working)).lookup k = _
    split
    · rfl
    · exact lookup_settle_ne hk
  · by_cases h : Editing ref s
    · refine Or.inr (Or.inl ⟨?_, h⟩)
      simp only [EditStore.flush, h, if_true]
    · refine Or.inr (Or.inr ⟨h, ?_⟩)
      simp only [EditStore.flush, h, if_false]
      exact lookup_settle_self ref

/-- The edit is rolled back. -/
theorem Leaves.of_revert (hclean : s.Clean) :
    Leaves ref change s
      (decrementEditlevel ref (changed s ref J (change s.working))).revert := by
  rw [decrementEditlevel_changed]
  have hlookup : ∀ k, (EditStore.revert { s with
      working := if Editing ref s then change s.working else settle ref (change s.working)
      }).working.lookup k = if k ∈ s.held then
        (if Editing ref s then change s.working else settle ref (change s.working)).lookup k
      else s.durable.lookup k := fun k => Finmap.lookup_overlay _ _ _ k
  -- what no open edit holds is read from the database again; the rest stays as the memory has it
  refine ⟨fun k hk => ?_, ?_, fun _ h => h, EditStore.revert_clean _⟩
  · rw [hlookup]
    split
    · right
      split
      · rfl
      · exact lookup_settle_ne hk
    · next hheld => exact Or.inl (hclean k hheld).symm
  · rw [hlookup]
    split
    · right
      by_cases h : Editing ref s
      · refine Or.inl ⟨?_, h⟩
        simp only [h, if_true]
      · refine Or.inr ⟨h, ?_⟩
        simp only [h, if_false]
        exact lookup_settle_self ref
    · next hheld => exact Or.inl (hclean ref hheld).symm

variable {joins : Finmap Entity → Finset EntityRef} {response : Response}

/-- An edit in place begins by changing the live object. -/
theorem opening_inPlace :
    (inPlace ref joins change response).opening s
      = changed s ref (joins s.working) (change s.working) := by
  simp [inPlace, changed, EditStore.beginEdit, EditStore.join, EditStore.write]

/-- What the edit of a live object leaves. -/
theorem Ends.leaves_inPlace (h : (inPlace ref joins change response).Ends s s') (hclean : s.Clean)
    (htouches : ∀ k ∉ insert ref (joins s.working),
      (change s.working).lookup k = s.working.lookup k) : Leaves ref change s s' := by
  have hopening : (inPlace ref joins change response).opening s
      = changed s ref (joins s.working) (change s.working) := opening_inPlace
  cases h with
  | opened => rw [hopening]; exact .of_changed hclean htouches
  | marked =>
    show Leaves ref change s ((inPlace ref joins change response).opening s)
    rw [hopening]
    exact .of_changed hclean htouches
  | committed =>
    show Leaves ref change s
      (decrementEditlevel ref ((inPlace ref joins change response).opening s)).flush
    rw [hopening]
    exact .of_flush
  | rolledBack =>
    show Leaves ref change s
      (decrementEditlevel ref ((inPlace ref joins change response).opening s)).revert
    rw [hopening]
    exact .of_revert hclean

/-- What a deletion leaves. -/
theorem Ends.leaves_destroy (h : (destroy ref change).Ends s s') (hclean : s.Clean)
    (htouches : ∀ k ≠ ref, (change s.working).lookup k = s.working.lookup k) :
    Leaves ref change s s' := by
  cases h with
  | opened => exact .self_of_begun hclean
  | marked =>
    refine Leaves.of_changed (J := ∅) hclean fun k hk => htouches k ?_
    simpa using hk
  | committed => exact Leaves.of_flush (J := ∅)
  | rolledBack => exact Leaves.of_revert (J := ∅) hclean

end Edit

/-- What a new price leaves: all that is not a price is as before. -/
theorem Edit.Ends.price_keeps [Engine] {guid : Guid} {p : Price} {s s' : EditStore Entity}
    (h : (Edit.price guid p).Ends s s') (hclean : s.Clean) :
    (∀ k, (∀ g, k ≠ .price g) → s'.working.lookup k = s.working.lookup k) ∧
      (∀ k, Editing k s → Editing k s') ∧ s'.Clean := by
  -- Closed again, the store has the price in memory and nothing else is new.
  have hclose : ((Edit.price guid p).opening s).close (.price guid)
      = { s with working := s.working.insert (.price guid) p } := by
    simp [Edit.price, EditStore.close, EditStore.write, EditStore.beginEdit]
  have hinsert : ∀ k, (∀ g, k ≠ EntityRef.price g) →
      (s.working.insert (.price guid) p).lookup k = s.working.lookup k :=
    fun k hk => Finmap.lookup_insert_of_ne _ (hk guid)
  have hopened : (∀ k, (∀ g, k ≠ EntityRef.price g) →
      ((Edit.price guid p).opening s).working.lookup k = s.working.lookup k) ∧
      (∀ k, Editing k s → Editing k ((Edit.price guid p).opening s)) ∧
      ((Edit.price guid p).opening s).Clean := by
    refine ⟨hinsert, fun k hk => hk.imp fun _ h => ⟨List.mem_cons_of_mem _ h.1, h.2⟩, ?_⟩
    intro k hk
    have hk : k ∉ insert (.price guid) ∅ ∪ s.held := hk
    simp only [insert_empty_eq, Finset.mem_union, Finset.mem_singleton, not_or] at hk
    exact (Finmap.lookup_insert_of_ne _ hk.1).trans (hclean k hk.2)
  cases h with
  | opened => exact hopened
  | marked => exact hopened
  | committed =>
    refine ⟨fun k hk => ?_, fun k hk => ?_, EditStore.flush_clean _⟩
    · show (gncPricedbAddPrice guid
        (((Edit.price guid p).opening s).close (.price guid)).working).lookup k = _
      rw [hclose, lookup_gncPricedbAddPrice_ne hk]
      exact hinsert k hk
    · show Editing k (((Edit.price guid p).opening s).close (.price guid))
      rw [hclose]
      exact hk
  | rolledBack =>
    refine ⟨fun k hk => ?_, fun k hk => ?_, EditStore.revert_clean _⟩
    · show ((((Edit.price guid p).opening s).close (.price guid)).revert).working.lookup k = _
      rw [hclose, EditStore.revert, Finmap.lookup_overlay]
      split
      · exact hinsert k hk
      · next hheld => exact (hclean k hheld).symm
    · show Editing k (((Edit.price guid p).opening s).close (.price guid))
      rw [hclose]
      exact hk

/-! ### Calls

From one edit to the calls: the worlds of `Mutation.Ran` differ in the journal, and their stores
are the ends of the edit. -/

variable [Wire]

/-- The part of the book that no mutation changes. -/
def World.header (w : World) : Guid × List Commodity := (w.rootAccount, w.commodities)

section Call

variable [Engine] {m : Mutation} {fate : Fate} {w : World}
  {r : EStateM.Result Exn World m.Response}

omit [Engine] in
/-- The engine's last step changes neither the root account nor the commodity table. -/
theorem Edit.finished_header {edit : Edit m.Response} :
    (edit.finished fate w).header = w.header := by
  unfold Edit.finished
  split <;> rfl

omit [Engine] in
/-- It commits or rolls back. -/
theorem Edit.finished_ends {edit : Edit m.Response} :
    edit.Ends w.store (edit.finished fate w).store := by
  unfold Edit.finished
  split
  · exact .rolledBack
  · exact .committed

omit [Engine] in
/-- What the edit of a live object leaves when the engine's last step returns: the change as a
whole if it is accepted, else the part of it that earlier edits still hold. -/
theorem Edit.finished_lookup {ref : EntityRef} {joins : Finmap Entity → Finset EntityRef}
    {change : Finmap Entity → Finmap Entity} {response : m.Response} (hclean : w.store.Clean)
    (hfinal : fate.finalStep.Returns) (k : EntityRef) :
    ((inPlace ref joins change response).finished fate w).store.working.lookup k
      = if fate.finalStep = .commits ∨ k ∈ w.store.held then
          (if Editing ref w.store then change w.store.working
            else settle ref (change w.store.working)).lookup k
        else w.store.working.lookup k := by
  have hclosed : decrementEditlevel ref ((inPlace ref joins change response).marked fate w).store
      = { w.store with working := if Editing ref w.store then change w.store.working
            else settle ref (change w.store.working) } := by
    show decrementEditlevel ref ((inPlace ref joins change response).opening w.store) = _
    rw [opening_inPlace, decrementEditlevel_changed]
  unfold Edit.finished
  cases hf : fate.finalStep with
  | commits =>
    show (decrementEditlevel ref _).flush.working.lookup k = _
    rw [hclosed]
    exact (if_pos (Or.inl rfl)).symm
  | declines error =>
    show (decrementEditlevel ref _).revert.working.lookup k = _
    rw [hclosed, EditStore.revert, Finmap.lookup_overlay]
    by_cases hk : k ∈ w.store.held
    · rw [if_pos (Or.inr hk)]
      exact if_pos hk
    · rw [if_neg (not_or.mpr ⟨by simp, hk⟩), hclean k hk]
      exact if_neg hk
  | throwsBefore what => rw [hf] at hfinal; exact hfinal.elim
  | throwsAfter what => rw [hf] at hfinal; exact hfinal.elim

omit [Engine] in
/-- The engine's last step leaves the session open. -/
theorem Edit.finished_session {edit : Edit m.Response} :
    (edit.finished fate w).session.isSome = w.session.isSome := by
  unfold Edit.finished
  split
  · exact Option.isSome_map
  · rfl

/-- A call that is answered OK has replayed a recorded outcome, or run its edit to the end. -/
theorem Mutation.Ran.of_ok {response : m.Response} {w' : World}
    (hran : m.Ran fate w (.ok response w')) :
    (w' = m.journaled fate w ∧ ∃ row recorded, w.journal.resolved m.mutationId = some row ∧
      Wire.outcome.parse row.outcome = some recorded ∧ m.call.replay recorded = .ok response) ∨
    (w.journal.resolved m.mutationId = none ∧ ∃ edit j, m.Reaches fate w edit ∧
      fate.finalStep.Returns ∧ response = edit.response ∧
      w' = (edit.finished fate w).setJournal j) := by
  generalize hr : EStateM.Result.ok response w' = r at hran
  cases hran with
  | replayed hrow hparse =>
    left
    cases hreplay : m.call.replay _ with
    | error e => rw [hreplay] at hr; cases hr
    | ok response' =>
      rw [hreplay] at hr
      cases hr
      exact ⟨rfl, _, _, hrow, hparse, hreplay⟩
  | returned hreach hfinal halive hfault hj =>
    cases hr
    exact Or.inr ⟨hreach.unresolved, _, _, hreach, hfinal, rfl, rfl⟩
  | _ => cases hr

/-- A call performs its edit of an entity: its mutation id is new, and the engine accepts the
commit or an earlier edit still holds the entity. -/
def Performs (m : Mutation) (fate : Fate) (w : World) (ref : EntityRef) : Prop :=
  w.journal.resolved m.mutationId = none ∧
    (fate.finalStep = .commits ∨ ref ∈ w.store.held)

/-- **One call**: the store stays, or is left where the edit of the validated request ends. -/
theorem Mutation.Ran.ends (hran : m.Ran fate w r) :
    (worldAfter r).header = w.header ∧
      ((worldAfter r).store = w.store ∨ ∃ edit, m.validated fate w = .ok edit ∧
        edit.Ends w.store (worldAfter r).store) := by
  cases hran with
  | invalid hid => exact ⟨rfl, Or.inl rfl⟩
  | intentFault hfault => exact ⟨rfl, Or.inl rfl⟩
  | killedAfterIntent hcrash => exact ⟨rfl, Or.inl rfl⟩
  | outcomeUnread hcode hfault => exact ⟨rfl, Or.inl rfl⟩
  | replayed hrow hparse =>
    cases m.call.replay _ with
    | ok response => exact ⟨rfl, Or.inl rfl⟩
    | error e => exact ⟨rfl, Or.inl rfl⟩
  | refused happlies hvalid hcode => exact ⟨rfl, Or.inl rfl⟩
  | verdictUnrecorded happlies hvalid hcode hfault he => exact ⟨rfl, Or.inl rfl⟩
  | verdict happlies hvalid hcode hj => exact ⟨rfl, Or.inl rfl⟩
  -- `record_pending` throws, and the edit stays open
  | pendingFault happlies hvalid hfault => exact ⟨rfl, Or.inr ⟨_, hvalid, .opened⟩⟩
  | killedAfterPending happlies hvalid hpending hcrash =>
    exact ⟨rfl, Or.inr ⟨_, hvalid, .opened⟩⟩
  -- all other ends are at the engine's last step or behind it
  | threwBefore hreach hfinal => exact ⟨rfl, Or.inr ⟨_, hreach.valid, .marked⟩⟩
  | threwAfter hreach hfinal =>
    exact ⟨Edit.finished_header, Or.inr ⟨_, hreach.valid, Edit.finished_ends⟩⟩
  | killedAfterApply hreach hfinal hcrash =>
    exact ⟨Edit.finished_header, Or.inr ⟨_, hreach.valid, Edit.finished_ends⟩⟩
  | outcomeFault hreach hfinal halive hfault he =>
    exact ⟨Edit.finished_header, Or.inr ⟨_, hreach.valid, Edit.finished_ends⟩⟩
  | killedAfterOutcome hreach hfinal hfault hj hcrash =>
    exact ⟨Edit.finished_header, Or.inr ⟨_, hreach.valid, Edit.finished_ends⟩⟩
  | returned hreach hfinal halive hfault hj =>
    exact ⟨Edit.finished_header, Or.inr ⟨_, hreach.valid, Edit.finished_ends⟩⟩

omit [Engine] in
/-- A task leaves its world, or what is left of it when the process is gone. -/
theorem Daemon.afterTask_world {α : Type} (r : EStateM.Result Exn World α) :
    (Daemon.afterTask r).world = worldAfter r ∨
      (Daemon.afterTask r).world = (worldAfter r).die := by
  cases r with
  | ok a w => exact Or.inl rfl
  | error e w =>
    cases e with
    | killed => exact Or.inr rfl
    | shim s => exact Or.inl rfl
    | queueFull => exact Or.inl rfl
    | workerStopped => exact Or.inl rfl
    | other what => exact Or.inl rfl

/-- A call whose validation ends, and that meets no crash point, leaves the process alive. -/
theorem Mutation.Ran.afterTask (hran : m.Ran fate w r) (hcrash : fate.crashAt = none)
    (hends : m.validated fate w ≠ .error .killed) :
    (Daemon.afterTask r).world = worldAfter r := by
  cases hran with
  | replayed hrow hparse =>
    cases m.call.replay _ with
    | ok response => rfl
    | error e => rfl
  | @refused e happlies hvalid hcode =>
    cases e with
    | killed => exact absurd hvalid hends
    | shim s => rfl
    | queueFull => rfl
    | workerStopped => rfl
    | other what => rfl
  | killedAfterIntent hcrash' => rw [hcrash] at hcrash'; cases hcrash'
  | killedAfterPending _ _ _ hcrash' => rw [hcrash] at hcrash'; cases hcrash'
  | killedAfterApply _ _ hcrash' => rw [hcrash] at hcrash'; cases hcrash'
  | killedAfterOutcome _ _ _ _ hcrash' => rw [hcrash] at hcrash'; cases hcrash'
  | _ => rfl

/-- Validation goes on for ever only over the book. -/
theorem Mutation.validated_killed (h : m.validated fate w = .error .killed) :
    m.plan fate w.book = .error .killed := by
  unfold validated at h
  cases hpre : m.precheck with
  | error e => rw [hpre] at h; cases h
  | ok u =>
    rw [hpre] at h
    unfold openBookCheck at h
    split at h
    · cases h
    · exact h

end Call

/-! ### Runs

An event leaves the store as it is, loads it, or brings a call's edit to one of its ends
(`Daemon.step_ends`). `Along.store` is the induction over the run, with one premise for each of
the three. -/

variable [Engine]

/-- The process and the session come and go only while no edit is open, no other file is put
in place, and the engine draws GUIDs that are not in use. -/
def Daemon.Tended (d : Daemon) : Event → Prop
  | .mutate _ fate => fate.Fresh d.world.book ∧ (fate.crashAt ≠ none → d.world.store.Quiet)
  | .start _ => True
  | .restore _ => False
  | .openBook _ | .closeBook _ | .terminate _ | .kill => d.world.store.Quiet

omit [Engine] in
/-- A quiet store loses nothing with the process. -/
theorem World.die_store_of_quiet {w : World} (hquiet : w.store.Quiet) : w.die.store = w.store :=
  hquiet.reload_eq

omit [Engine] in
/-- A task that only touches the session. -/
theorem Daemon.afterTask_of_session {α : Type} {r : EStateM.Result Exn World α} {w : World}
    {s : Option OpenSession} (hquiet : w.store.Quiet) (hs : worldAfter r = w.setSession s) :
    (Daemon.afterTask r).world.header = w.header ∧ (Daemon.afterTask r).world.store = w.store := by
  rcases Daemon.afterTask_world r with hworld | hworld
  · rw [hworld, hs]
    exact ⟨rfl, rfl⟩
  · rw [hworld, hs]
    exact ⟨rfl, World.die_store_of_quiet hquiet⟩

/-- **One event.** -/
theorem Daemon.step_ends {d : Daemon} {e : Event} (hdown : d.Down) (htended : d.Tended e)
    (hends : ∀ m fate, e = .mutate m fate → m.plan fate d.world.book ≠ .error .killed) :
    (d.step e).world.header = d.world.header ∧
      ((d.step e).world.store = d.world.store ∨
        (d.world.store.Quiet ∧
          ∃ o : LoadOrder, (d.step e).world.store = d.world.store.load o.entity) ∨
        ∃ (m : Mutation) (fate : Fate) (edit : Edit m.Response), e = .mutate m fate ∧
          m.validated fate d.world = .ok edit ∧
          edit.Ends d.world.store (d.step e).world.store) := by
  have idle : ∀ e, d.step e = d → (d.step e).world.header = d.world.header ∧
      (d.step e).world.store = d.world.store := by
    intro e heq
    rw [heq]
    exact ⟨rfl, rfl⟩
  by_cases hserving : d.serving = true
  · cases e with
    | start fate =>
      refine (idle _ ?_).imp id Or.inl
      simp only [Daemon.step, hserving, if_true]
    | kill => exact ⟨rfl, Or.inl (World.die_store_of_quiet htended)⟩
    | mutate m fate =>
      simp only [Daemon.step, hserving, if_true]
      have hran := m.ran fate d.world
      obtain ⟨hheader, hstore⟩ := hran.ends
      -- a call that nothing kills leaves its world as it is
      have halive : fate.crashAt = none →
          (Daemon.afterTask (m.run fate d.world)).world = worldAfter (m.run fate d.world) :=
        fun hcrash => hran.afterTask hcrash fun hkilled =>
          hends m fate rfl (Mutation.validated_killed hkilled)
      rcases Daemon.afterTask_world (m.run fate d.world) with hworld | hworld
      · rw [hworld]
        refine ⟨hheader, hstore.imp id fun hended => Or.inr ?_⟩
        obtain ⟨edit, hvalid, h⟩ := hended
        exact ⟨m, fate, edit, rfl, hvalid, h⟩
      -- a kill is tended: the store was quiet before the call, so at most its own edit is lost
      · by_cases hcrash : fate.crashAt = none
        · rw [halive hcrash]
          refine ⟨hheader, hstore.imp id fun hended => Or.inr ?_⟩
          obtain ⟨edit, hvalid, h⟩ := hended
          exact ⟨m, fate, edit, rfl, hvalid, h⟩
        · have hquiet := htended.2 hcrash
          rw [hworld]
          refine ⟨hheader, ?_⟩
          rcases hstore with heq | ⟨edit, hvalid, h⟩
          · left
            show (worldAfter (m.run fate d.world)).store.reload = _
            rw [heq, hquiet.reload_eq]
          · refine (h.reload (Mutation.validated_atomic hvalid) hquiet).imp id ?_
            exact fun h => Or.inr ⟨m, fate, edit, rfl, hvalid, h⟩
    | openBook fate =>
      simp only [Daemon.step, hserving, if_true]
      have hworld := openBook_world fate d.world
      obtain ⟨s, hs | hs⟩ := Session.open_world fate d.world
      · exact (Daemon.afterTask_of_session htended (hworld.trans hs)).imp id Or.inl
      · refine (Daemon.afterTask_of_session (World.load_quiet _ _) (hworld.trans hs)).imp id ?_
        exact fun hstore => Or.inr (Or.inl ⟨htended, _, hstore⟩)
    | closeBook fate =>
      simp only [Daemon.step, hserving, if_true]
      obtain ⟨s, hs⟩ := Session.close_quiet htended fate
      exact (Daemon.afterTask_of_session htended hs).imp id Or.inl
    | terminate fate =>
      simp only [Daemon.step, hserving, if_true]
      obtain ⟨s, hs⟩ := Session.close_quiet htended fate
      rw [hs]
      exact ⟨rfl, Or.inl (World.die_store_of_quiet htended)⟩
    | restore book => exact htended.elim
  · cases e with
    | start fate =>
      have hquiet := (hdown (by simpa using hserving)).1
      simp only [Daemon.step, hserving]
      obtain ⟨o, -, s, settled, rest, j, -, -, hworld, -⟩ := startUp_settles hquiet fate
      cases hrun : startUp fate d.world with
      | ok u w' =>
        rw [hrun] at hworld
        have hw' : w' = ((d.world.load o).setJournal j).setSession s := hworld
        rw [hw']
        exact ⟨rfl, Or.inr (Or.inl ⟨hquiet, o, rfl⟩)⟩
      | error e w' =>
        rw [hrun] at hworld
        have hw' : w' = ((d.world.load o).setJournal j).setSession s := hworld
        rw [hw']
        exact ⟨rfl, Or.inr (Or.inl ⟨hquiet, o, World.die_store_of_quiet (World.load_quiet _ _)⟩)⟩
    | kill => exact ⟨rfl, Or.inl (World.die_store_of_quiet htended)⟩
    | mutate m fate => exact (idle _ (by simp only [Daemon.step, hserving]; rfl)).imp id Or.inl
    | openBook fate => exact (idle _ (by simp only [Daemon.step, hserving]; rfl)).imp id Or.inl
    | closeBook fate => exact (idle _ (by simp only [Daemon.step, hserving]; rfl)).imp id Or.inl
    | terminate fate => exact (idle _ (by simp only [Daemon.step, hserving]; rfl)).imp id Or.inl
    | restore book => exact htended.elim

omit [Wire] [Engine] in
/-- The book that a load makes of a store without open edits. -/
theorem Book.setEntities_load {s : EditStore Entity} (h : s.Quiet) (b₀ : Book) (o : LoadOrder) :
    b₀.setEntities (s.load o.entity).working = (b₀.setEntities s.working).relist o := by
  rw [EditStore.load_working, h.working_eq]
  rfl

omit [Wire] [Engine] in
/-- A transaction that it has then was there, in some order. -/
theorem Book.exists_of_load {s : EditStore Entity} (h : s.Quiet) {o : LoadOrder} {g : Guid}
    {r : Transaction} (hr : (s.load o.entity).working.lookup (.transaction g) = some r) :
    ∃ t : Transaction, s.working.lookup (.transaction g) = some t ∧ t.Relisted r := by
  rw [EditStore.load_working, Finmap.lookup_mapVals, ← h.working_eq] at hr
  obtain ⟨t, ht, rfl⟩ := Option.map_eq_some_iff.mp hr
  exact ⟨t, ht, o.transaction_relisted g t⟩

/-- **Invariant rule for the memory**: what every end of every planned edit keeps, and every
load of a store without open edits, holds of the store in every state of a tended run. -/
theorem Along.store {I : EditStore Entity → Prop} {config : Config} {b₀ : Book}
    {events : List Event}
    (htended : Machine.Along Daemon.step Daemon.Tended (Daemon.fresh config b₀) events)
    (hinit : I (EditStore.ofTable b₀.entities))
    (hload : ∀ (s : EditStore Entity) (o : LoadOrder), s.Quiet → I s → I (s.load o.entity))
    (hends : ∀ (m : Mutation) fate s, I s →
      m.plan fate (b₀.setEntities s.working) ≠ .error .killed)
    (hedit : ∀ (m : Mutation) fate s s' edit, I s → fate.Fresh (b₀.setEntities s.working) →
      m.plan fate (b₀.setEntities s.working) = .ok edit → edit.Ends s s' → I s') :
    let w := ((Daemon.fresh config b₀).run events).world
    I w.store ∧ w.book = b₀.setEntities w.store.working := by
  have hbook : ∀ w : World, w.header = (b₀.rootAccount, b₀.commodities) →
      w.book = b₀.setEntities w.store.working := by
    intro w hw
    obtain ⟨hroot, hcommodities⟩ := Prod.mk.inj hw
    rw [World.book, hroot, hcommodities, Book.setEntities]
  suffices h : Daemon.Down ((Daemon.fresh config b₀).run events) ∧
      ((Daemon.fresh config b₀).run events).world.header = (b₀.rootAccount, b₀.commodities) ∧
      I ((Daemon.fresh config b₀).run events).world.store from ⟨h.2.2, hbook _ h.2.1⟩
  -- along the run: a daemon that is down is quiet, the header is the first book's, and the
  -- invariant holds
  refine htended.invariant (I := fun d : Daemon => d.Down ∧
    d.world.header = (b₀.rootAccount, b₀.commodities) ∧ I d.world.store)
    ⟨fun _ => ⟨EditStore.ofTable_quiet _, rfl⟩, rfl, hinit⟩ ?_
  intro d e hinv he
  obtain ⟨hdown, hheader, hI⟩ := hinv
  have hplan : ∀ m fate, e = .mutate m fate → m.plan fate d.world.book ≠ .error .killed := by
    intro m fate _
    rw [hbook _ hheader]
    exact hends m fate _ hI
  obtain ⟨hheader', hstore⟩ := Daemon.step_ends hdown he hplan
  refine ⟨hdown.step e, hheader'.trans hheader, ?_⟩
  rcases hstore with heq | ⟨hquiet, o, heq⟩ | ⟨m, fate, edit, rfl, hvalid, h⟩
  · rw [heq]
    exact hI
  · rw [heq]
    exact hload _ o hquiet hI
  · have hplan := (Mutation.validated_ok hvalid).2.2
    have hfresh : fate.Fresh d.world.book := he.1
    rw [hbook _ hheader] at hplan hfresh
    exact hedit m fate _ _ edit hI hfresh hplan h

end Daichod
