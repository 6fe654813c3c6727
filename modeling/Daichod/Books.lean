import Daichod.Daemon
import Daichod.Rpc.Effect

/-!
# Daichod.Books

What a run does to the book, as long as no edit is left open and no other file is put in place
(`Event.Orderly`): the book in memory is the one in the database, and every event leaves it as
it is, or lists its splits anew when it loads it, or makes of it what the edit of one validated
mutation makes of it.

`Along.book` is the rule that the properties of books use: what every planned edit keeps, and
does not depend on the order of a list of splits, holds of the book in every state of a run,
whatever is rejected, declined, killed or restarted in it.

## Proof shape

`World.Holds b` says that both copies of the store are the book `b`, with nothing open. A call
that is not disturbed keeps that, for `b` or for `b` with its edit on it (`Mutation.Ran.holds`),
and the other events move the store as a whole. So a step has three outcomes, which
`Daemon.step_holds` lists once; an invariant of books has to answer for each of them, and never
sees a daemon.
-/

namespace Daichod

variable [Wire]

/-- Memory and database agree on the book. -/
structure World.Holds (w : World) (b : Book) : Prop where
  quiet : w.store.Quiet
  book : w.book = b

namespace World.Holds

variable {w : World} {b : Book}

/-- The file holds the same book. -/
theorem durableBook (h : w.Holds b) : w.durableBook = b :=
  (World.book_of_quiet h.quiet).symm.trans h.book

/-- What the journal says is no part of the book. -/
theorem setJournal (h : w.Holds b) (j : Journal) : (w.setJournal j).Holds b := ⟨h.quiet, h.book⟩

/-- Nor is whether it is open. -/
theorem setSession (h : w.Holds b) (s : Option OpenSession) : (w.setSession s).Holds b :=
  ⟨h.quiet, h.book⟩

/-- After the end of a process, memory is read from the database. -/
theorem die_of_durableBook (h : w.durableBook = b) : w.die.Holds b := ⟨World.die_quiet, h⟩

/-- A crash has nothing to take away from it. -/
theorem die (h : w.Holds b) : w.die.Holds b := die_of_durableBook h.durableBook

/-- A load lists the splits in its own order. -/
theorem load (h : w.Holds b) (o : LoadOrder) : (w.load o).Holds (b.relist o) :=
  ⟨World.load_quiet o w, by rw [World.load_book, h.durableBook]⟩

/-- However a task ended, the process lives on with the book or dies with it. -/
theorem afterTask {α : Type} {r : EStateM.Result Exn World α} (h : (worldAfter r).Holds b) :
    (Daemon.afterTask r).world.Holds b := by
  cases r with
  | ok a w => exact h
  | error e w =>
    cases e with
    | killed => exact h.die
    | shim s => exact h
    | queueFull => exact h
    | workerStopped => exact h
    | other what => exact h

end World.Holds

/-- An event that leaves no edit open behind it, and is not a change of book file. -/
def Event.Orderly : Event → Prop
  | .mutate _ fate => fate.recordPendingFault = none ∧ fate.finalStep.Returns
  | .restore _ => False
  | _ => True

variable [Engine] {m : Mutation} {fate : Fate} {w : World} {b : Book}

omit [Engine] in
/-- What the engine's last step leaves when it returns. -/
theorem Edit.finished_holds {edit : Edit m.Response} (hatomic : edit.Atomic) (h : w.Holds b)
    (hreturns : fate.finalStep.Returns) :
    (edit.finished fate w).Holds b ∨ (edit.finished fate w).Holds (edit.after b) := by
  cases hfinal : fate.finalStep with
  | commits =>
    right
    have hdecline := FinalStep.ne_declines_of_commits hfinal
    refine ⟨?_, ?_⟩
    · rw [Edit.finished_store hatomic h.quiet hdecline]
      exact EditStore.ofTable_quiet _
    · rw [Edit.finished_book hatomic h.quiet hdecline, h.book]
  | declines error =>
    left
    have hstore := Edit.finished_store_of_declines hatomic h.quiet hfinal
    refine ⟨hstore ▸ h.quiet, ?_⟩
    rw [← h.book]
    unfold Edit.finished at hstore ⊢
    rw [hfinal] at hstore ⊢
    exact congrArg (fun store : EditStore Entity => Book.mk w.rootAccount w.commodities
      store.working) hstore
  | throwsBefore what => rw [hfinal] at hreturns; exact hreturns.elim
  | throwsAfter what => rw [hfinal] at hreturns; exact hreturns.elim

/-- **One call**: the book stays, or becomes what the edit of the validated request makes of
it. -/
theorem Mutation.Ran.holds {r : EStateM.Result Exn World m.Response} (hran : m.Ran fate w r)
    (h : w.Holds b) (hpending : fate.recordPendingFault = none)
    (hreturns : fate.finalStep.Returns) :
    (Daemon.afterTask r).world.Holds b ∨
      ∃ edit, m.validated fate w = .ok edit ∧
        (Daemon.afterTask r).world.Holds (edit.after b) := by
  have hjournaled : (m.journaled fate w).Holds b := h.setJournal _
  -- Killed, recorded or returned: the last step is over, and only the journal moves on.
  have finished : ∀ {edit : Edit m.Response} {r : EStateM.Result Exn World m.Response},
      m.Reaches fate w edit →
      (∀ b', (edit.finished fate w).Holds b' → (worldAfter r).Holds b') →
      (Daemon.afterTask r).world.Holds b ∨
        ∃ edit, m.validated fate w = .ok edit ∧
          (Daemon.afterTask r).world.Holds (edit.after b) := by
    intro edit r hreach hr
    have hatomic := Mutation.validated_atomic hreach.valid
    rcases Edit.finished_holds hatomic h hreturns with hb | hb
    · exact Or.inl (World.Holds.afterTask (hr _ hb))
    · exact Or.inr ⟨edit, hreach.valid, World.Holds.afterTask (hr _ hb)⟩
  cases hran with
  | invalid hid => exact Or.inl (World.Holds.afterTask h)
  | intentFault hfault => exact Or.inl (World.Holds.afterTask h)
  | killedAfterIntent hcrash => exact Or.inl (World.Holds.afterTask hjournaled)
  | outcomeUnread hcode hfault => exact Or.inl (World.Holds.afterTask hjournaled)
  | replayed hrow hparse =>
    cases m.call.replay _ with
    | ok response => exact Or.inl hjournaled
    | error e => exact Or.inl hjournaled
  | refused happlies hvalid hcode => exact Or.inl (World.Holds.afterTask hjournaled)
  | verdictUnrecorded happlies hvalid hcode hfault he =>
    exact Or.inl (World.Holds.afterTask hjournaled)
  | verdict happlies hvalid hcode hj => exact Or.inl (World.Holds.afterTask (hjournaled.setJournal _))
  | pendingFault happlies hvalid hfault => rw [hpending] at hfault; cases hfault
  | killedAfterPending happlies hvalid hpending hcrash =>
    refine Or.inl (World.Holds.die_of_durableBook ?_)
    exact (Edit.pended_durableBook (Mutation.validated_atomic hvalid)).trans h.durableBook
  | threwBefore hreach hfinal => rw [hfinal] at hreturns; exact hreturns.elim
  | threwAfter hreach hfinal => rw [hfinal] at hreturns; exact hreturns.elim
  | killedAfterApply hreach hfinal hcrash => exact finished hreach fun _ hb => hb
  | outcomeFault hreach hfinal halive hfault he => exact finished hreach fun _ hb => hb
  | killedAfterOutcome hreach hfinal hfault hj hcrash =>
    exact finished hreach fun _ hb => hb.setJournal _
  | returned hreach hfinal halive hfault hj => exact finished hreach fun _ hb => hb.setJournal _

/-- **One event.** -/
theorem Daemon.step_holds {d : Daemon} {e : Event} (h : d.world.Holds b) (horderly : e.Orderly) :
    (d.step e).world.Holds b ∨
      (∃ o, e.loadOrder = some o ∧ (d.step e).world.Holds (b.relist o)) ∨
      ∃ m fate edit, e = .mutate m fate ∧ m.validated fate d.world = .ok edit ∧
        (d.step e).world.Holds (edit.after b) := by
  by_cases hserving : d.serving = true
  -- A serving daemon: only a call that gets to its last step, or a load, can make another book.
  · cases e with
    | start fate => simp only [Daemon.step, hserving, if_true]; exact Or.inl h
    | kill => exact Or.inl h.die
    | mutate m fate =>
      simp only [Daemon.step, hserving, if_true]
      rcases (m.ran fate d.world).holds h horderly.1 horderly.2 with hb | ⟨edit, hvalid, hb⟩
      · exact Or.inl hb
      · exact Or.inr (Or.inr ⟨m, fate, edit, rfl, hvalid, hb⟩)
    | openBook fate =>
      simp only [Daemon.step, hserving, if_true]
      have hworld := openBook_world fate d.world
      obtain ⟨s, hs | hs⟩ := Session.open_world fate d.world
      · exact Or.inl (World.Holds.afterTask (hworld.trans hs ▸ h.setSession s))
      · refine Or.inr (Or.inl ⟨_, rfl, World.Holds.afterTask ?_⟩)
        exact hworld.trans hs ▸ (h.load _).setSession s
    | closeBook fate =>
      simp only [Daemon.step, hserving, if_true]
      obtain ⟨s, hs⟩ := Session.close_quiet h.quiet fate
      exact Or.inl (World.Holds.afterTask (hs ▸ h.setSession s))
    | terminate fate =>
      simp only [Daemon.step, hserving, if_true]
      obtain ⟨s, hs⟩ := Session.close_quiet h.quiet fate
      exact Or.inl (hs ▸ (h.setSession s).die)
    | restore book => exact horderly.elim
  · cases e with
    | start fate =>
      -- A start that fails takes the process with it, but not the book it had loaded.
      have up : ∀ {b'}, (worldAfter (startUp fate d.world)).Holds b' →
          (d.step (.start fate)).world.Holds b' := by
        intro b' hup
        simp only [Daemon.step, hserving]
        cases hrun : startUp fate d.world with
        | ok u w' => rw [hrun] at hup; exact hup
        | error e w' => rw [hrun] at hup; exact hup.die
      obtain ⟨o, ho, s, settled, rest, j, -, -, hworld, -⟩ := startUp_settles h.quiet fate
      have hloaded := up (hworld ▸ ((h.load o).setJournal j).setSession s)
      rcases ho with rfl | rfl
      · rw [Book.relist_kept] at hloaded
        exact Or.inl hloaded
      · exact Or.inr (Or.inl ⟨_, rfl, hloaded⟩)
    | kill => exact Or.inl h.die
    | mutate m fate => simp only [Daemon.step, hserving]; exact Or.inl h
    | openBook fate => simp only [Daemon.step, hserving]; exact Or.inl h
    | closeBook fate => simp only [Daemon.step, hserving]; exact Or.inl h
    | terminate fate => simp only [Daemon.step, hserving]; exact Or.inl h
    | restore book => exact horderly.elim

/-- The conditions on a run under which its books are made by edits alone: the events are
orderly, and the engine draws GUIDs that are not in use. -/
def Daemon.Orderly (d : Daemon) (e : Event) : Prop :=
  e.Orderly ∧ ∀ m fate, e = .mutate m fate → fate.Fresh d.world.book

omit [Engine] in
/-- A fresh daemon has the book it was given, on disk. -/
theorem Daemon.fresh_holds (config : Config) (b₀ : Book) :
    (Daemon.fresh config b₀).world.Holds b₀ := ⟨EditStore.ofTable_quiet _, rfl⟩

/-- **Invariant rule for books**: what every planned edit and every load keep holds in every
state of an orderly run, in memory and in the database. The calls of the run may meet a
condition. -/
theorem Along.book_of_calls {I : Book → Prop} {C : Book → Mutation → Fate → Prop} {config : Config}
    {b₀ : Book} {events : List Event}
    (horderly : Machine.Along Daemon.step (fun d e => d.Orderly e ∧
      ∀ m fate, e = .mutate m fate → C d.world.book m fate) (Daemon.fresh config b₀) events)
    (hinit : I b₀) (hload : ∀ b o, I b → I (b.relist o))
    (hedit : ∀ (m : Mutation) fate b edit, I b → C b m fate → fate.Fresh b →
      m.plan fate b = .ok edit → I (edit.after b)) :
    ∃ b, ((Daemon.fresh config b₀).run events).world.Holds b ∧ I b := by
  refine horderly.invariant (I := fun d => ∃ b, d.world.Holds b ∧ I b)
    ⟨b₀, Daemon.fresh_holds config b₀, hinit⟩ ?_
  rintro d e ⟨b, hb, hI⟩ ⟨⟨he, hfresh⟩, hcall⟩
  rcases Daemon.step_holds hb he with hb' | ⟨o, -, hb'⟩ | ⟨m, fate, edit, rfl, hvalid, hb'⟩
  · exact ⟨b, hb', hI⟩
  · exact ⟨b.relist o, hb', hload b o hI⟩
  · have hplan := (Mutation.validated_ok hvalid).2.2
    have hfresh := hfresh m fate rfl
    have hcall := hcall m fate rfl
    rw [hb.book] at hplan hfresh hcall
    exact ⟨edit.after b, hb', hedit m fate b edit hI hcall hfresh hplan⟩

/-- The rule where calls meet no condition. -/
theorem Along.book {I : Book → Prop} {config : Config} {b₀ : Book} {events : List Event}
    (horderly : Machine.Along Daemon.step Daemon.Orderly (Daemon.fresh config b₀) events)
    (hinit : I b₀) (hload : ∀ b o, I b → I (b.relist o))
    (hedit : ∀ (m : Mutation) fate b edit, I b → fate.Fresh b → m.plan fate b = .ok edit →
      I (edit.after b)) :
    ∃ b, ((Daemon.fresh config b₀).run events).world.Holds b ∧ I b := by
  refine Along.book_of_calls (C := fun _ _ _ => True)
    (horderly.mono fun d e he => ⟨he, fun _ _ _ => trivial⟩) hinit hload ?_
  exact fun m fate b edit hI _ => hedit m fate b edit hI

end Daichod
