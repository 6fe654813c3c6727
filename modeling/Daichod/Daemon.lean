import Daichod.Journal.Recovery
import Daichod.Library.Machine
import Daichod.Rpc.Dispatch

/-!
# Daichod.Daemon

The daemon as a machine (`main.cpp`): start-up, the requests it serves one at a time on the
engine thread, its end, and what survives it.

A process that dies or exits loses its memory and its session (`World.die`); the journal
and the durable book stay, and the next load of it decides anew how the splits are listed
(`World.load`). `Daemon.step` is total: an event that cannot happen in a state
(a request to a process that is not running, a second instance while one holds the locks)
changes nothing.
-/

namespace Daichod

variable [Wire] [Engine]

/-- The process is gone: only what is on disk remains. -/
def World.die (w : World) : World := { w.onStore EditStore.reload with session := none }

/-! ### Start-up -/

/-- What the surroundings decide about one start of the process. -/
structure StartFate where
  journalFault : Option SqliteError
  openFate : OpenFate
  /-- The order in which the engine's query lists the splits. -/
  listing : Session.SplitListing
  reconcile : ReconcileFate
  listFault : Option SqliteError

/-- `Journal::Open`: the schema is there or is created. -/
def Journal.«open» (fault : Option SqliteError) : Exec Unit := Journal.statement fault (pure ())

/-- `Journal::ListIndeterminate`. -/
def Journal.indeterminate (fault : Option SqliteError) : Exec (List Intent) :=
  Journal.statement fault do return (← get).journal.listIndeterminate

/-- Reconciliation against the open book, as `Run` calls it. -/
def reconcileBook (fate : ReconcileFate) : Exec Unit := do
  let book ← Session.book
  let _ ← reconcilePendingMutations fate book
  modify fun w => { w with session := w.session.map ({ · with reconciled := true }) }

/-- The steps of `Run` from the sidecar journal to serving. -/
def startUp (fate : StartFate) : Exec Unit := do
  Journal.«open» fate.journalFault
  Session.«open» fate.openFate
  Session.runStartupChecks fate.listing
  reconcileBook fate.reconcile
  let _ ← Journal.indeterminate fate.listFault

/-- The `OpenBook` handler, up to the fields of its reply. -/
def openBook (fate : OpenFate) : Exec Book := do
  Session.«open» fate
  Session.book

/-! ### Events -/

/-- The daemon: its world, and whether it is running. -/
structure Daemon where
  world : World
  serving : Bool

/-- What can happen to a daemon. -/
inductive Event
  | start (fate : StartFate)
  | mutate (m : Mutation) (fate : Fate)
  | openBook (fate : OpenFate)
  | closeBook (fate : CloseFate)
  /-- SIGTERM: the book is closed and the process exits. -/
  | terminate (fate : CloseFate)
  /-- SIGKILL, or a power failure. -/
  | kill
  /-- Another book file is put in place while no session has it open. -/
  | restore (book : Book)

/-- The order of the splits, should the event load the book. -/
def Event.loadOrder : Event → Option LoadOrder
  | .start fate => some fate.openFate.loadOrder
  | .openBook fate => some fate.loadOrder
  | _ => none

namespace Daemon

/-- The daemon after a task on its engine thread. -/
def afterTask {α : Type} : EStateM.Result Exn World α → Daemon
  | .error .killed w => ⟨w.die, false⟩
  | r => ⟨worldAfter r, true⟩

/-- The daemon after a start-up: a failed one exits. -/
def afterStartUp : EStateM.Result Exn World Unit → Daemon
  | .ok _ w => ⟨w, true⟩
  | .error _ w => ⟨w.die, false⟩

/-- One event. -/
def step (d : Daemon) : Event → Daemon
  | .start fate => if d.serving then d else afterStartUp (startUp fate d.world)
  | .mutate m fate => if d.serving then afterTask (m.run fate d.world) else d
  | .openBook fate => if d.serving then afterTask (Daichod.openBook fate d.world) else d
  | .closeBook fate => if d.serving then afterTask (Session.close fate d.world) else d
  | .terminate fate =>
    if d.serving then ⟨(worldAfter (Session.close fate d.world)).die, false⟩ else d
  | .kill => ⟨d.world.die, false⟩
  | .restore book =>
    if d.world.session.isNone then
      { d with
        world := { d.world with
          rootAccount := book.rootAccount
          commodities := book.commodities
          store := EditStore.ofTable book.entities } }
    else d

/-- The daemon after a run. -/
abbrev run (d : Daemon) (events : List Event) : Daemon := Machine.run step d events

/-- Not running, over a book and a fresh journal. -/
def fresh (config : Config) (b : Book) : Daemon where
  world :=
    { config
      journal := Journal.empty
      rootAccount := b.rootAccount
      commodities := b.commodities
      store := EditStore.ofTable b.entities
      session := none }
  serving := false

end Daemon

/-- An event that neither starts nor ends the process. -/
def Event.InProcess : Event → Prop
  | .mutate .. | .openBook _ | .closeBook _ => True
  | _ => False

/-- The mutating calls of a run, in order. -/
def calls (events : List Event) : List (Mutation × Fate) :=
  events.filterMap fun
    | .mutate m fate => some (m, fate)
    | _ => none

omit [Wire] [Engine] in
/-- The calls of a run in two parts. -/
@[simp] theorem calls_append (events events' : List Event) :
    calls (events ++ events') = calls events ++ calls events' := List.filterMap_append

/-! ### Tasks on a quiet store

Outside a call the live book and the durable one hold the same, and no edit is open: that is a
quiet store. What the daemon runs besides calls keeps it. -/

section Quiet

variable {w : World}

omit [Engine] in
/-- A process that is gone leaves no open edit. -/
theorem World.die_quiet : w.die.store.Quiet := EditStore.reload_quiet _

omit [Engine] in
/-- Opening a session changes nothing else, unless it loads the book. -/
theorem Session.open_world (fate : OpenFate) (w : World) :
    ∃ s, worldAfter (Session.«open» fate w) = w.setSession s ∨
      worldAfter (Session.«open» fate w) = (w.load fate.loadOrder).setSession s := by
  rcases Session.open_cases fate w with ⟨-, hrun⟩ | ⟨-, -, e, hrun⟩ | ⟨-, -, hrun⟩
  · exact ⟨w.session, Or.inl (by rw [hrun]; rfl)⟩
  · exact ⟨w.session, Or.inl (by rw [hrun]; rfl)⟩
  · refine ⟨some { error := none, checked := false, reconciled := false }, Or.inr ?_⟩
    rw [hrun]
    rfl

omit [Engine] in
/-- Closing a session on a quiet store changes nothing else. -/
theorem Session.close_quiet (hquiet : w.store.Quiet) (fate : CloseFate) :
    ∃ s, worldAfter (Session.close fate w) = w.setSession s := by
  rcases Session.close_cases fate w with ⟨-, hrun⟩ | ⟨-, -, hworld⟩ | ⟨-, -, -, hrun⟩
  · exact ⟨w.session, by rw [hrun]; rfl⟩
  · exact ⟨none, hworld⟩
  · refine ⟨none, ?_⟩
    rw [hrun, World.onStore_eq_self hquiet.save_eq]
    rfl

/-- Whatever the verdict, the checks touch the session only. -/
theorem Session.runStartupChecks_session (listing : Session.SplitListing) (w : World) :
    ∃ s, worldAfter (Session.runStartupChecks listing w) = w.setSession s := by
  unfold Session.runStartupChecks
  rw [run_bind, Session.run_book]
  by_cases hs : w.session.isNone = true
  · simp only [hs, if_true]
    exact ⟨w.session, rfl⟩
  · simp only [hs]
    cases Session.startupChecks listing with
    | error e => exact ⟨w.session, rfl⟩
    | ok u => exact ⟨w.session.map ({ · with checked := true }), rfl⟩

omit [Engine] in
/-- The `OpenBook` handler leaves what `Session::Open` leaves. -/
theorem openBook_world (fate : OpenFate) (w : World) :
    worldAfter (openBook fate w) = worldAfter (Session.«open» fate w) := by
  unfold openBook
  rw [run_bind]
  cases Session.«open» fate w with
  | error e w' => rfl
  | ok u w' =>
    dsimp only
    rw [Session.run_book]
    split <;> rfl

omit [Engine] in
/-- Opening the journal changes no row. -/
theorem Journal.open_world (fault : Option SqliteError) (w : World) :
    worldAfter (Journal.«open» fault w) = w := by
  cases fault <;> rfl

omit [Engine] in
/-- Nor does listing it. -/
theorem Journal.indeterminate_world (fault : Option SqliteError) (w : World) :
    worldAfter (Journal.indeterminate fault w) = w := by
  cases fault <;> rfl

omit [Engine] in
/-- A process that ends leaves nothing in memory. -/
theorem World.die_session : w.die.session = none := rfl

omit [Engine] in
/-- Closing and opening the book leave the journal alone, whatever the store. -/
theorem Session.close_journal (fate : CloseFate) (w : World) :
    (worldAfter (Session.close fate w)).journal = w.journal := by
  rcases Session.close_cases fate w with ⟨-, hrun⟩ | ⟨-, -, hworld⟩ | ⟨-, -, -, hrun⟩
  · rw [hrun]; rfl
  · rw [hworld]
  · rw [hrun]; rfl

omit [Engine] in
/-- Opening the book leaves the journal alone. -/
theorem openBook_journal (fate : OpenFate) (w : World) :
    (worldAfter (openBook fate w)).journal = w.journal := by
  rw [openBook_world]
  rcases Session.open_world fate w with ⟨s, hworld | hworld⟩
  · rw [hworld]; rfl
  · rw [hworld]; rfl

/-! ### What a start leaves

A start opens the journal and the book, runs the startup checks and settles the journal, and it may
fail at any of these. Whatever became of it, some of the pending rows are settled and nothing else
is written to the journal. -/

/-- A task has settled unresolved records of `w`, in order and all of them if it returned,
and has changed nothing else but the session. -/
def Settles {α : Type} (now : Int64) (w : World) (r : EStateM.Result Exn World α) : Prop :=
  ∃ s settled rest j, w.journal.listPendingUnresolved.map Journal.pendingEntry = settled ++ rest ∧
    Journal.Reconciled w.book now settled w.journal j ∧
    worldAfter r = (w.setJournal j).setSession s ∧ (Returned r → rest = [])

variable {α β : Type} {now : Int64}

/-- A first step that only touches the session settles nothing. -/
theorem Settles.bind_left {x : Exec α} {f : α → Exec β}
    (hx : ∃ s, worldAfter (x w) = w.setSession s)
    (hf : ∀ a s, Settles now (w.setSession s) (f a (w.setSession s))) :
    Settles now w ((x >>= f) w) := by
  obtain ⟨s, hs⟩ := hx
  rw [run_bind]
  cases hrun : x w with
  | error e w' =>
    rw [hrun] at hs
    exact ⟨s, [], _, w.journal, rfl, .nil _, hs, fun h => h.elim⟩
  | ok a w' =>
    rw [hrun] at hs
    have hw' : w' = w.setSession s := hs
    rw [hw']
    exact hf a s

/-- A last step that changes nothing. -/
theorem Settles.bind_right {x : Exec α} {f : α → Exec β} (hx : Settles now w (x w))
    (hf : ∀ a w', worldAfter (f a w') = w') : Settles now w ((x >>= f) w) := by
  obtain ⟨s, settled, rest, j, hsplit, hrec, hworld, hret⟩ := hx
  rw [run_bind]
  cases hrun : x w with
  | error e w' =>
    rw [hrun] at hworld
    exact ⟨s, settled, rest, j, hsplit, hrec, hworld, fun h => h.elim⟩
  | ok a w' =>
    rw [hrun] at hworld hret
    exact ⟨s, settled, rest, j, hsplit, hrec, (hf a w').trans hworld, fun _ => hret trivial⟩

/-- The reconciling step settles the pending rows against the open book, if there is one. -/
theorem reconcileBook_settles (fate : ReconcileFate) (w : World) :
    Settles fate.now w (reconcileBook fate w) := by
  unfold reconcileBook
  by_cases hs : w.session.isNone = true
  · have hbook : Session.book w = .error (.shim ⟨.bookNotOpen, "no book is open", ""⟩) w := by
      rw [Session.run_book, if_pos hs]
    rw [run_bind_error hbook]
    exact ⟨w.session, [], _, w.journal, rfl, .nil _, rfl, fun h => h.elim⟩
  · have hbook : Session.book w = .ok w.book w := by
      rw [Session.run_book, if_neg hs]
    rw [run_bind_ok hbook]
    obtain ⟨settled, rest, j, hsplit, hrec, hworld, hret⟩ :=
      reconcilePendingMutations_ran fate w.book w
    rw [run_bind]
    cases hrun : reconcilePendingMutations fate w.book w with
    | error e w' =>
      rw [hrun] at hworld
      exact ⟨w.session, settled, rest, j, hsplit, hrec, hworld, fun h => h.elim⟩
    | ok n w' =>
      rw [hrun] at hworld hret
      have hw' : w' = w.setJournal j := hworld
      subst hw'
      exact ⟨_, settled, rest, j, hsplit, hrec, rfl, fun _ => hret trivial⟩

/-- The steps of a start behind the opening of the book. -/
theorem settles_of_opened (fate : StartFate) (w : World) :
    Settles fate.reconcile.now w ((do
      Session.runStartupChecks fate.listing
      reconcileBook fate.reconcile
      let _ ← Journal.indeterminate fate.listFault : Exec Unit) w) := by
  refine Settles.bind_left (Session.runStartupChecks_session fate.listing _) fun _ _ => ?_
  refine Settles.bind_right (reconcileBook_settles fate.reconcile _) fun _ w' => ?_
  have hlist := Journal.indeterminate_world fate.listFault w'
  rw [run_bind]
  cases hrun : Journal.indeterminate fate.listFault w' with
  | error e w₁ => rw [hrun] at hlist; exact hlist
  | ok rows w₁ => rw [hrun] at hlist; exact hlist

/-- **A start** either fails and leaves all as it was, or loads the book, unless there is a
session already, settles unresolved records in order, up to where it stops, and changes
nothing else. -/
theorem startUp_cases (fate : StartFate) (w : World) :
    (∃ e, startUp fate w = .error e w) ∨
    (w.session.isSome = true ∧ Settles fate.reconcile.now w (startUp fate w)) ∨
    (w.session = none ∧
      Settles fate.reconcile.now (w.load fate.openFate.loadOrder) (startUp fate w)) := by
  unfold startUp
  have hjournal := Journal.open_world fate.journalFault w
  rw [run_bind]
  cases hrun : Journal.«open» fate.journalFault w with
  | error e w' =>
    rw [hrun] at hjournal
    exact Or.inl ⟨e, congrArg _ hjournal⟩
  | ok u w' =>
    rw [hrun] at hjournal
    obtain rfl : w' = w := hjournal
    dsimp only
    rcases Session.open_cases fate.openFate w' with ⟨hsome, hopen⟩ | ⟨-, -, e, hopen⟩ |
      ⟨hnone, -, hopen⟩
    · right; left
      rw [run_bind_ok hopen]
      exact ⟨hsome, settles_of_opened fate w'⟩
    · exact Or.inl ⟨_, run_bind_error hopen⟩
    · right; right
      rw [run_bind_ok hopen]
      refine ⟨hnone, ?_⟩
      -- The session is new; nothing behind the load looks at what it was.
      obtain ⟨s, settled, rest, j, hrest⟩ := settles_of_opened fate
        ((w'.load fate.openFate.loadOrder).setSession
          (some { error := none, checked := false, reconciled := false }))
      exact ⟨s, settled, rest, j, hrest⟩

/-- On a quiet store a start settles records, over the book as it was or as it is loaded. -/
theorem startUp_settles (hquiet : w.store.Quiet) (fate : StartFate) :
    ∃ o, (o = .kept ∨ o = fate.openFate.loadOrder) ∧
      Settles fate.reconcile.now (w.load o) (startUp fate w) := by
  rcases startUp_cases fate w with ⟨e, hrun⟩ | ⟨-, hsettles⟩ | ⟨-, hsettles⟩
  · refine ⟨.kept, Or.inl rfl, ?_⟩
    rw [hrun, World.load_kept hquiet]
    exact ⟨w.session, [], _, w.journal, rfl, .nil _, rfl, fun h => h.elim⟩
  · refine ⟨.kept, Or.inl rfl, ?_⟩
    rw [World.load_kept hquiet]
    exact hsettles
  · exact ⟨_, Or.inr rfl, hsettles⟩

end Quiet

/-! ### Daemons that are not running

Requests can leave an edit open, so the store is not quiet throughout. It is whenever no process
serves (`Daemon.Down`), and that is all a start needs. -/

/-- Without a process there is no memory and no session. -/
def Daemon.Down (d : Daemon) : Prop :=
  d.serving = false → d.world.store.Quiet ∧ d.world.session = none

/-- **Every event** leaves a daemon that does not serve with a quiet store and no session. -/
theorem Daemon.Down.step {d : Daemon} (h : d.Down) (e : Event) : (d.step e).Down := by
  have died : ∀ w : World, (⟨w.die, false⟩ : Daemon).Down := fun w _ =>
    ⟨World.die_quiet, World.die_session⟩
  have up : ∀ w : World, (⟨w, true⟩ : Daemon).Down := fun w hdown => by cases hdown
  have task : ∀ {α : Type} (r : EStateM.Result Exn World α), (Daemon.afterTask r).Down := by
    intro α r
    cases r with
    | ok a w => exact up w
    | error e w =>
      cases e with
      | killed => exact died w
      | shim s => exact up w
      | queueFull => exact up w
      | workerStopped => exact up w
      | other what => exact up w
  -- a process that serves ends by dying or goes on serving; one that does not serve can be started,
  -- killed again or have its book restored
  cases hserving : d.serving with
  | true =>
    cases e with
    | start fate => simpa only [Daemon.step, hserving, if_true] using h
    | mutate m fate => simp only [Daemon.step, hserving, if_true]; exact task _
    | openBook fate => simp only [Daemon.step, hserving, if_true]; exact task _
    | closeBook fate => simp only [Daemon.step, hserving, if_true]; exact task _
    | terminate fate => simp only [Daemon.step, hserving, if_true]; exact died _
    | kill => exact died _
    | restore book =>
      intro hdown
      simp only [Daemon.step] at hdown
      split at hdown
      · rw [hserving] at hdown; cases hdown
      · rw [hserving] at hdown; cases hdown
  | false =>
    cases e with
    | start fate =>
      simp only [Daemon.step, hserving, Bool.false_eq_true, if_false]
      cases startUp fate d.world with
      | ok u w => exact up w
      | error e w => exact died w
    | mutate m fate =>
      simp only [Daemon.step, hserving, Bool.false_eq_true, if_false]
      exact h
    | openBook fate =>
      simp only [Daemon.step, hserving, Bool.false_eq_true, if_false]
      exact h
    | closeBook fate =>
      simp only [Daemon.step, hserving, Bool.false_eq_true, if_false]
      exact h
    | terminate fate =>
      simp only [Daemon.step, hserving, Bool.false_eq_true, if_false]
      exact h
    | kill => exact died _
    | restore book =>
      intro hdown
      obtain ⟨-, hnone⟩ := h hserving
      simp only [Daemon.step, hnone, Option.isNone_none, if_true]
      exact ⟨EditStore.ofTable_quiet _, trivial⟩

/-- **What an event does to the journal**: nothing, unless it is a call or a start. -/
theorem Daemon.Down.step_journal {d : Daemon} (h : d.Down) (e : Event) :
    (d.step e).world.journal = d.world.journal ∨
    (∃ m fate, e = .mutate m fate ∧ d.serving = true ∧
      (d.step e).world.journal = (worldAfter (m.run fate d.world)).journal) ∨
    (∃ fate o settled rest, e = .start fate ∧ d.serving = false ∧
      d.world.journal.listPendingUnresolved.map Journal.pendingEntry = settled ++ rest ∧
      Journal.Reconciled (d.world.durableBook.relist o) fate.reconcile.now settled
        d.world.journal (d.step e).world.journal) := by
  have task : ∀ {α : Type} (r : EStateM.Result Exn World α),
      (Daemon.afterTask r).world.journal = (worldAfter r).journal := by
    intro α r
    cases r with
    | ok a w => rfl
    | error x w => cases x <;> rfl
  -- only a call and a start write to the journal
  cases hserving : d.serving with
  | true =>
    cases e with
    | start fate => left; simp only [Daemon.step, hserving, if_true]
    | mutate m fate =>
      right; left
      refine ⟨m, fate, rfl, rfl, ?_⟩
      simp only [Daemon.step, hserving, if_true]
      exact task _
    | openBook fate =>
      left
      simp only [Daemon.step, hserving, if_true]
      exact (task _).trans (openBook_journal fate d.world)
    | closeBook fate =>
      left
      simp only [Daemon.step, hserving, if_true]
      exact (task _).trans (Session.close_journal fate d.world)
    | terminate fate =>
      left
      simp only [Daemon.step, hserving, if_true]
      exact Session.close_journal fate d.world
    | kill => exact Or.inl rfl
    | restore book =>
      left
      simp only [Daemon.step]
      split <;> rfl
  | false =>
    cases e with
    | start fate =>
      right; right
      obtain ⟨o, -, s, settled, rest, j, hsplit, hrec, hworld, -⟩ :=
        startUp_settles (h hserving).1 fate
      refine ⟨fate, o, settled, rest, rfl, rfl, hsplit, ?_⟩
      have hjournal : (d.step (.start fate)).world.journal = j := by
        simp only [Daemon.step, hserving, Bool.false_eq_true, if_false]
        cases hup : startUp fate d.world with
        | ok u w => rw [hup] at hworld; rw [Daemon.afterStartUp]; exact congrArg World.journal hworld
        | error x w =>
          rw [hup] at hworld; rw [Daemon.afterStartUp]; exact congrArg World.journal hworld
      rw [hjournal]
      exact hrec
    | kill => exact Or.inl rfl
    | restore book =>
      left
      simp only [Daemon.step]
      split <;> rfl
    | mutate m fate => left; simp only [Daemon.step, hserving, Bool.false_eq_true, if_false]
    | openBook fate => left; simp only [Daemon.step, hserving, Bool.false_eq_true, if_false]
    | closeBook fate => left; simp only [Daemon.step, hserving, Bool.false_eq_true, if_false]
    | terminate fate => left; simp only [Daemon.step, hserving, Bool.false_eq_true, if_false]

end Daichod
