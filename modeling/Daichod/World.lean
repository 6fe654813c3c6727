import Daichod.Engine.Loading
import Daichod.Engine.Map
import Daichod.Journal.Tables

/-!
# Daichod.World

Everything a task on the engine thread can see or change, and the monad it runs in.

* `World` is the daemon's own state next to what survives it: the journal file, the book
  (a write-back store of entities over fixed root and commodities) and the session.
* `Fate` is what the surroundings decide about one call: the clock, the GUIDs the engine
  allocates, which SQLite statement fails, how the engine's last step goes, where the
  process is killed. A call is a function of its request, its fate and the world.
* `Exec` is C++ with exceptions: a throw leaves every change made so far in place.

`OpenSession.checked` and `OpenSession.reconciled` are history, not data: no code reads
them. They record which of the start-up steps the open session has been through.

## Proof shape

A world has six fields and is changed through four operations, each on one field; the simp set
says that the others stay. A task is executed by the equations of the last section: a sequence
goes on from the world that its first half left, and a `throw` keeps that world. So a handler is
evaluated by rewriting, one statement of the source at a time.
-/

namespace Daichod

variable [Wire]

/-- `Session::Config`. -/
structure Config where
  bookUri : String
  readOnly : Bool
  deriving Repr, DecidableEq

/-- The classes of `QofBackendError` the shim tells apart. -/
inductive BackendError
  | locked
  | readOnly
  | perm
  | other (code : ℕ)
  deriving Repr, DecidableEq

/-- A backend error pending on a session, with the session's message for it. -/
structure SessionError where
  error : BackendError
  message : String
  deriving Repr, DecidableEq

/-- A `QofSession` that has been begun and loaded. -/
structure OpenSession where
  error : Option SessionError
  checked : Bool
  reconciled : Bool
  deriving Repr, DecidableEq

/-- The state a task works on. -/
structure World where
  config : Config
  journal : Journal
  rootAccount : Guid
  commodities : List Commodity
  store : EditStore Entity
  session : Option OpenSession

/-- A task on the engine thread. -/
abbrev Exec := EStateM Exn World

namespace World

/-- The book as the engine has it in memory. -/
def book (w : World) : Book := ⟨w.rootAccount, w.commodities, w.store.working⟩

/-- The book as the database has it. -/
def durableBook (w : World) : Book := ⟨w.rootAccount, w.commodities, w.store.durable⟩

/-- Replace the store by its image under `f`. -/
def onStore (f : EditStore Entity → EditStore Entity) (w : World) : World :=
  { w with store := f w.store }

/-- Replace the journal. -/
def setJournal (j : Journal) (w : World) : World := { w with journal := j }

/-! The journal is a file of its own: to write to it changes neither the book nor the session. -/

@[simp] theorem setJournal_journal (j : Journal) (w : World) : (w.setJournal j).journal = j := rfl
@[simp] theorem setJournal_store (j : Journal) (w : World) : (w.setJournal j).store = w.store := rfl
@[simp] theorem setJournal_session (j : Journal) (w : World) :
    (w.setJournal j).session = w.session := rfl
@[simp] theorem setJournal_config (j : Journal) (w : World) :
    (w.setJournal j).config = w.config := rfl
@[simp] theorem setJournal_book (j : Journal) (w : World) : (w.setJournal j).book = w.book := rfl
@[simp] theorem setJournal_self (w : World) : w.setJournal w.journal = w := rfl

/-- Replace the session. -/
def setSession (s : Option OpenSession) (w : World) : World := { w with session := s }

/-! The session is the process's handle on the book, and not the book. -/

@[simp] theorem setSession_journal (s : Option OpenSession) (w : World) :
    (w.setSession s).journal = w.journal := rfl
@[simp] theorem setSession_store (s : Option OpenSession) (w : World) :
    (w.setSession s).store = w.store := rfl
@[simp] theorem setSession_session (s : Option OpenSession) (w : World) :
    (w.setSession s).session = s := rfl
@[simp] theorem setSession_config (s : Option OpenSession) (w : World) :
    (w.setSession s).config = w.config := rfl
@[simp] theorem setSession_book (s : Option OpenSession) (w : World) :
    (w.setSession s).book = w.book := rfl
@[simp] theorem setSession_durableBook (s : Option OpenSession) (w : World) :
    (w.setSession s).durableBook = w.durableBook := rfl
@[simp] theorem setJournal_durableBook (j : Journal) (w : World) :
    (w.setJournal j).durableBook = w.durableBook := rfl

/-! Engine calls work on the store and on nothing else. -/

@[simp] theorem onStore_store (f : EditStore Entity → EditStore Entity) (w : World) :
    (w.onStore f).store = f w.store := rfl
@[simp] theorem onStore_journal (f : EditStore Entity → EditStore Entity) (w : World) :
    (w.onStore f).journal = w.journal := rfl
@[simp] theorem onStore_session (f : EditStore Entity → EditStore Entity) (w : World) :
    (w.onStore f).session = w.session := rfl
@[simp] theorem onStore_config (f : EditStore Entity → EditStore Entity) (w : World) :
    (w.onStore f).config = w.config := rfl

/-- The database is loaded, with the splits of every transaction in the order `o`. That order
is all there is of it from then on, so the durable copy is taken to have it too. -/
def load (o : LoadOrder) (w : World) : World := w.onStore (EditStore.load o.entity)

/-! A load replaces what the engine has in memory, and leaves the daemon's own files alone. -/

@[simp] theorem load_journal (o : LoadOrder) (w : World) : (w.load o).journal = w.journal := rfl
@[simp] theorem load_session (o : LoadOrder) (w : World) : (w.load o).session = w.session := rfl
@[simp] theorem load_config (o : LoadOrder) (w : World) : (w.load o).config = w.config := rfl
@[simp] theorem load_book (o : LoadOrder) (w : World) :
    (w.load o).book = w.durableBook.relist o := rfl
@[simp] theorem load_durableBook (o : LoadOrder) (w : World) :
    (w.load o).durableBook = w.durableBook.relist o := rfl

/-- What has just been loaded is all there is. -/
theorem load_quiet (o : LoadOrder) (w : World) : (w.load o).store.Quiet := EditStore.load_quiet _ _

/-- The part of a world that is on disk changes in no other way. -/
theorem onStore_eq_self {f : EditStore Entity → EditStore Entity} {w : World}
    (h : f w.store = w.store) : w.onStore f = w := by
  unfold onStore
  rw [h]

/-- On a quiet store the memory is what is durable. -/
theorem book_of_quiet {w : World} (h : w.store.Quiet) : w.book = w.durableBook := by
  rw [book, durableBook, h.working_eq]

/-- Loading every list as the store has it changes nothing on a quiet store. -/
theorem load_kept {w : World} (h : w.store.Quiet) : w.load .kept = w :=
  onStore_eq_self (by rw [LoadOrder.kept_entity, h.load_eq])

end World

/-! ### What the surroundings decide -/

/-- The crash points of `RunMutation`. -/
inductive CrashPoint
  | afterIntent
  | afterPending
  | afterApply
  | afterOutcome
  deriving Repr, DecidableEq

/-- How the engine's last step of a mutation goes. A declined step is reported through the
session's error only, and its in-memory edit is rolled back. -/
inductive FinalStep
  | commits
  | declines (error : SessionError)
  | throwsBefore (what : String)
  | throwsAfter (what : String)
  deriving Repr, DecidableEq

/-- A failed SQLite call: SQLite's message, and where the code was. -/
structure SqliteError where
  message : String
  context : String
  deriving Repr, DecidableEq

/-- The surroundings of one mutating call. -/
structure Fate where
  /-- `std::time`. -/
  now : Int64
  /-- `gnc_time`. -/
  gncTime : Int64
  /-- The GUIDs the engine allocates, in order. -/
  newGuid : ℕ → Guid
  recordIntentFault : Option SqliteError
  getOutcomeFault : Option SqliteError
  recordPendingFault : Option SqliteError
  recordOutcomeFault : Option SqliteError
  finalStep : FinalStep
  crashAt : Option CrashPoint

/-- Nothing fails; the process may still be killed. -/
structure Fate.Faultless (fate : Fate) : Prop where
  recordIntent : fate.recordIntentFault = none
  getOutcome : fate.getOutcomeFault = none
  recordPending : fate.recordPendingFault = none
  recordOutcome : fate.recordOutcomeFault = none
  finalStep : fate.finalStep = .commits

/-- The GUIDs the engine allocates are not in use in the book. -/
def Fate.Fresh (fate : Fate) (b : Book) : Prop :=
  ∀ i, b.account (fate.newGuid i) = none ∧ b.transaction (fate.newGuid i) = none ∧
    b.price (fate.newGuid i) = none

/-! ### Running tasks

Tasks are run by rewriting. Reads and pure steps leave the world as it is, a throw ends the
sequence, and `run_bind` goes from one half of a sequence to the next. -/

/-- Throw a `ShimError`. -/
def throwShim {α : Type} (code : ErrorCode) (engineMessage context : String) : Exec α :=
  throw (.shim ⟨code, engineMessage, context⟩)

/-- A validation step: it reads nothing and either returns or throws. -/
def liftValid {α : Type} : Except ShimError α → Exec α
  | .ok a => pure a
  | .error e => throw (.shim e)

/-- Change the engine's memory. -/
def onStore (f : EditStore Entity → EditStore Entity) : Exec Unit := modify (World.onStore f)

/-- `CrashPointMaybe`. -/
def crashPointMaybe (fate : Fate) (point : CrashPoint) : Exec Unit :=
  if fate.crashAt = some point then throw .killed else pure ()

/-- The world a task leaves behind, however it ended. -/
def worldAfter {α : Type} : EStateM.Result Exn World α → World
  | .ok _ w => w
  | .error _ w => w

@[simp] theorem worldAfter_ok {α : Type} (a : α) (w : World) : worldAfter (.ok a w) = w := rfl

@[simp] theorem worldAfter_error {α : Type} (e : Exn) (w : World) :
    worldAfter (.error e w : EStateM.Result Exn World α) = w := rfl

section Run

variable {α β : Type} (w : World)

@[simp] theorem run_pure (a : α) : (pure a : Exec α) w = .ok a w := rfl

@[simp] theorem run_throw (e : Exn) : (throw e : Exec α) w = .error e w := rfl

@[simp] theorem run_get : (get : Exec World) w = .ok w w := rfl

@[simp] theorem run_throwShim (code : ErrorCode) (message context : String) :
    (throwShim code message context : Exec α) w = .error (.shim ⟨code, message, context⟩) w := rfl

@[simp] theorem run_onStore (f : EditStore Entity → EditStore Entity) :
    onStore f w = .ok () (w.onStore f) := rfl

@[simp] theorem run_liftValid_ok (a : α) : liftValid (.ok a) w = .ok a w := rfl

@[simp] theorem run_liftValid_error (e : ShimError) :
    (liftValid (.error e) : Exec α) w = .error (.shim e) w := rfl

/-- **A sequence**: the second half sees the world that the first half left, unless that threw. -/
theorem run_bind (x : Exec α) (f : α → Exec β) :
    (x >>= f) w = match x w with
      | .ok a w' => f a w'
      | .error e w' => .error e w' := by
  show EStateM.bind x f w = _
  unfold EStateM.bind
  cases x w <;> rfl

/-- A first half that returned. -/
theorem run_bind_ok {x : Exec α} {f : α → Exec β} {w w' : World} {a : α}
    (h : x w = .ok a w') : (x >>= f) w = f a w' := by
  rw [run_bind, h]

/-- A first half that threw ends the sequence. -/
theorem run_bind_error {x : Exec α} {f : α → Exec β} {w w' : World} {e : Exn}
    (h : x w = .error e w') : (x >>= f) w = .error e w' := by
  rw [run_bind, h]

/-- A `catch` sees the world as the throw left it. -/
theorem run_tryCatch (x : Exec α) (handle : Exn → Exec α) :
    (tryCatch x handle) w = match x w with
      | .ok a w' => .ok a w'
      | .error e w' => handle e w' := by
  show EStateM.tryCatch x handle w = _
  unfold EStateM.tryCatch
  cases x w <;> rfl

/-- A sequence that returned went through its first half. -/
theorem run_bind_eq_ok {x : Exec α} {f : α → Exec β} {w w' : World} {b : β}
    (h : (x >>= f) w = .ok b w') : ∃ a w₁, x w = .ok a w₁ ∧ f a w₁ = .ok b w' := by
  rw [run_bind] at h
  cases hx : x w with
  | ok a w₁ => rw [hx] at h; exact ⟨a, w₁, rfl, h⟩
  | error e w₁ => rw [hx] at h; cases h

/-- A validation step in front of a sequence that returns. -/
theorem run_liftValid_bind_iff {v : Except ShimError α} {f : α → Exec β} {w w' : World} {b : β} :
    (liftValid v >>= f) w = .ok b w' ↔ ∃ a, v = .ok a ∧ f a w = .ok b w' := by
  cases v with
  | error e =>
    rw [run_bind_error (run_liftValid_error w e)]
    simp
  | ok a =>
    rw [run_bind_ok (run_liftValid_ok w a)]
    simp

/-- A validation step at the end of a sequence. -/
theorem run_liftValid_iff {v : Except ShimError α} {w w' : World} {a : α} :
    liftValid v w = .ok a w' ↔ v = .ok a ∧ w = w' := by
  cases v with
  | error e => simp
  | ok b => simp

end Run

end Daichod
