import Daichod.Main.Locks

/-!
# Daichod.Main.Run

`main` and `Run` (`main.cpp`) from the command line to serving, as far as a start can fail:
which step fails, whether anything catches what it throws, and what the process leaves for
its supervisor: its exit code, and all that stands on stderr then.

What each step itself does is not repeated here (`Daichod.startUp` has the ones on the
engine thread); it returns or throws, as the surroundings say, and an exception is its
`what()`. Besides the report of `Fail`, stderr has the diagnostics of `main.cpp` in plain
text, the line that `getopt_long` writes about an option it does not take, and what the
libraries of a step log there.
-/

namespace Daichod

/-- The steps of `Run` that libraries have a part in, in order. -/
inductive Step
  | snapshot
  | openJournal
  | openBook
  | startupChecks
  | reconcile
  | listIndeterminate
  | listen
  deriving Repr, DecidableEq

/-- What the surroundings decide about one start of the process: for every step what it
returns or throws, and what others write to stderr. -/
structure Surroundings where
  socketLock : LockFate := {}
  socketLockHeld : Bool := false
  bookLock : LockFate := {}
  bookLockHeld : Bool := false
  /-- Whether `SnapshotBeforeOpen` took a snapshot. -/
  snapshot : Except CString Bool := .ok false
  openJournal : Except CString Unit := .ok ()
  openBook : Except CString Unit := .ok ()
  startupChecks : Except CString Unit := .ok ()
  /-- How many mutations `ReconcilePendingMutations` reconciled as applied. -/
  reconcile : Except CString ℕ := .ok 0
  /-- How many mutations `ListIndeterminate` lists. -/
  listIndeterminate : Except CString ℕ := .ok 0
  listens : Bool := true
  /-- The line of `getopt_long` about an option that it does not take. -/
  getoptLine : CString := []
  /-- What the engine, SQLite or gRPC log in a step. -/
  logged : Step → CString := fun _ => []

/-- What `%s` prints of `s.c_str()`: everything before the first NUL. -/
def printed (s : CString) : CString := s.takeWhile (· ≠ 0)

/-- A step of `Run`: it appends to stderr, and returns or fails. -/
abbrev StartM := EStateM StartFailure CString

/-- `fprintf(stderr, …)`. -/
def say (text : CString) : StartM Unit := modify (· ++ text)

/-- A diagnostic that is not always due. -/
def sayIf (due : Prop) [Decidable due] (text : CString) : StartM Unit :=
  if due then say text else pure ()

/-- `EngineWorker::Run`: a queue without room rejects every task. -/
def workerRun {α : Type} (options : Options) (task : Except CString α) : Except CString α :=
  if options.queueDepth = 0 then .error (cstr "engine queue full") else task

/-- Run a step, and turn what it throws into a failure. -/
def runStep {α : Type} (s : Surroundings) (step : Step) (result : Except CString α)
    (failure : CString → StartFailure) : StartM α := do
  say (s.logged step)
  match result with
  | .ok a => pure a
  | .error what => throw (failure what)

/-- `AcquireLocks`. -/
def acquireLocks (sha256 : CString → CString) (options : Options) (s : Surroundings) :
    Except StartFailure Unit := do
  acquireSocketLock options s.socketLock s.socketLockHeld
  acquireBookLock sha256 options s.bookLock s.bookLockHeld

/-- The daily snapshot. -/
def dailySnapshot (options : Options) (s : Surroundings) : StartM Unit := do
  let taken ← runStep s .snapshot s.snapshot .backup
  sayIf (taken = true)
    (cstr "daichod: snapshotted book and journal to " ++ printed options.backupDir ++ cstr "\n")

/-- `Run`, from the sidecar journal to the listening socket. -/
def openAndListen (options : Options) (s : Surroundings) : StartM Unit := do
  runStep s .openJournal (workerRun options s.openJournal) .journalOpen
  runStep s .openBook (workerRun options s.openBook) .bookOpen
  runStep s .startupChecks (workerRun options s.startupChecks) .startupCheck
  let reconciled ← runStep s .reconcile (workerRun options s.reconcile) .reconciliation
  sayIf (0 < reconciled)
    (cstr "daichod: " ++ decimal reconciled ++ cstr " pending mutation(s) reconciled as applied\n")
  let indeterminate ←
    runStep s .listIndeterminate (workerRun options s.listIndeterminate) .listing
  sayIf (0 < indeterminate)
    (cstr "daichod: " ++ decimal indeterminate
      ++ cstr " indeterminate mutation(s) await resolution\n")
  runStep s .listen (if s.listens then .ok () else .error options.socketPath) .listen

/-- `Run`, as far as serving. -/
def runDaemon (sha256 : CString → CString) (options : Options) (s : Surroundings) :
    StartM Unit := do
  match acquireLocks sha256 options s with
  | .ok _ => pure ()
  | .error failure => throw failure
  if options.backupDir ≠ [] then dailySnapshot options s else pure ()
  openAndListen options s

/-! ### What a process leaves behind -/

/-- How a process ends, or that it serves. -/
inductive Ending
  | serving
  /-- `exit`, with all that stands on stderr. -/
  | exited (code : ℕ) (stderr : CString)
  /-- `std::terminate`: nothing caught an exception. -/
  | aborted
  deriving Repr, DecidableEq

/-- The line `Fail` writes. -/
def failLine (reason detail : CString) : CString :=
  cstr "\x7b\"error\":\"" ++ printed reason ++ cstr "\",\"detail\":\"" ++ printed detail
    ++ cstr "\"\x7d\n"

namespace StartFailure

/-- The reason a failure is passed to `Fail` with; none where nothing catches it. -/
def reason : StartFailure → Option CString
  | .badOption _ | .usage _ => some (cstr "usage")
  | .lockOpen _ => some (cstr "lock_open_failed")
  | .contended failReason _ => some failReason
  | .pidFileOpen _ => some (cstr "pidfile_open_failed")
  | .backup _ => some (cstr "backup_failed")
  | .journalOpen _ => some (cstr "journal_open_failed")
  | .bookOpen _ => some (cstr "book_open_failed")
  | .startupCheck _ => some (cstr "startup_check_failed")
  | .reconciliation _ => some (cstr "reconciliation_failed")
  | .listen _ => some (cstr "listen_failed")
  | .badNumber _ | .listing _ => none

/-- What a failure has to say. -/
def detail : StartFailure → CString
  | .badOption message | .usage message => message
  | .contended _ lockPath => cstr "another daichod holds " ++ lockPath
  | .lockOpen path | .pidFileOpen path | .listen path => path
  | .badNumber what | .backup what | .journalOpen what | .bookOpen what | .startupCheck what
  | .reconciliation what | .listing what => what

/-- How the process ends on a failure, with what stands on stderr before the report. -/
def ending (failure : StartFailure) (stderr : CString) : Ending :=
  match failure.reason with
  | some reason => .exited 1 (stderr ++ failLine reason failure.detail)
  | none => .aborted

/-- What `getopt_long` has written when `ParseOptions` fails. -/
def getoptSays (s : Surroundings) : StartFailure → CString
  | .badOption _ => s.getoptLine
  | _ => []

end StartFailure

/-- A start that is not only asked for the version: how it ends, with what stands on stderr before
a report. -/
def start (sha256 : CString → CString) (args : List CString) (s : Surroundings) :
    Option (EStateM.Result StartFailure CString Unit) :=
  match parseOptions args with
  | .version => none
  | .failed failure => some (.error failure (failure.getoptSays s))
  | .options options => some (runDaemon sha256 options s [])

/-- `main`. -/
def main (sha256 : CString → CString) (args : List CString) (s : Surroundings) : Ending :=
  match start sha256 args s with
  | none => .exited 0 []
  | some (.ok _ _) => .serving
  | some (.error failure stderr) => failure.ending stderr

/-- The failure a start ends in, if it does. -/
def startFailure (sha256 : CString → CString) (args : List CString) (s : Surroundings) :
    Option StartFailure :=
  match start sha256 args s with
  | some (.error failure _) => some failure
  | _ => none

theorem startFailure_eq_some {sha256 : CString → CString} {args : List CString}
    {s : Surroundings} {failure : StartFailure} :
    startFailure sha256 args s = some failure ↔
      ∃ stderr, start sha256 args s = some (.error failure stderr) := by
  simp only [startFailure]
  cases start sha256 args s with
  | none => simp
  | some r => cases r <;> simp

end Daichod
