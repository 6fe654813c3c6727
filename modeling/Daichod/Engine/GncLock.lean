import Daichod.Engine.Session
import Daichod.Library.Machine

/-!
# Daichod.Engine.GncLock

`Session::Open` up to the book's engine lock, and `GncLockIsProvablyStale`, step by step: the
engine's lock is a row of the book's `gnclock` table, which other programs write while
daichod reads it.

`GncLock.step` interleaves the steps of one `Session::Open` with those of the others, which
take the lock, break it, release it, start and exit. A row says under which host name and PID
it was written. Whether its writer still stands behind it (`Holder`), and whether it was
written after `Session::Open` began to read (`late`), no code can see.
-/

namespace Daichod

/-! ### Processes -/

/-- A process of this host. -/
structure Process where
  pid : Int32
  group : Int32
  pid_pos : 0 < pid
  deriving DecidableEq

/-- `kill(pid, 0) != 0 && errno == ESRCH`, called by the process `self`. A PID below one is a
process group, or everybody else. -/
def killFindsNobody (self : Int32) (running : List Process) (pid : Int32) : Bool :=
  if 0 < pid then running.all (·.pid ≠ pid)
  else if pid = 0 then false
  else if pid = -1 then running.all fun process => process.pid = 1 ∨ process.pid = self
  else running.all (·.group ≠ -pid)

theorem killFindsNobody_of_mem {self : Int32} {running : List Process} {process : Process}
    (h : process ∈ running) : killFindsNobody self running process.pid = false := by
  rw [killFindsNobody, if_pos process.pid_pos]
  exact List.all_eq_false.mpr ⟨process, h, by simp⟩

/-! ### The lock table -/

/-- Who stands behind a lock row. -/
inductive Holder
  /-- A running program of this host. -/
  | here
  /-- A program on another host. -/
  | elsewhere
  /-- Nobody: the program is gone and has not released the lock. -/
  | nobody
  deriving Repr, DecidableEq

/-- A row of `gnclock`, as SQLite reads it, with its history. -/
structure LockRow where
  hostname : Option String
  pid : Int64
  holder : Holder
  late : Bool
  deriving DecidableEq

/-- Somebody holds the lock by this row. -/
def LockRow.Held (row : LockRow) : Prop := row.holder ≠ .nobody

instance (row : LockRow) : Decidable row.Held := inferInstanceAs (Decidable (_ ≠ _))

/-- A row whose process is gone is held by nobody. -/
def LockRow.abandon (pid : Int32) (row : LockRow) : LockRow :=
  if row.holder = .here ∧ row.pid = pid.toInt64 then { row with holder := .nobody } else row

/-- The `gnclock` table (`none` before there is one) and the processes of this host. -/
structure LockWorld where
  table : Option (List LockRow)
  running : List Process
  sound : ∀ row ∈ table.getD [], row.holder = .here →
    ∃ process ∈ running, row.pid = process.pid.toInt64

/-- Another program, by the host it runs on. -/
inductive Program
  | here (process : Process)
  | elsewhere (hostname : String) (pid : Int32)

/-- The row a program writes, on the host of that name if it is one of this host. -/
def Program.row (host : String) (late : Bool) : Program → LockRow
  | .here process => ⟨some host, process.pid.toInt64, .here, late⟩
  | .elsewhere hostname pid => ⟨some hostname, pid.toInt64, .elsewhere, late⟩

namespace LockWorld

variable (w : LockWorld)

/-- The rows of the table. -/
def rows : List LockRow := w.table.getD []

/-- A live program holds the lock. -/
def Held : Prop := ∃ row ∈ w.rows, row.Held

instance : Decidable w.Held := inferInstanceAs (Decidable (∃ row ∈ w.rows, row.Held))

/-- A begin with `SESSION_BREAK_LOCK`: whatever row is there is discarded. A process that is
not running does nothing. -/
def replace (host : String) (late : Bool) : Program → LockWorld
  | .here process =>
    if h : process ∈ w.running then
      { table := some [Program.row host late (.here process)]
        running := w.running
        sound := fun row hrow _ => ⟨process, h, List.mem_singleton.mp hrow ▸ rfl⟩ }
    else w
  | .elsewhere hostname pid =>
    { table := some [Program.row host late (.elsewhere hostname pid)]
      running := w.running
      sound := fun row hrow hhere => by
        rw [List.mem_singleton.mp hrow] at hhere
        cases hhere }

/-- A normal begin of another program, which finds the lock free or gives up. -/
def acquire (host : String) (late : Bool) (program : Program) : LockWorld :=
  if w.rows = [] then w.replace host late program else w

/-- The row of this host name and PID is deleted. -/
def release (hostname : String) (pid : Int32) : LockWorld where
  table := w.table.map (·.filter fun row => ¬(row.hostname = some hostname ∧ row.pid = pid.toInt64))
  running := w.running
  sound row hrow hhere := by
    cases htable : w.table with
    | none => simp [htable] at hrow
    | some rows =>
      simp only [htable, Option.map_some, Option.getD_some, List.mem_filter] at hrow
      exact w.sound row (by simpa [htable] using hrow.1) hhere

/-- A process starts, under a PID that is free. -/
def start (process : Process) : LockWorld where
  table := w.table
  running := if w.running.any (·.pid = process.pid) then w.running else process :: w.running
  sound row hrow hhere := by
    obtain ⟨process', hmem, hpid⟩ := w.sound row hrow hhere
    refine ⟨process', ?_, hpid⟩
    split
    · exact hmem
    · exact List.mem_cons_of_mem _ hmem

/-- A process exits, with or without having released its lock. -/
def exit (pid : Int32) : LockWorld where
  table := w.table.map (·.map (LockRow.abandon pid))
  running := w.running.filter (·.pid ≠ pid)
  sound row hrow hhere := by
    cases htable : w.table with
    | none => simp [htable] at hrow
    | some rows =>
      simp only [htable, Option.map_some, Option.getD_some, List.mem_map] at hrow
      obtain ⟨row₀, hrow₀, rfl⟩ := hrow
      -- A row that is still held is not one of the process that exits.
      by_cases hleft : row₀.holder = .here ∧ row₀.pid = pid.toInt64
      · rw [LockRow.abandon, if_pos hleft] at hhere
        cases hhere
      · rw [LockRow.abandon, if_neg hleft] at hhere ⊢
        obtain ⟨process, hmem, hpid⟩ := w.sound row₀ (by simpa [htable] using hrow₀) hhere
        refine ⟨process, List.mem_filter.mpr ⟨hmem, ?_⟩, hpid⟩
        simp only [decide_eq_true_eq]
        exact fun heq => hleft ⟨hhere, heq ▸ hpid⟩

end LockWorld

/-! ### Session::Open -/

/-- `Sqlite3Path`. -/
def sqlite3Path (uri : String) : String :=
  if hasScheme uri "sqlite3://" then String.ofList (uri.toList.drop "sqlite3://".length) else ""

/-- Where `Session::Open` stands. -/
inductive OpenStage
  /-- Before `qof_session_begin`. -/
  | begins
  /-- The engine has reported the lock; before `sqlite3_open_v2`, -/
  | opensDb
  /-- before `sqlite3_prepare_v2`, -/
  | prepares
  /-- and before the first `sqlite3_step`, which fixes what the statement reads. -/
  | prepared
  /-- Before another `sqlite3_step`, with the rows it will return. -/
  | steps (rest : List LockRow)
  /-- A row is read; before `kill`. -/
  | checks (row : LockRow) (rest : List LockRow)
  /-- Before the begin with `SESSION_BREAK_LOCK`. -/
  | breaks
  /-- Past the lock, with the engine's last error. -/
  | past (error : Option BackendError)
  deriving DecidableEq

/-- The rows of which `GncLockIsProvablyStale` does not know yet whether they are stale. -/
def OpenStage.unread : OpenStage → Option (List LockRow)
  | .steps rest => some rest
  | .checks row rest => some (row :: rest)
  | .breaks => some []
  | _ => none

/-- The daemon that opens: its process, its host's name as `g_get_host_name` gives it, and
what it is to open. -/
structure Opener where
  host : String
  process : Process
  config : Config

/-- One `Session::Open` among other programs. -/
structure GncLock where
  world : LockWorld
  stage : OpenStage

namespace GncLock

/-- What can happen next. The daemon's own steps carry the answer of the call they make. -/
inductive Event
  | begin (fault : Option BackendError)
  | openDb (opens : Bool)
  | prepare (prepares : Bool)
  | step (reads : Bool)
  | check
  | breakLock (fault : Option BackendError)
  /-- Another program takes the lock while it is free. -/
  | acquire (program : Program)
  /-- Another program breaks the lock and takes it. -/
  | replace (program : Program)
  | release (hostname : String) (pid : Int32)
  | start (process : Process)
  | exit (pid : Int32)

variable (opener : Opener) (s : GncLock)

/-- Is a row that is written now late? -/
def late : Bool := s.stage.unread.isSome

/-- The daemon's own program. -/
def own : Program := .here opener.process

/-- What follows on `ERR_BACKEND_LOCKED`. -/
def afterLocked : OpenStage :=
  if opener.config.readOnly then .past (some .locked)
  else if hasScheme opener.config.bookUri "sqlite3://" then .opensDb
  else .breaks

/-- `!(same_host && dead)`, the other way round. -/
def stale (running : List Process) (row : LockRow) : Bool :=
  (row.hostname = some opener.host : Bool) &&
    killFindsNobody opener.process.pid running row.pid.toInt32

/-- `sqlite3_step`, with the rows it can still return. -/
def nextRow (reads : Bool) : List LockRow → OpenStage
  | [] => if reads then .breaks else .past (some .locked)
  | row :: rest => if reads then .checks row rest else .past (some .locked)

/-- `qof_session_begin`, the first time. -/
def begin (fault : Option BackendError) : GncLock :=
  match fault with
  | some .locked => { s with stage := afterLocked opener }
  | some e => { s with stage := .past (some e) }
  | none =>
    if opener.config.readOnly then { s with stage := .past none }
    else if s.world.rows = [] then
      { world := s.world.replace opener.host false (own opener), stage := .past none }
    else { s with stage := afterLocked opener }

/-- `sqlite3_open_v2`. -/
def openDb (opens : Bool) : OpenStage :=
  if sqlite3Path opener.config.bookUri = "" ∨ opens = false then .past (some .locked)
  else .prepares

/-- `sqlite3_prepare_v2`, which also fails without the table. -/
def prepare (prepares : Bool) : OpenStage :=
  if s.world.table = none ∨ prepares = false then .past (some .locked) else .prepared

/-- `qof_session_begin` with `SESSION_BREAK_LOCK`. -/
def breakLock (fault : Option BackendError) : GncLock :=
  match fault with
  | some e => { s with stage := .past (some e) }
  | none => { world := s.world.replace opener.host false (own opener), stage := .past none }

/-- One step. -/
def next : Event → GncLock
  | .begin fault => match s.stage with
    | .begins => s.begin opener fault
    | _ => s
  | .openDb opens => match s.stage with
    | .opensDb => { s with stage := openDb opener opens }
    | _ => s
  | .prepare prepares => match s.stage with
    | .prepares => { s with stage := s.prepare prepares }
    | _ => s
  | .step reads => match s.stage with
    | .prepared => { s with stage := nextRow reads s.world.rows }
    | .steps rest => { s with stage := nextRow reads rest }
    | _ => s
  | .check => match s.stage with
    | .checks row rest =>
      { s with
        stage := if stale opener s.world.running row then .steps rest else .past (some .locked) }
    | _ => s
  | .breakLock fault => match s.stage with
    | .breaks => s.breakLock opener fault
    | _ => s
  | .acquire program => { s with world := s.world.acquire opener.host s.late program }
  | .replace program => { s with world := s.world.replace opener.host s.late program }
  | .release hostname pid => { s with world := s.world.release hostname pid }
  | .start process => { s with world := s.world.start process }
  | .exit pid => { s with world := s.world.exit pid }

/-- `SESSION_BREAK_LOCK` is issued. -/
def Breaks : Event → Prop
  | .breakLock _ => s.stage = .breaks
  | _ => False

/-! ### An opening that nobody disturbs -/

/-- `GncLockIsProvablyStale`, when nothing changes while it runs and SQLite does not fail. -/
def gncLockIsProvablyStale (w : LockWorld) : Bool :=
  !(sqlite3Path opener.config.bookUri = "" : Bool) &&
    w.table.elim false (·.all (stale opener w.running))

/-- The calls of `GncLockIsProvablyStale` over `n` rows. -/
def checkCalls (n : ℕ) : List Event :=
  .openDb true :: .prepare true :: (List.replicate n [.step true, .check]).flatten ++ [.step true]

/-- The daemon after a run. -/
abbrev run (events : List Event) : GncLock := Machine.run (next opener) s events

variable {opener s}

/-- The calls of `GncLockIsProvablyStale`. -/
def Event.Checks : Event → Prop
  | .openDb _ | .prepare _ | .step _ | .check => True
  | _ => False

/-- Once it is past the lock, or about to break it, the daemon checks no more. -/
theorem run_checks {stage : OpenStage} (hstage : (∃ e, stage = .past e) ∨ stage = .breaks)
    {events : List Event} (hevents : ∀ e ∈ events, e.Checks) :
    run opener { s with stage } events = { s with stage } := by
  induction events with
  | nil => rfl
  | cons e events ih =>
    have hnext : next opener { s with stage } e = { s with stage } := by
      have he := hevents e List.mem_cons_self
      rcases hstage with ⟨_, rfl⟩ | rfl
      · cases e <;> first | rfl | exact he.elim
      · cases e <;> first | rfl | exact he.elim
    rw [run, Machine.run_cons, hnext]
    exact ih fun e he => hevents e (List.mem_cons_of_mem _ he)

theorem checks_of_mem_reads {n : ℕ} {e : Event}
    (h : e ∈ (List.replicate n [Event.step true, .check]).flatten ++ [.step true]) :
    e.Checks := by
  rw [List.mem_append, List.mem_flatten] at h
  rcases h with ⟨calls, hcalls, he⟩ | he
  · rw [(List.mem_replicate.mp hcalls).2] at he
    rcases List.mem_pair.mp he with rfl | rfl
    · trivial
    · trivial
  · rw [List.mem_singleton.mp he]
    trivial

theorem checks_of_mem_checkCalls {n : ℕ} {e : Event} (h : e ∈ checkCalls n) : e.Checks := by
  rw [checkCalls, List.cons_append, List.cons_append, List.mem_cons, List.mem_cons] at h
  rcases h with rfl | rfl | h
  · trivial
  · trivial
  · exact checks_of_mem_reads h

/-- The loop over the rows. -/
theorem run_steps (rows : List LockRow) :
    run opener { s with stage := .steps rows }
        ((List.replicate rows.length [Event.step true, .check]).flatten ++ [.step true])
      = { s with
          stage := if rows.all (stale opener s.world.running) then .breaks
            else .past (some .locked) } := by
  induction rows with
  | nil => rfl
  | cons row rest ih =>
    have hcalls : (List.replicate (row :: rest).length [Event.step true, .check]).flatten
        ++ [.step true] = .step true :: .check ::
          ((List.replicate rest.length [Event.step true, .check]).flatten ++ [.step true]) := by
      simp [List.replicate_succ]
    rw [hcalls, run, Machine.run_cons, Machine.run_cons]
    have hnext : next opener (next opener { s with stage := .steps (row :: rest) } (.step true))
        .check = { s with
          stage := if stale opener s.world.running row then .steps rest
            else .past (some .locked) } := rfl
    rw [hnext, List.all_cons]
    cases stale opener s.world.running row with
    | true => exact ih
    | false => exact run_checks (Or.inl ⟨_, rfl⟩) fun e he => checks_of_mem_reads he

/-- **Alone**, `GncLockIsProvablyStale` asks that every row is of a dead process of this
host. -/
theorem run_checkCalls (hstage : s.stage = .opensDb) :
    run opener s (checkCalls s.world.rows.length)
      = { s with
          stage := if gncLockIsProvablyStale opener s.world then .breaks
            else .past (some .locked) } := by
  obtain ⟨w, stage⟩ := s
  obtain rfl : stage = .opensDb := hstage
  rw [checkCalls, List.cons_append, List.cons_append, run, Machine.run_cons, Machine.run_cons]
  unfold gncLockIsProvablyStale
  by_cases hpath : sqlite3Path opener.config.bookUri = ""
  · have hnext : next opener (next opener ⟨w, .opensDb⟩ (.openDb true)) (.prepare true)
        = ⟨w, .past (some .locked)⟩ := by
      simp [next, openDb, hpath]
    rw [hnext]
    simp only [hpath, decide_true, Bool.not_true, Bool.false_and, Bool.false_eq_true, if_false]
    exact run_checks (s := ⟨w, .opensDb⟩) (Or.inl ⟨_, rfl⟩) fun e he => checks_of_mem_reads he
  · cases htable : w.table with
    | none =>
      have hnext : next opener (next opener ⟨w, .opensDb⟩ (.openDb true)) (.prepare true)
          = ⟨w, .past (some .locked)⟩ := by
        simp [next, openDb, prepare, hpath, htable]
      rw [hnext]
      simp only [Option.elim_none, Bool.and_false, Bool.false_eq_true, if_false]
      exact run_checks (s := ⟨w, .opensDb⟩) (Or.inl ⟨_, rfl⟩) fun e he => checks_of_mem_reads he
    | some rows =>
      have hnext : next opener (next opener ⟨w, .opensDb⟩ (.openDb true)) (.prepare true)
          = ⟨w, .prepared⟩ := by
        simp [next, openDb, prepare, hpath, htable]
      have hrows : w.rows = rows := by rw [LockWorld.rows, htable]; rfl
      rw [hnext]
      simp only [hpath, decide_false, Bool.not_false, Bool.true_and, Option.elim_some, hrows]
      -- The first step reads from the table what the others read from what is left.
      have hsteps := @run_steps opener ⟨w, .opensDb⟩ rows
      cases rows with
      | nil => rw [← hsteps]; simp [run, next, hrows]
      | cons row rest => rw [← hsteps]; simp [run, next, hrows, List.replicate_succ]

/-- **Alone**, the whole opening ends with the error `Session.beginError` says. -/
theorem run_opening (hstage : s.stage = .begins) (fate : OpenFate)
    (hfree : fate.beginError = none → opener.config.readOnly = true ∨ s.world.rows = [])
    (hverdict : fate.lockIsProvablyStale = gncLockIsProvablyStale opener s.world) :
    (run opener s (.begin (fate.beginError.map SessionError.error) ::
        checkCalls s.world.rows.length ++
          [.breakLock (fate.breakLockError.map SessionError.error)])).stage
      = .past ((Session.beginError fate opener.config).map SessionError.error) := by
  obtain ⟨w, stage⟩ := s
  obtain rfl : stage = .begins := hstage
  rw [List.cons_append, run, Machine.run_cons, Machine.run_append]
  -- Past the lock at once, there is nothing left to do.
  have past : ∀ (w' : LockWorld) e, (Machine.run (next opener)
      (Machine.run (next opener) ⟨w', .past e⟩ (checkCalls w.rows.length))
      [.breakLock (fate.breakLockError.map SessionError.error)]).stage = .past e := by
    intro w' e
    rw [show Machine.run (next opener) ⟨w', .past e⟩ (checkCalls w.rows.length) = ⟨w', .past e⟩ from
      run_checks (s := ⟨w', .begins⟩) (Or.inl ⟨_, rfl⟩) fun e he => checks_of_mem_checkCalls he]
    rfl
  have broken : (next opener ⟨w, .breaks⟩
      (.breakLock (fate.breakLockError.map SessionError.error))).stage
        = .past (fate.breakLockError.map SessionError.error) := by
    cases fate.breakLockError <;> rfl
  unfold Session.beginError
  cases hbegin : fate.beginError with
  | none =>
    rw [Option.map_none]
    by_cases hread : opener.config.readOnly = true
    · have hnext : next opener ⟨w, .begins⟩ (.begin none) = ⟨w, .past none⟩ := by
        simp [next, begin, hread]
      rw [hnext]
      exact past w none
    · have hrows := (hfree hbegin).resolve_left hread
      have hnext : next opener ⟨w, .begins⟩ (.begin none)
          = ⟨w.replace opener.host false (own opener), .past none⟩ := by
        simp [next, begin, hread, hrows]
      rw [hnext]
      exact past _ none
  | some e =>
    rw [Option.map_some]
    by_cases hlocked : e.error = .locked
    · have hnext : next opener ⟨w, .begins⟩ (.begin (some e.error))
          = ⟨w, afterLocked opener⟩ := by
        rw [hlocked]
        rfl
      rw [hnext, afterLocked]
      cases hread : opener.config.readOnly with
      | true =>
        simp only [if_true, hlocked, Bool.true_eq_false, false_and, and_false, if_false,
          Option.map_some]
        exact past w _
      | false =>
        by_cases hsqlite : hasScheme opener.config.bookUri "sqlite3://" = true
        · simp only [Bool.false_eq_true, if_false, hsqlite, if_true]
          have hchecks := @run_checkCalls opener ⟨w, .opensDb⟩ rfl
          rw [run] at hchecks
          rw [hchecks, ← hverdict]
          cases fate.lockIsProvablyStale with
          | true => simpa [hlocked] using broken
          | false => simp [hlocked, next]
        · simp only [Bool.false_eq_true, if_false, hsqlite]
          have hchecks := @run_checks opener ⟨w, .begins⟩ .breaks (Or.inr rfl)
            (checkCalls w.rows.length) fun e he => checks_of_mem_checkCalls he
          rw [run] at hchecks
          rw [hchecks]
          simpa [hlocked] using broken
    · have hnext : next opener ⟨w, .begins⟩ (.begin (some e.error)) = ⟨w, .past (some e.error)⟩ := by
        cases he : e.error with
        | locked => exact absurd he hlocked
        | readOnly => rfl
        | perm => rfl
        | other code => rfl
      rw [hnext]
      dsimp only
      rw [if_neg fun h => hlocked h.1]
      exact past w _

end GncLock

end Daichod
