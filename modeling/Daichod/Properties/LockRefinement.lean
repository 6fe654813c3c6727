import Daichod.Library.Refinement
import Daichod.Properties.Instances

/-!
# Daichod.Properties.LockRefinement

**The system calls of `AcquireLocks` carry out the lock table** (`Host.table_run`). `LockTable`
takes a lock in one step, and a lock is a path there. On a machine it is an `open` and a `flock`
of whatever file was opened, with the calls of other processes in between, processes that die
at any time, and files that come and go.

## Proof shape

`Host.table` reads the lock table off a machine: who has the `flock` of the file at a path. A
`flock` is the step that takes the lock there, a call that ends its process is an exit, and
everything else is no step at all (`tableEvent`). `Sound.table_step` says so call by call: a
file that comes or goes changes nothing, because the file that was at its path was held by
nobody (`Sound.unheld`), and a `flock` succeeds exactly where the table's lock is free. The run
follows with the simulation rule of `Library/Refinement` (`Along.run_performed`).
-/

universe u

namespace Daichod

open Directory

namespace LockName

variable {π : Type u} {process : π} {lock : LockName}

/-- Taking the lock in one step. -/
def event (lock : LockName) (process : π) : LockTable.Event π :=
  match lock with
  | .socket => .socketLock process {}
  | .book => .bookLock process {}

/-- A lock is one step of the table: it is taken where it is free, and where it is not the process
is gone. -/
theorem step_event [DecidableEq π] {sha256 : CString → CString} {options : π → Options}
    {table : LockTable π} {file : ℕ} (hstage : table.stage process = (Call.flock lock file).stage) :
    table.step sha256 options (lock.event process) =
      if table.holder (lock.path sha256 (options process)) = none then
        table.take process (lock.path sha256 (options process)) (Call.pidFile lock).stage
      else table.release process := by
  cases hholder : table.holder (lock.path sha256 (options process)) with
  | none =>
    cases lock <;>
      simp_all [event, LockTable.step, Call.stage, path, acquireSocketLock, acquireBookLock,
        acquireOneLock]
  | some other =>
    cases lock <;>
      simp_all [event, LockTable.step, Call.stage, path, acquireSocketLock, acquireBookLock,
        acquireOneLock]

end LockName

namespace Host

variable {π : Type u} [DecidableEq π] {sha256 : CString → CString} {options : π → Options}
  {host : Host π} {process : π} {d : Directory} {file : ℕ} {lock : LockName} {next : Call}

/-- The lock table that the processes believe in. -/
def table (host : Host π) : LockTable π where
  holder path := (host.directory.entry path).bind host.holder
  stage process := (host.call process).stage

variable (sha256 options) in
/-- What a step is to the lock table: a `flock` is where a lock is taken, and a call that ends
its process is an exit. -/
def tableEvent (host : Host π) : Event π → Option (LockTable.Event π)
  | .call process succeeds =>
    match host.call process, succeeds with
    | .flock lock _, true => some (lock.event process)
    | .exited, _ => none
    | _, _ =>
      if (host.step sha256 options (.call process succeeds)).call process = .exited then
        some (.exit process)
      else none
  | .kill process => some (.exit process)
  | .elsewhere .. => none

/-- A process that is gone has its locks free in the table. -/
theorem table_exit : (host.exit process).table = host.table.release process := by
  unfold table LockTable.release Host.exit
  congr 1
  · funext path
    cases hentry : host.directory.entry path <;> simp [hentry]
  · funext p
    by_cases hp : p = process
    · subst hp
      simp [Call.stage]
    · simp [hp]

/-- A process that goes on within a stage changes nothing of the table. -/
theorem table_advance (hstage : next.stage = (host.call process).stage) :
    (host.advance process next).table = host.table := by
  unfold table Host.advance
  congr 1
  funext p
  by_cases hp : p = process
  · subst hp
    simpa using hstage
  · simp [hp]

omit [DecidableEq π] in
/-- The holder of a file has it at a lock path. -/
theorem Sound.unheld (h : host.Sound sha256 options) {path : CString}
    (hpath : ¬IsLockPath sha256 options path) :
    (host.directory.entry path).bind host.holder = none := by
  cases hentry : host.directory.entry path with
  | none => rfl
  | some file =>
    cases hholder : host.holder file with
    | none => exact hholder
    | some process =>
      obtain ⟨lock, -, hlock⟩ := h.held file process hholder
      exact absurd ⟨process, lock, host.directory.entry_inj path _ file hentry hlock⟩ hpath

omit [DecidableEq π] in
/-- Nobody holds a file that is yet to be made. -/
theorem Sound.unheld_fresh (h : host.Sound sha256 options) :
    host.holder host.directory.fresh = none := by
  cases hholder : host.holder host.directory.fresh with
  | none => rfl
  | some process =>
    obtain ⟨lock, -, hlock⟩ := h.held _ process hholder
    exact absurd (host.directory.entry_lt _ _ hlock) (Nat.lt_irrefl _)

omit [DecidableEq π] in
/-- Unlinking a path that is no lock's changes nothing of the table. -/
theorem Sound.table_unlink (h : host.Sound sha256 options) {path : CString}
    (hpath : ¬IsLockPath sha256 options path) :
    ({ host with directory := host.directory.unlink path } : Host π).table = host.table := by
  unfold table
  congr 1
  funext path'
  by_cases heq : path' = path
  · rw [heq, unlink_entry_self, h.unheld hpath]
    rfl
  · rw [unlink_entry_of_ne heq]

omit [DecidableEq π] in
/-- A new file in the place of one that nobody holds. -/
theorem Sound.table_create (h : host.Sound sha256 options) {path : CString} {kind : FileKind}
    (hfree : (host.directory.entry path).bind host.holder = none) :
    ({ host with directory := host.directory.create path kind } : Host π).table = host.table := by
  unfold table
  congr 1
  funext path'
  by_cases heq : path' = path
  · rw [heq, create_entry_self, hfree]
    exact h.unheld_fresh
  · rw [create_entry_of_ne heq]

omit [DecidableEq π] in
/-- Opening a file takes no lock. -/
theorem Sound.table_openOrCreate (h : host.Sound sha256 options) {path : CString}
    (hopen : host.directory.openOrCreate path = some (file, d)) :
    ({ host with directory := d } : Host π).table = host.table := by
  rcases openOrCreate_some hopen with ⟨-, rfl⟩ | ⟨hnone, -, rfl⟩
  · rfl
  · exact h.table_create (by rw [hnone]; rfl)

/-- A `flock` takes the lock of the path, and of no other: a file has one path. -/
theorem Sound.table_flock (h : host.Sound sha256 options)
    (hcall : host.call process = .flock lock file) (next : Call) :
    ({ host with holder := Function.update host.holder file (some process) }.advance process
      next).table = host.table.take process (lock.path sha256 (options process)) next.stage := by
  have hentry := h.opened process lock file hcall
  unfold table LockTable.take Host.advance
  congr 1
  · funext path
    by_cases hpath : path = lock.path sha256 (options process)
    · subst hpath
      simp [hentry]
    · rw [Function.update_of_ne hpath]
      dsimp only
      cases hother : host.directory.entry path with
      | none => rfl
      | some file' =>
        have hne : file' ≠ file := by
          rintro rfl
          exact hpath (host.directory.entry_inj _ _ _ hother hentry)
        simp [hne]
  · funext p
    by_cases hp : p = process
    · subst hp
      simp
    · simp [hp]

/-- A `flock` that is asked for takes the lock of the path where nobody has it. -/
theorem Sound.table_locks (h : host.Sound sha256 options)
    (hcall : host.call process = .flock lock file) :
    (host.step sha256 options (.call process true)).table =
      if host.holder file = none then
        host.table.take process (lock.path sha256 (options process)) (Call.pidFile lock).stage
      else host.table.release process := by
  simp only [Host.step, hcall, true_and]
  split
  · exact h.table_flock hcall (.pidFile lock)
  · exact table_exit

/-- A call that opens a file or ends its process. -/
theorem table_opened {opening : Option (ℕ × Directory)} {next : ℕ → Call}
    (hsame : ∀ file d, opening = some (file, d) →
      ({ host with directory := d } : Host π).table = host.table)
    (hstage : ∀ file, (next file).stage = (host.call process).stage)
    (hnext : ∀ file, next file ≠ .exited) :
    (host.opened process opening next).table =
      (if (host.opened process opening next).call process = .exited then
        some (LockTable.Event.exit process) else none).elim host.table
        (LockTable.step sha256 options host.table) := by
  cases hopening : opening with
  | none =>
    have hexited : (host.opened process none next).call process = .exited :=
      Function.update_self ..
    rw [if_pos hexited]
    exact table_exit
  | some found =>
    obtain ⟨file, d⟩ := found
    have hgoes : (host.opened process (some (file, d)) next).call process ≠ .exited := by
      have hcall : (host.opened process (some (file, d)) next).call process = next file :=
        Function.update_self ..
      rw [hcall]
      exact hnext file
    rw [if_neg hgoes]
    have hadvance : (({ host with directory := d } : Host π).advance process (next file)).table
        = ({ host with directory := d } : Host π).table := table_advance (hstage file)
    exact hadvance.trans (hsame file d hopening)

/-- **One step**: a call is to the table what it is said to be. -/
theorem Sound.table_step (h : host.Sound sha256 options)
    (hapart : ∀ process, ¬IsLockPath sha256 options (options process).socketPath) {e : Event π}
    (hspares : e.Spares (IsLockPath sha256 options)) :
    (host.step sha256 options e).table = (host.tableEvent sha256 options e).elim host.table
      (LockTable.step sha256 options host.table) := by
  have hunlink : ∀ (succeeds : Bool) process,
      ({ host with
        directory := if succeeds then host.directory.unlink (options process).socketPath
          else host.directory } : Host π).table = host.table := by
    intro succeeds process
    cases succeeds with
    | false => rfl
    | true => exact h.table_unlink (hapart process)
  cases e with
  | kill process => exact table_exit
  | elsewhere path file =>
    cases file with
    | none => exact h.table_unlink hspares
    | some kind => exact h.table_create (h.unheld hspares)
  | call process succeeds =>
    -- one case a system call; `flock` is the one that is a step of the table, or an exit of its
    -- process
    cases hcall : host.call process with
    | flock lock file =>
      cases succeeds with
      | false =>
        have hexits : host.step sha256 options (.call process false) = host.exit process := by
          simp [Host.step, hcall]
        have hexited : (host.exit process).call process = .exited := Function.update_self ..
        simp only [tableEvent, hcall, hexits, if_pos hexited]
        exact table_exit
      | true =>
        have hholder : host.table.holder (lock.path sha256 (options process))
            = host.holder file := by
          simp [table, h.opened process lock file hcall]
        have hstage : host.table.stage process = (Call.flock lock file).stage := by
          simp [table, hcall]
        rw [h.table_locks hcall]
        simp only [tableEvent, hcall, Option.elim_some]
        rw [LockName.step_event hstage, hholder]
    -- an opening that fails ends the process, which the table sees as an exit
    | openLock lock =>
      simp only [tableEvent, hcall, Host.step]
      refine table_opened (fun file d hopening => ?_) (fun file => ?_) fun file hexited => by cases hexited
      · exact h.table_openOrCreate (Option.ite_none_right_eq_some.mp hopening).2
      · rw [hcall]
        cases lock <;> rfl
    | pidFile lock =>
      simp only [tableEvent, hcall, Host.step]
      refine table_opened (fun file d hopening => ?_) (fun file => ?_) fun file => ?_
      · exact h.table_openOrCreate (Option.ite_none_right_eq_some.mp hopening).2
      · rw [hcall]
        cases lock <;> rfl
      · intro hexited
        cases lock <;> cases hexited
    -- a failed `unlink` is ignored, so the process goes on in both cases
    | unlinkStale =>
      have hgoes : (host.step sha256 options (.call process succeeds)).call process = .listen := by
        simp [Host.step, hcall, Host.advance]
      simp only [tableEvent, hcall, hgoes]
      simp only [Host.step, hcall]
      refine (table_advance ?_).trans (hunlink succeeds process)
      simp only [hcall]
      rfl
    | listen =>
      simp only [tableEvent, hcall, Host.step]
      refine table_opened (fun file d hopening => ?_) (fun file => ?_) fun file hexited => by cases hexited
      · obtain ⟨-, rfl⟩ := bind_some (Option.ite_none_right_eq_some.mp hopening).2
        exact h.table_create (h.unheld (hapart process))
      · rw [hcall]
        rfl
    | wait listener =>
      have hgoes : (host.step sha256 options (.call process succeeds)).call process
          = .unlinkOwn := by
        simp [Host.step, hcall, Host.advance]
      simp only [tableEvent, hcall, hgoes]
      simp only [Host.step, hcall]
      refine table_advance ?_
      rw [hcall]
      rfl
    | unlinkOwn =>
      have hexited : (host.step sha256 options (.call process succeeds)).call process
          = .exited := by
        simp [Host.step, hcall, Host.exit]
      simp only [tableEvent, hcall, if_pos hexited]
      simp only [Host.step, hcall]
      exact table_exit.trans (congrArg (·.release process) (hunlink succeeds process))
    | exited =>
      simp only [tableEvent, hcall, Host.step]
      rfl

/-- **The calls carry out the lock table**: in every run that leaves the lock files alone, the
locks are held as if a file were its path and a lock were taken in one step. -/
theorem table_run {events : List (Event π)}
    (hapart : ∀ process, ¬IsLockPath sha256 options (options process).socketPath)
    (hspares : ∀ e ∈ events, e.Spares (IsLockPath sha256 options)) :
    ((initial d).run sha256 options events).table =
      Machine.run (LockTable.step sha256 options) .initial
        (Machine.performed (Host.step sha256 options) (tableEvent sha256 options) (initial d)
          events) := by
  have hrun : Machine.Along (Host.step sha256 options)
      (fun _ e => e.Spares (IsLockPath sha256 options)) (initial d) events :=
    Machine.along_of_forall.mpr hspares
  have hinitial : (initial d : Host π).table = .initial := by
    unfold table LockTable.initial initial
    congr 1
    funext path
    cases d.entry path <;> rfl
  rw [← hinitial]
  exact hrun.run_performed (I := fun host => host.Sound sha256 options) Sound.initial
    (fun host e hsound he => hsound.step hapart he)
    fun host e hsound he => hsound.table_step hapart he

section Witness

/-- The locks of the two, as of one path each. -/
theorem table_startedTwice :
    ((initial .empty).run sha256Books startedTwice (killed ++ startedAgain)).table =
      Machine.run (LockTable.step sha256Books startedTwice) .initial
        (Machine.performed (Host.step sha256Books startedTwice)
          (tableEvent sha256Books startedTwice) (initial .empty) (killed ++ startedAgain)) :=
  table_run startedTwice_socketPath (spares_killed _)

end Witness

end Host

end Daichod
