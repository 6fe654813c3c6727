import Daichod.Library.Machine
import Daichod.Main.Options
import Mathlib.Logic.Function.Basic

/-!
# Daichod.Main.Locks

`AcquireLocks` (`main.cpp`): the two `flock`s a daemon takes before anything else, and the
processes that compete for them.

A `flock` is on a file, and a file here is its path. `LockTable` is the machine of any
number of processes, each with options of its own, that take their locks and exit in any
order; a process that fails exits, and with it go its locks.
-/

universe u

namespace Daichod

/-! ### Lock paths -/

/-- `HexEncode`. -/
def hexEncode (data : CString) : CString :=
  data.flatMap fun (byte : UInt8) =>
    let digit (n : UInt8) : UInt8 := if n < 10 then 0x30 + n else 0x61 + (n - 10)
    [digit (byte >>> 4), digit (byte &&& 0x0F)]

/-- `uri.find("://")`, as what stands behind it and in front. -/
def splitScheme : CString → Option (CString × CString)
  | [] => none
  | b :: uri =>
    if (cstr "://").isPrefixOf (b :: uri) then some ([], (b :: uri).drop 3)
    else (splitScheme uri).map fun (scheme, rest) => (b :: scheme, rest)

/-- `StripCredentials`. -/
def stripCredentials (uri : CString) : CString :=
  match splitScheme uri with
  | none => uri
  | some (scheme, authority) =>
    let userinfo := authority.takeWhile (· ≠ 0x40)
    -- An '@' past the authority (e.g. in a path/query) isn't credentials.
    if userinfo.length = authority.length ∨ 0x2F ∈ userinfo then uri
    else scheme ++ cstr "://" ++ authority.drop (userinfo.length + 1)

/-- `std::filesystem::path::parent_path`. -/
def parentPath (path : CString) : CString :=
  let directory := path.rdropWhile (· ≠ 0x2F)
  if directory.all (· = 0x2F) then
    -- A path without a name in it is its own parent, and the root directory is one slash.
    if directory = path then path else directory.take 1
  else directory.rdropWhile (· = 0x2F)

/-- `std::filesystem::path::operator/`, for a relative right side. -/
def joinPath (directory name : CString) : CString :=
  if directory = [] ∨ directory.getLast? = some 0x2F then directory ++ name
  else directory ++ 0x2F :: name

namespace Options

/-- The socket lock. -/
def socketLockPath (options : Options) : CString := options.socketPath ++ cstr ".lock"

/-- `digest`. -/
def digest (sha256 : CString → CString) (options : Options) : CString :=
  (hexEncode (sha256 (stripCredentials options.bookUri))).take 32

/-- `book_lock_path`. -/
def bookLockPath (sha256 : CString → CString) (options : Options) : CString :=
  if options.bookPath ≠ [] then options.bookPath ++ cstr ".daichod.lock"
  else joinPath (parentPath options.journalPath) (options.digest sha256 ++ cstr ".daichod.lock")

end Options

/-! ### Taking one lock -/

/-- What the file system does about one lock. -/
structure LockFate where
  opens : Bool := true
  pidFileOpens : Bool := true

/-- `AcquireOneLock`. -/
def acquireOneLock (fate : LockFate) (held : Bool) (lockPath pidPath failReason : CString) :
    Except StartFailure Unit :=
  if !fate.opens then .error (.lockOpen lockPath)
  else if held then .error (.contended failReason lockPath)
  else if !fate.pidFileOpens then .error (.pidFileOpen pidPath)
  else .ok ()

/-- The first half of `AcquireLocks`. -/
def acquireSocketLock (options : Options) (fate : LockFate) (held : Bool) :
    Except StartFailure Unit :=
  acquireOneLock fate held options.socketLockPath (options.socketPath ++ cstr ".pid")
    (cstr "already_running")

/-- The second half. -/
def acquireBookLock (sha256 : CString → CString) (options : Options) (fate : LockFate)
    (held : Bool) : Except StartFailure Unit :=
  acquireOneLock fate held (options.bookLockPath sha256)
    (options.bookLockPath sha256 ++ cstr ".pid") (cstr "book_already_open")

theorem acquireOneLock_ok {fate : LockFate} {held : Bool}
    {lockPath pidPath failReason : CString} {u : Unit}
    (h : acquireOneLock fate held lockPath pidPath failReason = .ok u) : held = false := by
  unfold acquireOneLock at h
  cases held with
  | false => rfl
  | true =>
    split at h
    · cases h
    · cases h

/-! ### Processes and their locks -/

/-- How far a process has come. -/
inductive LockStage
  | notStarted
  | socketLocked
  /-- Past `AcquireLocks`. -/
  | bothLocked
  | exited
  deriving Repr, DecidableEq

/-- Who holds which lock file, and how far each process has come. -/
structure LockTable (π : Type u) where
  holder : CString → Option π
  stage : π → LockStage

namespace LockTable

variable {π : Type u}

/-- A step of one of the processes. -/
inductive Event (π : Type u)
  | socketLock (process : π) (fate : LockFate)
  | bookLock (process : π) (fate : LockFate)
  | exit (process : π)

/-- No process has started. -/
def initial : LockTable π := ⟨fun _ => none, fun _ => .notStarted⟩

variable [DecidableEq π]

/-- A process is gone, and its locks with it. -/
def release (table : LockTable π) (process : π) : LockTable π where
  holder path := if table.holder path = some process then none else table.holder path
  stage := Function.update table.stage process .exited

/-- A process takes the lock on a path. -/
def take (table : LockTable π) (process : π) (path : CString) (stage : LockStage) :
    LockTable π where
  holder := Function.update table.holder path (some process)
  stage := Function.update table.stage process stage

variable (sha256 : CString → CString) (options : π → Options)

/-- One step. -/
def step (table : LockTable π) : Event π → LockTable π
  | .socketLock process fate =>
    match table.stage process with
    | .notStarted =>
      let path := (options process).socketLockPath
      match acquireSocketLock (options process) fate (table.holder path).isSome with
      | .ok _ => table.take process path .socketLocked
      | .error _ => table.release process
    | _ => table
  | .bookLock process fate =>
    match table.stage process with
    | .socketLocked =>
      let path := (options process).bookLockPath sha256
      match acquireBookLock sha256 (options process) fate (table.holder path).isSome with
      | .ok _ => table.take process path .bothLocked
      | .error _ => table.release process
    | _ => table
  | .exit process => table.release process

/-- Every process past `AcquireLocks` holds its book's lock. -/
def Exclusive (table : LockTable π) : Prop :=
  ∀ process, table.stage process = .bothLocked →
    table.holder ((options process).bookLockPath sha256) = some process

variable {sha256 options} {table : LockTable π} {process : π}

theorem Exclusive.release (h : table.Exclusive sha256 options) (process : π) :
    (table.release process).Exclusive sha256 options := by
  intro process' hstage
  by_cases hp : process' = process
  · subst hp
    simp [LockTable.release] at hstage
  · simp only [LockTable.release, Function.update_of_ne hp] at hstage ⊢
    rw [h process' hstage]
    simp [hp]

/-- A lock that nobody held takes nothing from anybody. -/
theorem Exclusive.take (h : table.Exclusive sha256 options) {path : CString} {stage : LockStage}
    (hfree : table.holder path = none)
    (hstage : stage = .bothLocked → path = (options process).bookLockPath sha256) :
    (table.take process path stage).Exclusive sha256 options := by
  intro process' hpast
  by_cases hp : process' = process
  · subst hp
    simp only [LockTable.take, Function.update_self] at hpast ⊢
    rw [← hstage hpast, Function.update_self]
  · simp only [LockTable.take, Function.update_of_ne hp] at hpast ⊢
    have hheld := h process' hpast
    have hpath : (options process').bookLockPath sha256 ≠ path := by
      intro heq
      rw [heq, hfree] at hheld
      cases hheld
    rw [Function.update_of_ne hpath, hheld]

theorem Exclusive.step (h : table.Exclusive sha256 options) (e : Event π) :
    (table.step sha256 options e).Exclusive sha256 options := by
  have free : ∀ {path : CString} {fate : LockFate} {pidPath reason : CString} {u : Unit},
      acquireOneLock fate (table.holder path).isSome path pidPath reason = .ok u →
        table.holder path = none := by
    intro path fate pidPath reason u hok
    exact Option.isNone_iff_eq_none.mp (by simpa using acquireOneLock_ok hok)
  cases e with
  | socketLock process fate =>
    simp only [LockTable.step]
    split
    · split
      · next hok => exact h.take (free hok) fun hstage => by cases hstage
      · exact h.release process
    · exact h
  | bookLock process fate =>
    simp only [LockTable.step]
    split
    · split
      · next hok => exact h.take (free hok) fun _ => rfl
      · exact h.release process
    · exact h
  | exit process => exact h.release process

/-- **One process a lock**: two processes with the same book lock are never both past
`AcquireLocks`. -/
theorem not_both_past {process' : π} (hne : process ≠ process')
    (hpath : (options process).bookLockPath sha256 = (options process').bookLockPath sha256)
    (events : List (Event π)) :
    ¬((Machine.run (step sha256 options) initial events).stage process = .bothLocked ∧
      (Machine.run (step sha256 options) initial events).stage process' = .bothLocked) := by
  have hexclusive : (Machine.run (step sha256 options) initial events).Exclusive sha256 options :=
    (Machine.along_of_forall (P := fun _ => True).mpr fun _ _ => trivial).invariant
      (I := fun table : LockTable π => table.Exclusive sha256 options) (fun _ h => by cases h)
      fun table e h _ => h.step e
  intro hboth
  obtain ⟨hpast, hpast'⟩ := hboth
  have hholder := hexclusive process hpast
  rw [hpath, hexclusive process' hpast'] at hholder
  exact hne (Option.some.inj hholder).symm

end LockTable

end Daichod
