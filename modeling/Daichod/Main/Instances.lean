import Daichod.Main.Locks

/-!
# Daichod.Main.Instances

The daemons of one machine, call by call: what `AcquireLocks`, `Run` and its end
(`main.cpp`) do to the file system the processes share.

`LockTable` takes a lock in one step and identifies it with its path. Here a path leads to a
file, a `flock` is on the file, and what one process does between two calls of another is
anything. A process has the calls of its program in front of it (`Call`); a call that fails
ends it, and it can be killed at any time. Other programs create and remove files.

A path is one name of a file, without links, and a file is a number that is never given out
again. What happens between the last lock and the listening socket is `Daichod.runDaemon`'s
matter; here it succeeds or it fails.
-/

universe u

namespace Daichod

/-! ### Files

A path leads to a file or to none, and two paths never lead to one file. The lemmas below say what
each operation does at its own path and that it leaves the other paths alone. -/

/-- What a file is. -/
inductive FileKind
  | regular
  | socket
  deriving Repr, DecidableEq

/-- The paths of a machine, and the files they lead to. -/
structure Directory where
  entry : CString → Option ℕ
  kind : ℕ → FileKind
  /-- The number of the next file. -/
  fresh : ℕ
  entry_lt : ∀ path file, entry path = some file → file < fresh
  entry_inj : ∀ path path' file, entry path = some file → entry path' = some file → path = path'

namespace Directory

/-- No files. -/
def empty : Directory where
  entry _ := none
  kind _ := .regular
  fresh := 0
  entry_lt _ _ h := by cases h
  entry_inj _ _ _ h := by cases h

/-- `unlink`. -/
def unlink (d : Directory) (path : CString) : Directory where
  entry := Function.update d.entry path none
  kind := d.kind
  fresh := d.fresh
  entry_lt path' file h := by
    by_cases hpath : path' = path
    · subst hpath
      simp at h
    · rw [Function.update_of_ne hpath] at h
      exact d.entry_lt path' file h
  entry_inj path₁ path₂ file h₁ h₂ := by
    by_cases hpath₁ : path₁ = path
    · subst hpath₁
      simp at h₁
    · by_cases hpath₂ : path₂ = path
      · subst hpath₂
        simp at h₂
      · rw [Function.update_of_ne hpath₁] at h₁
        rw [Function.update_of_ne hpath₂] at h₂
        exact d.entry_inj path₁ path₂ file h₁ h₂

/-- A new file at a path, in place of any that is there. -/
def create (d : Directory) (path : CString) (kind : FileKind) : Directory where
  entry := Function.update d.entry path (some d.fresh)
  kind := Function.update d.kind d.fresh kind
  fresh := d.fresh + 1
  entry_lt path' file h := by
    by_cases hpath : path' = path
    · subst hpath
      obtain rfl : d.fresh = file := by simpa using h
      exact Nat.lt_succ_self _
    · rw [Function.update_of_ne hpath] at h
      exact Nat.lt_succ_of_lt (d.entry_lt path' file h)
  entry_inj path₁ path₂ file h₁ h₂ := by
    -- The new file is at no other path.
    have hnew : ∀ path', path' ≠ path → d.entry path' ≠ some d.fresh := by
      intro path' _ h
      exact Nat.lt_irrefl _ (d.entry_lt path' _ h)
    by_cases hpath₁ : path₁ = path
    · by_cases hpath₂ : path₂ = path
      · rw [hpath₁, hpath₂]
      · subst hpath₁
        obtain rfl : d.fresh = file := by simpa using h₁
        rw [Function.update_of_ne hpath₂] at h₂
        exact absurd h₂ (hnew path₂ hpath₂)
    · rw [Function.update_of_ne hpath₁] at h₁
      by_cases hpath₂ : path₂ = path
      · subst hpath₂
        obtain rfl : d.fresh = file := by simpa using h₂
        exact absurd h₁ (hnew path₁ hpath₁)
      · rw [Function.update_of_ne hpath₂] at h₂
        exact d.entry_inj path₁ path₂ file h₁ h₂

/-- `open(path, O_CREAT | O_RDWR)`, and `fopen(path, "w")` as far as it opens the file: a
socket cannot be opened. -/
def openOrCreate (d : Directory) (path : CString) : Option (ℕ × Directory) :=
  match d.entry path with
  | none => some (d.fresh, d.create path .regular)
  | some file => if d.kind file = .socket then none else some (file, d)

/-- A socket is bound to a path where nothing is, or the socket of somebody who is gone. -/
def bind (d : Directory) (path : CString) : Option (ℕ × Directory) :=
  match d.entry path with
  | none => some (d.fresh, d.create path .socket)
  | some file =>
    if d.kind file = .socket then some (d.fresh, d.create path .socket) else none

/-- What is at a path stays there. -/
def Keeps (d d' : Directory) (path : CString) : Prop :=
  ∀ file, d.entry path = some file → d'.entry path = some file

variable {d d' : Directory} {path path' : CString} {kind : FileKind} {file : ℕ}

@[simp] theorem unlink_entry_self : (d.unlink path).entry path = none :=
  Function.update_self ..

/-- The other paths still lead where they did. -/
theorem unlink_entry_of_ne (h : path' ≠ path) : (d.unlink path).entry path' = d.entry path' :=
  Function.update_of_ne h ..

/-- The path leads to the new file. -/
@[simp] theorem create_entry_self : (d.create path kind).entry path = some d.fresh :=
  Function.update_self ..

/-- The other paths still lead where they did. -/
theorem create_entry_of_ne (h : path' ≠ path) :
    (d.create path kind).entry path' = d.entry path' :=
  Function.update_of_ne h ..

/-- A file that was there before keeps its kind, as the new one has a number of its own. -/
theorem create_kind_of_entry (h : d.entry path' = some file) :
    (d.create path kind).kind file = d.kind file :=
  Function.update_of_ne (Nat.ne_of_lt (d.entry_lt path' file h)) ..

/-- A file that is opened is the one at the path, or a new one. -/
theorem openOrCreate_some (h : d.openOrCreate path = some (file, d')) :
    (d.entry path = some file ∧ d' = d) ∨
      (d.entry path = none ∧ file = d.fresh ∧ d' = d.create path .regular) := by
  unfold openOrCreate at h
  cases hentry : d.entry path with
  | none =>
    simp only [hentry, Option.some.injEq, Prod.mk.injEq] at h
    obtain ⟨rfl, rfl⟩ := h
    exact Or.inr ⟨rfl, rfl, rfl⟩
  | some there =>
    simp only [hentry] at h
    split at h
    · cases h
    · obtain ⟨rfl, rfl⟩ := Prod.mk.inj (Option.some.inj h)
      exact Or.inl ⟨rfl, rfl⟩

/-- A bound socket is always a new file. -/
theorem bind_some (h : d.bind path = some (file, d')) :
    file = d.fresh ∧ d' = d.create path .socket := by
  unfold bind at h
  split at h
  · obtain ⟨rfl, rfl⟩ := Prod.mk.inj (Option.some.inj h)
    exact ⟨rfl, rfl⟩
  · split at h
    · obtain ⟨rfl, rfl⟩ := Prod.mk.inj (Option.some.inj h)
      exact ⟨rfl, rfl⟩
    · cases h

/-- What has been opened is at its path. -/
theorem entry_of_openOrCreate (h : d.openOrCreate path = some (file, d')) :
    d'.entry path = some file := by
  rcases openOrCreate_some h with ⟨hentry, rfl⟩ | ⟨-, rfl, rfl⟩
  · exact hentry
  · exact create_entry_self

/-- What has been bound is at its path. -/
theorem entry_of_bind (h : d.bind path = some (file, d')) : d'.entry path = some file := by
  obtain ⟨rfl, rfl⟩ := bind_some h
  exact create_entry_self

/-- Opening removes nothing. -/
theorem keeps_of_openOrCreate (h : d.openOrCreate path = some (file, d')) (path' : CString) :
    d.Keeps d' path' := by
  intro there hthere
  rcases openOrCreate_some h with ⟨-, rfl⟩ | ⟨hnone, -, rfl⟩
  · exact hthere
  · have hne : path' ≠ path := by
      intro heq
      rw [heq, hnone] at hthere
      cases hthere
    rw [create_entry_of_ne hne]
    exact hthere

/-- Binding replaces nothing at another path. -/
theorem keeps_of_bind (h : d.bind path = some (file, d')) (hne : path' ≠ path) :
    d.Keeps d' path' := by
  intro there hthere
  obtain ⟨-, rfl⟩ := bind_some h
  rw [create_entry_of_ne hne]
  exact hthere

/-- Unlinking removes nothing at another path. -/
theorem keeps_unlink (hne : path' ≠ path) : d.Keeps (d.unlink path) path' := by
  intro there hthere
  rw [unlink_entry_of_ne hne]
  exact hthere

/-- Nor does putting a file somewhere else. -/
theorem keeps_create (hne : path' ≠ path) : d.Keeps (d.create path kind) path' := by
  intro there hthere
  rw [create_entry_of_ne hne]
  exact hthere

end Directory

/-! ### Processes -/

/-- The locks of `AcquireLocks`, in order. -/
inductive LockName
  | socket
  | book
  deriving Repr, DecidableEq

namespace LockName

/-- `lock_path`. -/
def path (sha256 : CString → CString) (options : Options) : LockName → CString
  | .socket => options.socketLockPath
  | .book => options.bookLockPath sha256

/-- `pid_path`. -/
def pidPath (sha256 : CString → CString) (options : Options) : LockName → CString
  | .socket => options.socketPath ++ cstr ".pid"
  | .book => options.bookLockPath sha256 ++ cstr ".pid"

end LockName

/-- The call that a process makes next. -/
inductive Call
  /-- `open` of a lock file. -/
  | openLock (lock : LockName)
  /-- `flock` of the file opened. -/
  | flock (lock : LockName) (file : ℕ)
  /-- `fopen` of the pid file. -/
  | pidFile (lock : LockName)
  /-- The `unlink` at the end of `AcquireLocks`. -/
  | unlinkStale
  /-- `BuildAndStart`, and all that can fail in front of it. -/
  | listen
  /-- `server->Wait()`, with a socket that listens. -/
  | wait (listener : ℕ)
  /-- The `unlink` at the end of `Run`. -/
  | unlinkOwn
  /-- None: the process is gone. -/
  | exited
  deriving Repr, DecidableEq

/-- How far `AcquireLocks` has come, as to the locks. -/
def Call.stage : Call → LockStage
  | .openLock .socket | .flock .socket _ => .notStarted
  | .pidFile .socket | .openLock .book | .flock .book _ => .socketLocked
  | .pidFile .book | .unlinkStale | .listen | .wait _ | .unlinkOwn => .bothLocked
  | .exited => .exited

/-- What is called after `AcquireOneLock`. -/
def LockName.next : LockName → Call
  | .socket => .openLock .book
  | .book => .unlinkStale

/-! ### The machine -/

/-- A machine with daemons on it. -/
structure Host (π : Type u) where
  directory : Directory
  /-- Who has the `flock` of a file. -/
  holder : ℕ → Option π
  call : π → Call

namespace Host

variable {π : Type u}

/-- What happens on the machine. -/
inductive Event (π : Type u)
  /-- A process makes its next call, and the system lets it succeed or not. -/
  | call (process : π) (succeeds : Bool)
  | kill (process : π)
  /-- Another program puts a file at a path, or removes what is there. -/
  | elsewhere (path : CString) (file : Option FileKind)

/-- No process has started. -/
def initial (d : Directory) : Host π := ⟨d, fun _ => none, fun _ => .openLock .socket⟩

variable [DecidableEq π]

/-- A process goes on to another call. -/
def advance (host : Host π) (process : π) (call : Call) : Host π :=
  { host with call := Function.update host.call process call }

/-- A process is gone, and its locks with it. -/
def exit (host : Host π) (process : π) : Host π where
  directory := host.directory
  holder file := if host.holder file = some process then none else host.holder file
  call := Function.update host.call process .exited

/-- A process goes on with a file it has opened, or ends. -/
def opened (host : Host π) (process : π) (file : Option (ℕ × Directory)) (next : ℕ → Call) :
    Host π :=
  match file with
  | some (file, d) => { host with directory := d }.advance process (next file)
  | none => host.exit process

variable (sha256 : CString → CString) (options : π → Options)

/-- One step. -/
def step (host : Host π) : Event π → Host π
  | .call process succeeds =>
    let d := host.directory
    let o := options process
    match host.call process with
    | .openLock lock =>
      host.opened process (if succeeds then d.openOrCreate (lock.path sha256 o) else none)
        (.flock lock)
    | .flock lock file =>
      -- `LOCK_NB`: what is held is not waited for.
      if succeeds ∧ host.holder file = none then
        { host with holder := Function.update host.holder file (some process) }.advance process
          (.pidFile lock)
      else host.exit process
    | .pidFile lock =>
      host.opened process (if succeeds then d.openOrCreate (lock.pidPath sha256 o) else none)
        fun _ => lock.next
    -- Nobody looks at what `unlink` returns.
    | .unlinkStale =>
      { host with directory := if succeeds then d.unlink o.socketPath else d }.advance process
        .listen
    | .listen => host.opened process (if succeeds then d.bind o.socketPath else none) .wait
    | .wait _ => host.advance process .unlinkOwn
    | .unlinkOwn =>
      { host with directory := if succeeds then d.unlink o.socketPath else d }.exit process
    | .exited => host
  | .kill process => host.exit process
  | .elsewhere path file =>
    { host with
      directory := match file with
        | some kind => host.directory.create path kind
        | none => host.directory.unlink path }

/-- The machine after a run. -/
abbrev run (host : Host π) (events : List (Event π)) : Host π :=
  Machine.run (step sha256 options) host events

end Host

end Daichod
