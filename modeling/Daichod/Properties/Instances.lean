import Daichod.Main.Instances
import Daichod.Properties.BookIdentity

/-!
# Daichod.Properties.Instances

**The daemons of one machine keep apart** (`Host.separate`): over every interleaving of their
calls, one daemon is past `AcquireLocks` for a book, one is past the socket lock for a socket
path, and a daemon that listens is found at its path.

## Proof shape

`AcquireOneLock` is two calls, an `open` and a `flock`, and a `flock` is on the file that was
opened, whatever has become of the path. So the invariant is about both (`Host.Sound`): a file
that was opened is still at its lock path, whoever has a lock has the `flock` of the file that
is at the path now, and nobody has any other. Two processes with one lock path then have the
`flock` of one file (`Sound.eq_of_path`), which is the whole of mutual exclusion. That the
socket of a daemon stays where it was bound (`Host.Reached`) comes from the locks: whoever is
about to unlink that path, or to bind it, has the socket lock of it (`Sound.socketPath_ne`).

It takes two things. Nobody else moves the lock files and the sockets (`Event.Spares`). And
no `--socket` is a lock file: the `unlink` of a stale socket asks nobody what it removes, and
`onOwnLock` shows two daemons of one book where it removes a lock.
-/

universe u

namespace Daichod

open Directory

/-- The call is made with the lock in hand. -/
def Call.Has (call : Call) : LockName → Prop
  | .socket => call.stage = .socketLocked ∨ call.stage = .bothLocked
  | .book => call.stage = .bothLocked

/-- Which locks a process has depends on how far it has got. -/
theorem Call.has_iff_of_stage {call call' : Call} {lock : LockName}
    (h : call.stage = call'.stage) : call.Has lock ↔ call'.Has lock := by
  cases lock <;> simp only [Call.Has, h]

namespace Host

variable {π : Type u}

/-- Other programs leave these paths alone. -/
def Event.Spares (paths : CString → Prop) : Event π → Prop
  | .elsewhere path _ => ¬paths path
  | _ => True

variable (sha256 : CString → CString) (options : π → Options)

/-- A lock file of one of the processes. -/
def IsLockPath (path : CString) : Prop :=
  ∃ process lock, path = LockName.path sha256 (options process) lock

/-- The socket of one of the processes. -/
def IsSocketPath (path : CString) : Prop := ∃ process, path = (options process).socketPath

/-! ### Locks and files

Each call of `Host.step` is one of a few changes: the directory changes elsewhere, a process
goes on without taking a lock, it takes one, or it is gone. There is a lemma for each, and
`Sound.step` goes through the calls. -/

/-- The `flock`s are where the processes believe them to be. -/
structure Sound (host : Host π) : Prop where
  opened : ∀ process lock file, host.call process = .flock lock file →
    host.directory.entry (lock.path sha256 (options process)) = some file
  holds : ∀ process lock, (host.call process).Has lock →
    ∃ file, host.directory.entry (lock.path sha256 (options process)) = some file ∧
      host.holder file = some process
  held : ∀ file process, host.holder file = some process →
    ∃ lock, (host.call process).Has lock ∧
      host.directory.entry (lock.path sha256 (options process)) = some file

variable {sha256 options} {host : Host π} {process process' : π} {d : Directory} {file : ℕ}
  {lock lock' : LockName} {next : Call}

/-- Before anybody starts, no file is open or locked. -/
theorem Sound.initial : (initial d : Host π).Sound sha256 options where
  opened _ _ _ h := by cases h
  holds _ lock h := by
    cases lock with
    | socket => rcases h with h | h <;> cases h
    | book => cases h
  held _ _ h := by cases h

/-- Files that come and go elsewhere. -/
theorem Sound.directory (h : host.Sound sha256 options)
    (hkeeps : ∀ path, IsLockPath sha256 options path → host.directory.Keeps d path) :
    ({ host with directory := d } : Host π).Sound sha256 options where
  opened process lock file hcall :=
    hkeeps _ ⟨process, lock, rfl⟩ _ (h.opened process lock file hcall)
  holds process lock hhas := by
    obtain ⟨file, hentry, hholder⟩ := h.holds process lock hhas
    exact ⟨file, hkeeps _ ⟨process, lock, rfl⟩ _ hentry, hholder⟩
  held file process hholder := by
    obtain ⟨lock, hhas, hentry⟩ := h.held file process hholder
    exact ⟨lock, hhas, hkeeps _ ⟨process, lock, rfl⟩ _ hentry⟩

variable [DecidableEq π]

/-- A call that takes no lock and drops none. -/
theorem Sound.advance (h : host.Sound sha256 options)
    (hstage : next.stage = (host.call process).stage)
    (hopened : ∀ lock file, next = .flock lock file →
      host.directory.entry (lock.path sha256 (options process)) = some file) :
    (host.advance process next).Sound sha256 options := by
  have hsame : ∀ p lock, ((host.advance process next).call p).Has lock ↔
      (host.call p).Has lock := by
    intro p lock
    by_cases hp : p = process
    · subst hp
      simpa [Host.advance] using Call.has_iff_of_stage hstage
    · simp [Host.advance, hp]
  refine ⟨fun p lock file hcall => ?_, fun p lock hp => h.holds p lock ((hsame p lock).mp hp),
    fun file p hholder => ?_⟩
  · by_cases hp : p = process
    · subst hp
      simp only [Host.advance, Function.update_self] at hcall
      exact hopened lock file hcall
    · simp only [Host.advance, Function.update_of_ne hp] at hcall
      exact h.opened p lock file hcall
  · obtain ⟨lock, hp, hentry⟩ := h.held file p hholder
    exact ⟨lock, (hsame p lock).mpr hp, hentry⟩

/-- **A process that is gone** has its locks released, and only its own. -/
theorem Sound.exit (h : host.Sound sha256 options) (process : π) :
    (host.exit process).Sound sha256 options := by
  -- who has a lock is not the one that is gone
  have hne : ∀ {p : π} {lock : LockName}, ((host.exit process).call p).Has lock → p ≠ process := by
    rintro p lock hhas rfl
    cases lock <;> simp [Host.exit, Call.Has, Call.stage] at hhas
  refine ⟨fun p lock file hcall => ?_, fun p lock hhas => ?_, fun file p hholder => ?_⟩
  · by_cases hp : p = process
    · subst hp
      simp [Host.exit] at hcall
    · simp only [Host.exit, Function.update_of_ne hp] at hcall
      exact h.opened p lock file hcall
  · have hp := hne hhas
    simp only [Host.exit, Function.update_of_ne hp] at hhas
    obtain ⟨file, hentry, hholder⟩ := h.holds p lock hhas
    refine ⟨file, hentry, ?_⟩
    simp [Host.exit, hholder, hp]
  · have hheld : host.holder file ≠ some process ∧ host.holder file = some p := by
      simpa [Host.exit] using hholder
    have hp : p ≠ process := by
      rintro rfl
      exact hheld.1 hheld.2
    obtain ⟨lock, hhas, hentry⟩ := h.held file p hheld.2
    refine ⟨lock, ?_, hentry⟩
    simpa only [Host.exit, Function.update_of_ne hp] using hhas

/-- A lock that nobody held is taken. -/
theorem Sound.flock (h : host.Sound sha256 options) (hcall : host.call process = .flock lock file)
    (hfree : host.holder file = none) :
    ({ host with holder := Function.update host.holder file (some process) }.advance process
      (.pidFile lock)).Sound sha256 options := by
  have hentry := h.opened process lock file hcall
  -- the process has one lock more than before
  have hhas : ∀ lock', (Call.pidFile lock).Has lock' ↔
      (host.call process).Has lock' ∨ lock' = lock := by
    intro lock'
    rw [hcall]
    cases lock <;> cases lock' <;> simp [Call.Has, Call.stage]
  refine ⟨fun p lock' file' hnext => ?_, fun p lock' hnext => ?_, fun file' p hholder => ?_⟩
  · by_cases hp : p = process
    · subst hp
      simp [Host.advance] at hnext
    · simp only [Host.advance, Function.update_of_ne hp] at hnext
      exact h.opened p lock' file' hnext
  · -- What was held is not the file just locked.
    have hkept : (host.call p).Has lock' → ∃ file',
        host.directory.entry (lock'.path sha256 (options p)) = some file' ∧
          Function.update host.holder file (some process) file' = some p := by
      intro hp
      obtain ⟨file', hentry', hholder'⟩ := h.holds p lock' hp
      have hother : file' ≠ file := by
        rintro rfl
        rw [hfree] at hholder'
        cases hholder'
      exact ⟨file', hentry', by rw [Function.update_of_ne hother, hholder']⟩
    by_cases hp : p = process
    · subst hp
      simp only [Host.advance, Function.update_self] at hnext
      rcases (hhas lock').mp hnext with hbefore | rfl
      · exact hkept hbefore
      · exact ⟨file, hentry, Function.update_self ..⟩
    · simp only [Host.advance, Function.update_of_ne hp] at hnext
      exact hkept hnext
  · by_cases hfile : file' = file
    · subst hfile
      obtain rfl : process = p := by simpa [Host.advance] using hholder
      refine ⟨lock, ?_, hentry⟩
      simpa [Host.advance] using (hhas lock).mpr (Or.inr rfl)
    · have hholder : host.holder file' = some p := by
        simpa [Host.advance, hfile] using hholder
      obtain ⟨lock', hbefore, hentry'⟩ := h.held file' p hholder
      refine ⟨lock', ?_, hentry'⟩
      by_cases hp : p = process
      · subst hp
        simpa [Host.advance] using (hhas lock').mpr (Or.inl hbefore)
      · simpa [Host.advance, hp] using hbefore

/-- A call that opens or binds a file. -/
theorem Sound.ofOpened {opening : Option (ℕ × Directory)} {next : ℕ → Call}
    (h : host.Sound sha256 options)
    (hkeeps : ∀ file d, opening = some (file, d) →
      ∀ path, IsLockPath sha256 options path → host.directory.Keeps d path)
    (hstage : ∀ file, (next file).stage = (host.call process).stage)
    (hopened : ∀ file d lock, opening = some (file, d) → next file = .flock lock file →
      d.entry (lock.path sha256 (options process)) = some file)
    (hflock : ∀ file lock file', next file = .flock lock file' → file' = file) :
    (host.opened process opening next).Sound sha256 options := by
  cases hopening : opening with
  | none => exact h.exit process
  | some found =>
    obtain ⟨file, d⟩ := found
    refine (h.directory (hkeeps file d hopening)).advance (hstage file) fun lock file' hnext => ?_
    obtain rfl := hflock file lock file' hnext
    exact hopened file' d lock hopening hnext

/-- **One step**: the lock files stay where they are. -/
theorem Sound.step (h : host.Sound sha256 options)
    (hapart : ∀ process, ¬IsLockPath sha256 options (options process).socketPath) {e : Event π}
    (hspares : e.Spares (IsLockPath sha256 options)) :
    (host.step sha256 options e).Sound sha256 options := by
  -- The socket of a process is at no lock path.
  have hunlinked : ∀ process path, IsLockPath sha256 options path →
      host.directory.Keeps (host.directory.unlink (options process).socketPath) path := by
    intro process path hpath
    refine keeps_unlink ?_
    rintro rfl
    exact hapart process hpath
  have hmaybe : ∀ (succeeds : Bool) process path, IsLockPath sha256 options path →
      host.directory.Keeps (if succeeds then host.directory.unlink (options process).socketPath
        else host.directory) path := by
    intro succeeds process path hpath
    cases succeeds with
    | false => exact fun _ hfile => hfile
    | true => exact hunlinked process path hpath
  cases e with
  | kill process => exact h.exit process
  | elsewhere path file =>
    refine h.directory fun path' hpath' => ?_
    have hne : path' ≠ path := by
      rintro rfl
      exact hspares hpath'
    cases file with
    | none => exact keeps_unlink hne
    | some kind => exact keeps_create hne
  | call process succeeds =>
    simp only [Host.step]
    cases hcall : host.call process with
    | openLock lock =>
      refine h.ofOpened (fun file d hopening path _ => ?_) (fun file => ?_)
        (fun file d lock' hopening hnext => ?_) fun file lock' file' hnext => ?_
      · exact keeps_of_openOrCreate (Option.ite_none_right_eq_some.mp hopening).2 path
      · rw [hcall]
        cases lock <;> rfl
      · obtain ⟨rfl, -⟩ := Call.flock.inj hnext
        exact entry_of_openOrCreate (Option.ite_none_right_eq_some.mp hopening).2
      · exact (Call.flock.inj hnext).2.symm
    | flock lock file =>
      dsimp only
      split
      · next hfree => exact h.flock hcall hfree.2
      · exact h.exit process
    | pidFile lock =>
      refine h.ofOpened (fun file d hopening path _ => ?_) (fun file => ?_)
        (fun file d lock' hopening hnext => ?_) fun file lock' file' hnext => ?_
      · exact keeps_of_openOrCreate (Option.ite_none_right_eq_some.mp hopening).2 path
      · rw [hcall]
        cases lock <;> rfl
      · cases lock <;> cases hnext
      · cases lock <;> cases hnext
    | unlinkStale =>
      refine (h.directory (hmaybe succeeds process)).advance ?_ fun _ _ hnext => ?_
      · simp only [hcall]
        rfl
      · cases hnext
    | listen =>
      refine h.ofOpened (fun file d hopening path hpath => ?_) (fun file => ?_)
        (fun file d lock' hopening hnext => ?_) fun file lock' file' hnext => ?_
      · refine keeps_of_bind (Option.ite_none_right_eq_some.mp hopening).2 ?_
        rintro rfl
        exact hapart process hpath
      · rw [hcall]
        rfl
      · cases hnext
      · cases hnext
    | wait listener =>
      refine h.advance ?_ fun _ _ hnext => ?_
      · rw [hcall]
        rfl
      · cases hnext
    | unlinkOwn => exact (h.directory (hmaybe succeeds process)).exit process
    | exited => exact h

omit [DecidableEq π] in
/-- One lock path, one process. -/
theorem Sound.eq_of_path (h : host.Sound sha256 options) (lock lock' : LockName)
    (hhas : (host.call process).Has lock)
    (hhas' : (host.call process').Has lock')
    (hpath : lock.path sha256 (options process) = lock'.path sha256 (options process')) :
    process = process' := by
  obtain ⟨file, hentry, hholder⟩ := h.holds process lock hhas
  obtain ⟨file', hentry', hholder'⟩ := h.holds process' lock' hhas'
  rw [hpath, hentry'] at hentry
  obtain rfl := Option.some.inj hentry
  exact Option.some.inj (hholder.symm.trans hholder')

/-! ### Who listens

The same changes, as far as the socket of a daemon that listens is concerned. Only a process
with the socket lock in hand touches a socket path, and it is not another one's. -/

variable (options) in
/-- A socket that listens is where its daemon's clients look for it. -/
def Reached (host : Host π) : Prop :=
  ∀ process file, host.call process = .wait file →
    host.directory.entry (options process).socketPath = some file

/-- A process that is gone listens no more; the sockets of the others stay. -/
theorem Reached.exit (h : host.Reached options) (process : π) :
    (host.exit process).Reached options := by
  intro p file hcall
  by_cases hp : p = process
  · subst hp
    simp [Host.exit] at hcall
  · simp only [Host.exit, Function.update_of_ne hp] at hcall
    exact h p file hcall

/-- A process that goes on without touching the directory. -/
theorem Reached.advance (h : host.Reached options)
    (hnext : ∀ file, next = .wait file →
      host.directory.entry (options process).socketPath = some file) :
    (host.advance process next).Reached options := by
  intro p file hcall
  by_cases hp : p = process
  · subst hp
    simp only [Host.advance, Function.update_self] at hcall
    exact hnext file hcall
  · simp only [Host.advance, Function.update_of_ne hp] at hcall
    exact h p file hcall

omit [DecidableEq π] in
/-- A change of the directory that leaves alone the sockets that are listened on. -/
theorem Reached.directory (h : host.Reached options)
    (hkeeps : ∀ process file, host.call process = .wait file →
      host.directory.Keeps d (options process).socketPath) :
    ({ host with directory := d } : Host π).Reached options :=
  fun process file hcall => hkeeps process file hcall file (h process file hcall)

omit [DecidableEq π] in
/-- Nobody else has the socket lock of a daemon that listens. -/
theorem Sound.socketPath_ne (h : host.Sound sha256 options)
    (hserves : host.call process = .wait file) (hhas : (host.call process').Has .socket)
    (hne : process ≠ process') : (options process).socketPath ≠ (options process').socketPath := by
  intro hsame
  refine hne (h.eq_of_path .socket .socket ?_ hhas ?_)
  · rw [hserves]
    exact Or.inr rfl
  · simp only [LockName.path, Options.socketLockPath, hsame]

/-- **Each step** leaves the sockets that are listened on where they are. -/
theorem Reached.step (h : host.Reached options) (hsound : host.Sound sha256 options)
    {e : Event π} (hspares : e.Spares (IsSocketPath options)) :
    (host.step sha256 options e).Reached options := by
  -- Who is past the socket lock can do nothing to the socket of another.
  have hothers : ∀ {process : π}, (host.call process).Has .socket →
      (∀ file, host.call process ≠ .wait file) → ∀ p file, host.call p = .wait file →
        (options p).socketPath ≠ (options process).socketPath := by
    intro process hhas hwaits p file hserves
    refine hsound.socketPath_ne hserves hhas ?_
    rintro rfl
    exact hwaits file hserves
  have hunlink : ∀ {process : π} {succeeds : Bool}, (host.call process).Has .socket →
      (∀ file, host.call process ≠ .wait file) →
      ({ host with directory := if succeeds
          then host.directory.unlink (options process).socketPath
          else host.directory } : Host π).Reached options := by
    intro process succeeds hhas hwaits
    refine h.directory fun p file hserves => ?_
    cases succeeds with
    | false => exact fun _ hfile => hfile
    | true => exact keeps_unlink (hothers hhas hwaits p file hserves)
  cases e with
  | kill process => exact h.exit process
  | elsewhere path file =>
    refine h.directory fun p _ _ => ?_
    have hne : (options p).socketPath ≠ path := by
      rintro rfl
      exact hspares ⟨p, rfl⟩
    cases file with
    | none => exact keeps_unlink hne
    | some kind => exact keeps_create hne
  | call process succeeds =>
    simp only [Host.step]
    cases hcall : host.call process with
    | openLock lock =>
      dsimp only
      cases hopening : (if succeeds
          then host.directory.openOrCreate (lock.path sha256 (options process)) else none) with
      | none => exact h.exit process
      | some found =>
        have hopen := (Option.ite_none_right_eq_some.mp hopening).2
        exact (h.directory fun p _ _ => keeps_of_openOrCreate hopen _).advance fun _ hnext => by
          cases hnext
    | flock lock file =>
      dsimp only
      split
      · refine Reached.advance (fun p file hp => h p file hp) fun _ hnext => ?_
        cases hnext
      · exact h.exit process
    | pidFile lock =>
      dsimp only
      cases hopening : (if succeeds
          then host.directory.openOrCreate (lock.pidPath sha256 (options process)) else none) with
      | none => exact h.exit process
      | some found =>
        have hopen := (Option.ite_none_right_eq_some.mp hopening).2
        refine (h.directory fun p _ _ => keeps_of_openOrCreate hopen _).advance fun _ hnext => ?_
        cases lock <;> cases hnext
    | unlinkStale =>
      refine (hunlink (by rw [hcall]; exact Or.inr rfl) fun _ => by simp [hcall]).advance
        fun _ hnext => ?_
      cases hnext
    | listen =>
      dsimp only
      cases hopening : (if succeeds
          then host.directory.bind (options process).socketPath else none) with
      | none => exact h.exit process
      | some found =>
        obtain ⟨file, d⟩ := found
        have hbind := (Option.ite_none_right_eq_some.mp hopening).2
        refine (h.directory fun p file hserves => ?_).advance fun file' hnext => ?_
        · refine keeps_of_bind hbind (hothers ?_ ?_ p file hserves)
          · rw [hcall]
            exact Or.inr rfl
          · simp [hcall]
        · obtain rfl := Call.wait.inj hnext
          exact entry_of_bind hbind
    | wait listener =>
      refine h.advance fun _ hnext => ?_
      cases hnext
    | unlinkOwn =>
      exact (hunlink (by rw [hcall]; exact Or.inr rfl) fun _ => by simp [hcall]).exit process
    | exited => exact h

variable (sha256 options) in
/-- The daemons keep apart. -/
structure Separate (host : Host π) : Prop where
  /-- One daemon past `AcquireLocks` for a book. -/
  book : ∀ process process', process ≠ process' →
    (host.call process).stage = .bothLocked → (host.call process').stage = .bothLocked →
    (options process).bookLockPath sha256 ≠ (options process').bookLockPath sha256
  /-- One daemon past the socket lock for a socket. -/
  socket : ∀ process process', process ≠ process' →
    (host.call process).Has .socket → (host.call process').Has .socket →
    (options process).socketPath ≠ (options process').socketPath
  reached : host.Reached options

/-- **In every run** the locks are where they should be, and so are the sockets. -/
theorem sound_run {events : List (Event π)}
    (hapart : ∀ process, ¬IsLockPath sha256 options (options process).socketPath)
    (hlocks : ∀ e ∈ events, e.Spares (IsLockPath sha256 options))
    (hsockets : ∀ e ∈ events, e.Spares (IsSocketPath options)) :
    ((initial d).run sha256 options events).Sound sha256 options ∧
      ((initial d).run sha256 options events).Reached options := by
  have hrun : Machine.Along (Host.step sha256 options)
      (fun _ e => e.Spares (IsLockPath sha256 options) ∧ e.Spares (IsSocketPath options))
      (initial d) events :=
    Machine.along_of_forall.mpr fun e he => ⟨hlocks e he, hsockets e he⟩
  exact hrun.invariant
    (I := fun host => host.Sound sha256 options ∧ host.Reached options)
    ⟨Sound.initial, fun _ _ hcall => by cases hcall⟩
    fun host e hinv hspares =>
      ⟨hinv.1.step hapart hspares.1, hinv.2.step hinv.1 hspares.2⟩

/-- **The daemons of a machine keep apart**, in every run that leaves their files alone. -/
theorem separate {events : List (Event π)}
    (hapart : ∀ process, ¬IsLockPath sha256 options (options process).socketPath)
    (hlocks : ∀ e ∈ events, e.Spares (IsLockPath sha256 options))
    (hsockets : ∀ e ∈ events, e.Spares (IsSocketPath options)) :
    ((initial d).run sha256 options events).Separate sha256 options := by
  obtain ⟨hsound, hreached⟩ := sound_run hapart hlocks hsockets
  refine ⟨fun p p' hne hp hp' hsame => ?_, fun p p' hne hp hp' hsame => ?_, hreached⟩
  · exact hne (hsound.eq_of_path .book .book hp hp' hsame)
  · refine hne (hsound.eq_of_path .socket .socket hp hp' ?_)
    simp only [LockName.path, Options.socketLockPath, hsame]

/-! ### A daemon that is killed and started again -/

section Witness

/-- A daemon of the book at `path`. -/
def daemonOf (path socketPath : String) : Options :=
  { bookUri := cstr "sqlite3://" ++ cstr path, socketPath := cstr socketPath }

/-- The daemon, and the daemon started again. -/
def startedTwice : Bool → Options := fun _ => daemonOf "/book.gnucash" "/run/daichod"

/-- The first serves and is killed. -/
def killed : List (Event Bool) := List.replicate 8 (.call true true) ++ [.kill true]

/-- The second starts. -/
def startedAgain : List (Event Bool) := List.replicate 8 (.call false true)

/-- No other program is in these steps. -/
theorem spares_killed (paths : CString → Prop) :
    ∀ e ∈ killed ++ startedAgain, e.Spares paths := by
  have hnone : ∀ e ∈ killed ++ startedAgain, ∀ path file, e ≠ .elsewhere path file := by
    intro e he path file
    simp only [killed, startedAgain, List.mem_append, List.mem_replicate, List.mem_singleton] at he
    rcases he with (⟨-, rfl⟩ | rfl) | ⟨-, rfl⟩ <;> simp
  intro e he
  cases e with
  | elsewhere path file => exact absurd rfl (hnone _ he path file)
  | call p succeeds => trivial
  | kill p => trivial
/-- The socket is at no lock path. -/
theorem startedTwice_socketPath (process : Bool) :
    ¬IsLockPath sha256Books startedTwice (startedTwice process).socketPath := by
  have hlock : ∀ lock : LockName, (startedTwice true).socketPath
      ≠ lock.path sha256Books (startedTwice true) := by
    intro lock
    cases lock <;> decide +kernel
  rintro ⟨p, lock, h⟩
  exact hlock lock h

/-- The daemon started again is the only one. -/
theorem separate_startedTwice :
    ((initial .empty).run sha256Books startedTwice (killed ++ startedAgain)).Separate sha256Books
      startedTwice :=
  separate startedTwice_socketPath (spares_killed _) (spares_killed _)

/-- A daemon whose socket is to be where its book's lock file is, and another of the book. -/
def onOwnLock : Bool → Options
  | true => daemonOf "/book.gnucash" "/book.gnucash.daichod.lock"
  | false => daemonOf "/book.gnucash" "/run/daichod"

/-- The first daemon removes the lock file it has just locked, and the second makes a new
one. -/
example :
    let host := (initial .empty).run sha256Books onOwnLock
      (List.replicate 7 (.call true true) ++ List.replicate 6 (.call false true))
    (host.call true).stage = .bothLocked ∧ (host.call false).stage = .bothLocked := by
  decide +kernel

end Witness

end Host

end Daichod