import Daichod.Properties.Instances

/-!
# Daichod.Properties.CrashRestart

**What a dead daemon leaves behind is in nobody's way** (`Host.restarts`): a daemon that nobody
keeps from its locks comes to serve with its eighth call, whatever sockets, lock files and pid
files the runs before it have left, and whatever the others do in between.

## Proof shape

Eight calls lie between `main` and the listening socket, and `Call.made` counts them. An `open`
or `fopen` of a lock file or pid file fails only on a socket, and no socket is ever at such a
path (`Plain`, from `Changed`, which says once what a step can do to the directory). A `flock`
fails only on a lock that somebody holds, and whoever could is gone or has other lock files
(`Alone`). A `bind` fails only where something is, and the path was cleared by the call before
(`Starting.clear`): in between, only a process with the socket lock could have put something
there. `Starting` is the invariant of the daemon on its way, one step more with each of its own
calls and none with the calls of the others.
-/

universe u

namespace Daichod

open Directory

namespace Host

variable {π : Type u} [DecidableEq π] {sha256 : CString → CString} {options : π → Options}
  {host : Host π} {process : π} {d : Directory} {file : ℕ}

/-! ### What a step does to the directory and to the processes

A call changes the directory in one of three ways (a file is opened, a path is unlinked, a socket
is bound), and another program removes a file or puts one there. Later proofs take these cases
from `Changed` and do not look at the calls again. -/

variable (sha256 options) in
/-- A pid file of one of the processes. -/
def IsPidPath (path : CString) : Prop :=
  ∃ process lock, path = LockName.pidPath sha256 (options process) lock

variable (sha256 options) in
/-- How a step leaves the directory. -/
inductive Changed (host : Host π) : Event π → Directory → Prop
  | same {e : Event π} : Changed host e host.directory
  | opened {process : π} {succeeds : Bool} {path : CString} {file : ℕ} {d : Directory}
      (hpath : IsLockPath sha256 options path ∨ IsPidPath sha256 options path)
      (hopen : host.directory.openOrCreate path = some (file, d)) :
      Changed host (.call process succeeds) d
  | unlinked {process : π} {succeeds : Bool} :
      Changed host (.call process succeeds)
        (host.directory.unlink (options process).socketPath)
  | bound {process : π} {succeeds : Bool} {file : ℕ} {d : Directory}
      (hcall : host.call process = .listen)
      (hbind : host.directory.bind (options process).socketPath = some (file, d)) :
      Changed host (.call process succeeds) d
  | removed {path : CString} : Changed host (.elsewhere path none) (host.directory.unlink path)
  | put {path : CString} {kind : FileKind} :
      Changed host (.elsewhere path (some kind)) (host.directory.create path kind)

/-- Every step is one of these changes. -/
theorem changed_step (e : Event π) :
    Changed sha256 options host e (host.step sha256 options e).directory := by
  have hunlink : ∀ (process : π) (succeeds : Bool),
      Changed sha256 options host (.call process succeeds)
        (if succeeds then host.directory.unlink (options process).socketPath
          else host.directory) := by
    intro process succeeds
    cases succeeds with
    | false => exact .same
    | true => exact .unlinked
  cases e with
  | kill process => exact .same
  | elsewhere path file =>
    cases file with
    | none => exact .removed
    | some kind => exact .put
  | call process succeeds =>
    simp only [Host.step]
    -- one case a system call; where the call fails, the directory is as it was
    cases hcall : host.call process with
    | openLock lock =>
      dsimp only
      cases hopening : (if succeeds
          then host.directory.openOrCreate (lock.path sha256 (options process)) else none) with
      | none => exact .same
      | some found =>
        exact .opened (Or.inl ⟨process, lock, rfl⟩) (Option.ite_none_right_eq_some.mp hopening).2
    | flock lock file =>
      dsimp only
      split
      · exact .same
      · exact .same
    | pidFile lock =>
      dsimp only
      cases hopening : (if succeeds
          then host.directory.openOrCreate (lock.pidPath sha256 (options process)) else none) with
      | none => exact .same
      | some found =>
        exact .opened (Or.inr ⟨process, lock, rfl⟩) (Option.ite_none_right_eq_some.mp hopening).2
    | unlinkStale => exact hunlink process succeeds
    | listen =>
      dsimp only
      cases hopening : (if succeeds
          then host.directory.bind (options process).socketPath else none) with
      | none => exact .same
      | some found => exact .bound hcall (Option.ite_none_right_eq_some.mp hopening).2
    | wait listener => exact .same
    | unlinkOwn => exact hunlink process succeeds
    | exited => exact .same

/-- What a process does next is its own matter. -/
theorem call_step_of_ne {e : Event π} (hcall : ∀ succeeds, e ≠ .call process succeeds)
    (hkill : e ≠ .kill process) :
    (host.step sha256 options e).call process = host.call process := by
  cases e with
  | elsewhere path file => rfl
  | kill other =>
    have hne : process ≠ other := by
      rintro rfl
      exact hkill rfl
    exact Function.update_of_ne hne ..
  | call other succeeds =>
    have hne : process ≠ other := by
      rintro rfl
      exact hcall succeeds rfl
    -- an opening by another process moves only that process on
    have hopened : ∀ opening next,
        (host.opened other opening next).call process = host.call process := by
      intro opening next
      cases opening with
      | none => exact Function.update_of_ne hne ..
      | some found => exact Function.update_of_ne hne ..
    simp only [Host.step]
    cases host.call other with
    | openLock lock => exact hopened _ _
    | flock lock file =>
      dsimp only
      split
      · exact Function.update_of_ne hne ..
      · exact Function.update_of_ne hne ..
    | pidFile lock => exact hopened _ _
    | unlinkStale => exact Function.update_of_ne hne ..
    | listen => exact hopened _ _
    | wait listener => exact Function.update_of_ne hne ..
    | unlinkOwn => exact Function.update_of_ne hne ..
    | exited => rfl

/-- Nobody comes back. -/
theorem call_step_of_exited {e : Event π} (h : host.call process = .exited) :
    (host.step sha256 options e).call process = .exited := by
  -- Its own call does nothing, a kill leaves it gone, and the others do not reach it.
  by_cases hcall : ∃ succeeds, e = .call process succeeds
  · obtain ⟨succeeds, rfl⟩ := hcall
    simp [Host.step, h]
  · by_cases hkill : e = .kill process
    · subst hkill
      exact Function.update_self ..
    · rw [call_step_of_ne (fun succeeds heq => hcall ⟨succeeds, heq⟩) hkill, h]

/-! ### Files that can be opened

An `open` with `O_CREAT` fails on nothing but a socket. So it is enough that no socket ever gets
to a lock file's or a pid file's path. -/

variable (sha256 options) in
/-- A file of one of the processes. -/
def IsOwnPath (path : CString) : Prop :=
  IsLockPath sha256 options path ∨ IsPidPath sha256 options path ∨ IsSocketPath options path

variable (sha256 options) in
/-- No socket is at a lock file's or a pid file's path. -/
def Plain (d : Directory) : Prop :=
  ∀ path, IsLockPath sha256 options path ∨ IsPidPath sha256 options path →
    ∀ file, d.entry path = some file → d.kind file = .regular

variable (sha256 options) in
/-- No `--socket` is a lock file or a pid file. -/
def Apart : Prop :=
  ∀ process, ¬IsLockPath sha256 options (options process).socketPath ∧
    ¬IsPidPath sha256 options (options process).socketPath

omit [DecidableEq π] in
/-- A file put elsewhere is at none of these paths. -/
theorem Plain.create_of_ne {path : CString} {kind : FileKind} (h : Plain sha256 options d)
    (hpath : ¬(IsLockPath sha256 options path ∨ IsPidPath sha256 options path)) :
    Plain sha256 options (d.create path kind) := by
  intro path' hpath' file hentry
  have hne : path' ≠ path := by
    rintro rfl
    exact hpath hpath'
  rw [create_entry_of_ne hne] at hentry
  rw [create_kind_of_entry hentry]
  exact h path' hpath' file hentry

omit [DecidableEq π] in
/-- Nothing is put there by an unlinking. -/
theorem Plain.unlink {path : CString} (h : Plain sha256 options d) :
    Plain sha256 options (d.unlink path) := by
  intro path' hpath' file hentry
  by_cases heq : path' = path
  · subst heq
    simp at hentry
  · rw [unlink_entry_of_ne heq] at hentry
    exact h path' hpath' file hentry

omit [DecidableEq π] in
/-- A file that is created by opening it is a regular one. -/
theorem Plain.openOrCreate {path : CString} {d' : Directory} (h : Plain sha256 options d)
    (hopen : d.openOrCreate path = some (file, d')) : Plain sha256 options d' := by
  -- The file was there, or a regular one is made.
  rcases openOrCreate_some hopen with ⟨-, rfl⟩ | ⟨-, -, rfl⟩
  · exact h
  · intro path' hpath' file' hentry
    by_cases heq : path' = path
    · subst heq
      obtain rfl : d.fresh = file' := by simpa using hentry
      exact Function.update_self ..
    · rw [create_entry_of_ne heq] at hentry
      rw [create_kind_of_entry hentry]
      exact h path' hpath' file' hentry

omit [DecidableEq π] in
/-- A plain file can be opened. -/
theorem Plain.isSome_openOrCreate {path : CString} (h : Plain sha256 options d)
    (hpath : IsLockPath sha256 options path ∨ IsPidPath sha256 options path) :
    ∃ file d', d.openOrCreate path = some (file, d') := by
  unfold Directory.openOrCreate
  cases hentry : d.entry path with
  | none => exact ⟨_, _, rfl⟩
  | some file =>
    have hregular : d.kind file ≠ .socket := by
      rw [h path hpath file hentry]
      exact FileKind.noConfusion
    exact ⟨file, d, if_neg hregular⟩

/-- **No step** puts a socket there: only a `bind` makes one, at some process's own `--socket`,
which is apart from these paths. -/
theorem Plain.step {e : Event π} (h : Plain sha256 options host.directory)
    (hapart : Apart sha256 options) (hspares : e.Spares (IsOwnPath sha256 options)) :
    Plain sha256 options (host.step sha256 options e).directory := by
  have hsocket : ∀ p : π, ¬(IsLockPath sha256 options (options p).socketPath ∨
      IsPidPath sha256 options (options p).socketPath) := by
    rintro p (hlock | hpid)
    · exact (hapart p).1 hlock
    · exact (hapart p).2 hpid
  have hchanged : Changed sha256 options host e (host.step sha256 options e).directory :=
    changed_step e
  generalize (host.step sha256 options e).directory = d at hchanged
  cases hchanged with
  | same => exact h
  | opened hpath hopen => exact h.openOrCreate hopen
  | unlinked => exact h.unlink
  | bound hcall hbind =>
    obtain ⟨-, rfl⟩ := bind_some hbind
    exact h.create_of_ne (hsocket _)
  | removed => exact h.unlink
  -- Other programs put nothing at the paths they spare.
  | put =>
    refine h.create_of_ne fun hpath => hspares ?_
    exact hpath.elim Or.inl fun hpid => Or.inr (Or.inl hpid)

end Host

/-! ### The calls of a start

`Call.made` numbers the calls of a daemon in their order, so that a daemon's way from `main` to
the listening socket is a number that grows by one with each of its own calls. -/

/-- How many calls have been made. -/
def Call.made : Call → ℕ
  | .openLock .socket => 0
  | .flock .socket _ => 1
  | .pidFile .socket => 2
  | .openLock .book => 3
  | .flock .book _ => 4
  | .pidFile .book => 5
  | .unlinkStale => 6
  | .listen => 7
  | .wait _ => 8
  | .unlinkOwn | .exited => 9

/-- A daemon that has made eight calls waits on its socket. -/
theorem Call.eq_wait_of_made {call : Call} (h : call.made = 8) : ∃ file, call = .wait file := by
  cases call with
  | wait file => exact ⟨file, rfl⟩
  | openLock lock => cases lock <;> cases h
  | flock lock file => cases lock <;> cases h
  | pidFile lock => cases lock <;> cases h
  | unlinkStale => cases h
  | listen => cases h
  | unlinkOwn => cases h
  | exited => cases h

namespace Host

variable {π : Type u} [DecidableEq π] {sha256 : CString → CString} {options : π → Options}
  {host : Host π} {process : π} {d : Directory} {file : ℕ} {lock : LockName} {next : Call}

/-- It is a call of the process. -/
def Event.isCallOf (process : π) : Event π → Bool
  | .call p _ => p = process
  | _ => false

/-- Nothing fails for the process, and nobody kills it. -/
def Event.Lets (process : π) : Event π → Prop
  | .call p succeeds => p = process → succeeds = true
  | .kill p => p ≠ process
  | .elsewhere .. => True

variable (sha256 options process) in
/-- Nobody who is there, or may yet come, has a lock file of the process. -/
def Alone (host : Host π) : Prop :=
  ∀ p, p ≠ process → host.call p = .exited ∨
    ∀ lock lock' : LockName, lock.path sha256 (options p) ≠ lock'.path sha256 (options process)

/-- Who is gone stays gone, and nobody's options change. -/
theorem Alone.step {e : Event π} (h : host.Alone sha256 options process) :
    (host.step sha256 options e).Alone sha256 options process := by
  intro p hp
  rcases h p hp with hexited | hdisjoint
  · exact Or.inl (call_step_of_exited hexited)
  · exact Or.inr hdisjoint

/-- The lock that a process alone is about to take is free. -/
theorem Alone.holder (h : host.Alone sha256 options process)
    (hsound : host.Sound sha256 options)
    (hown : LockName.socket.path sha256 (options process)
      ≠ LockName.book.path sha256 (options process))
    (hcall : host.call process = .flock lock file) : host.holder file = none := by
  cases hholder : host.holder file with
  | none => rfl
  | some p =>
    obtain ⟨lock', hhas, hentry⟩ := hsound.held file p hholder
    have hpath : lock'.path sha256 (options p) = lock.path sha256 (options process) :=
      host.directory.entry_inj _ _ file hentry (hsound.opened process lock file hcall)
    -- It is not the process itself, which has yet to make this very call and whose other lock is at
    -- another path.
    by_cases hp : p = process
    · subst hp
      rw [hcall] at hhas
      cases lock with
      | socket => cases lock' <;> simp [Call.Has, Call.stage] at hhas
      | book =>
        cases lock' with
        | socket => exact absurd hpath hown
        | book => simp [Call.Has, Call.stage] at hhas
    -- Nor another one that is there, since it would have a lock file of this process.
    · rcases h p hp with hexited | hdisjoint
      · rw [hexited] at hhas
        cases lock' <;> simp [Call.Has, Call.stage] at hhas
      · exact absurd hpath (hdisjoint lock' lock)

variable (sha256 options process) in
/-- A process that has made `n` calls, alone with its files. -/
structure Starting (host : Host π) (n : ℕ) : Prop where
  sound : host.Sound sha256 options
  plain : Plain sha256 options host.directory
  alone : host.Alone sha256 options process
  made : n ≤ 8 → (host.call process).made = n
  clear : host.call process = .listen → host.directory.entry (options process).socketPath = none

/-- A call that can open its file does. -/
theorem call_step_opened {opening : Option (ℕ × Directory)} (host : Host π) (process : π)
    (next : ℕ → Call) (h : ∃ file d, opening = some (file, d)) :
    ∃ file, (host.opened process opening next).call process = next file := by
  obtain ⟨file, d, rfl⟩ := h
  exact ⟨file, Function.update_self ..⟩

/-- **A call of its own** takes the process on. -/
theorem Starting.call {n : ℕ} (h : host.Starting sha256 options process n)
    (hown : LockName.socket.path sha256 (options process)
      ≠ LockName.book.path sha256 (options process)) :
    (n + 1 ≤ 8 → ((host.step sha256 options (.call process true)).call process).made = n + 1) ∧
      ((host.step sha256 options (.call process true)).call process = .listen →
        (host.step sha256 options (.call process true)).directory.entry
          (options process).socketPath = none) := by
  simp only [Host.step]
  cases hcall : host.call process with
  -- each case: the call goes through, and the next one is numbered one higher
  | openLock lock =>
    have hopens := h.plain.isSome_openOrCreate (Or.inl ⟨process, lock, rfl⟩)
    obtain ⟨file, hnext⟩ := call_step_opened host process (Call.flock lock) hopens
    simp only [↓reduceIte, hnext]
    refine ⟨fun hn => ?_, fun hlisten => by cases hlisten⟩
    have hmade := h.made (by omega)
    rw [hcall] at hmade
    cases lock <;> simp only [Call.made] at hmade ⊢ <;> omega
  -- the lock is free, since the process is alone with the file
  | flock lock file =>
    have hfree := h.alone.holder h.sound hown hcall
    simp only [hfree, and_self, if_true, Host.advance, Function.update_self]
    refine ⟨fun hn => ?_, fun hlisten => by cases hlisten⟩
    have hmade := h.made (by omega)
    rw [hcall] at hmade
    cases lock <;> simp only [Call.made] at hmade ⊢ <;> omega
  | pidFile lock =>
    have hopens := h.plain.isSome_openOrCreate (Or.inr ⟨process, lock, rfl⟩)
    obtain ⟨file, hnext⟩ := call_step_opened host process (fun _ => lock.next) hopens
    simp only [↓reduceIte, hnext]
    refine ⟨fun hn => ?_, fun hlisten => by cases lock <;> cases hlisten⟩
    have hmade := h.made (by omega)
    rw [hcall] at hmade
    cases lock <;> simp only [Call.made, LockName.next] at hmade ⊢ <;> omega
  | unlinkStale =>
    simp only [Host.advance, Function.update_self]
    refine ⟨fun hn => ?_, fun _ => unlink_entry_self⟩
    have hmade := h.made (by omega)
    rw [hcall] at hmade
    simp only [Call.made] at hmade ⊢
    omega
  -- the path is clear since the call before, so that the `bind` goes through
  | listen =>
    have hbinds : ∃ file d, host.directory.bind (options process).socketPath
        = some (file, d) := by
      unfold Directory.bind
      rw [h.clear hcall]
      exact ⟨_, _, rfl⟩
    obtain ⟨file, hnext⟩ := call_step_opened host process Call.wait hbinds
    simp only [↓reduceIte, hnext]
    refine ⟨fun hn => ?_, fun hlisten => by cases hlisten⟩
    have hmade := h.made (by omega)
    rw [hcall] at hmade
    simp only [Call.made] at hmade ⊢
    omega
  | wait listener =>
    simp only [Host.advance, Function.update_self]
    refine ⟨fun hn => ?_, fun hlisten => by cases hlisten⟩
    have hmade := h.made (by omega)
    rw [hcall] at hmade
    simp only [Call.made] at hmade
    omega
  | unlinkOwn =>
    simp only [Host.exit, Function.update_self]
    refine ⟨fun hn => ?_, fun hlisten => by cases hlisten⟩
    have hmade := h.made (by omega)
    rw [hcall] at hmade
    simp only [Call.made] at hmade
    omega
  | exited =>
    refine ⟨fun hn => ?_, fun hlisten => by rw [hcall] at hlisten; cases hlisten⟩
    have hmade := h.made (by omega)
    rw [hcall] at hmade
    simp only [Call.made] at hmade
    omega

/-- **What the others do** leaves the path of the socket clear. -/
theorem Starting.clear_of_others {n : ℕ} {e : Event π}
    (h : host.Starting sha256 options process n) (hapart : Apart sha256 options)
    (hspares : e.Spares (IsOwnPath sha256 options))
    (hcalls : ∀ succeeds, e ≠ .call process succeeds) (hcall : host.call process = .listen) :
    (host.step sha256 options e).directory.entry (options process).socketPath = none := by
  have hclear := h.clear hcall
  have hchanged : Changed sha256 options host e (host.step sha256 options e).directory :=
    changed_step e
  generalize (host.step sha256 options e).directory = d at hchanged
  -- A file made elsewhere is not at the socket's path, and unlinking makes none.
  have hcreate : ∀ {path : CString} {kind : FileKind}, path ≠ (options process).socketPath →
      (host.directory.create path kind).entry (options process).socketPath = none := by
    intro path kind hne
    rw [create_entry_of_ne hne.symm, hclear]
  have hunlink : ∀ path : CString,
      (host.directory.unlink path).entry (options process).socketPath = none := by
    intro path
    by_cases heq : (options process).socketPath = path
    · rw [heq, unlink_entry_self]
    · rw [unlink_entry_of_ne heq, hclear]
  cases hchanged with
  | same => exact hclear
  | opened hpath hopen =>
    rcases openOrCreate_some hopen with ⟨-, rfl⟩ | ⟨-, -, rfl⟩
    · exact hclear
    · refine hcreate ?_
      rintro rfl
      exact hpath.elim (hapart process).1 (hapart process).2
  | unlinked => exact hunlink _
  | bound hlistens hbind =>
    next other succeeds file =>
    obtain ⟨-, rfl⟩ := bind_some hbind
    refine hcreate fun hsame => ?_
    have hne : other ≠ process := by
      rintro rfl
      exact hcalls succeeds rfl
    -- Who listens there has the socket lock of the process.
    rcases h.alone other hne with hexited | hdisjoint
    · rw [hexited] at hlistens
      cases hlistens
    · refine hdisjoint .socket .socket ?_
      simp only [LockName.path, Options.socketLockPath, hsame]
  | removed => exact hunlink _
  | put =>
    refine hcreate ?_
    rintro rfl
    exact hspares (Or.inr (Or.inr ⟨process, rfl⟩))

/-- **A step on the way**: a call of the process itself is one more made, and the steps of the
others neither make one nor put anything in its way. -/
theorem Starting.step {n : ℕ} {e : Event π} (h : host.Starting sha256 options process n)
    (hapart : Apart sha256 options)
    (hown : LockName.socket.path sha256 (options process)
      ≠ LockName.book.path sha256 (options process))
    (hspares : e.Spares (IsOwnPath sha256 options)) (hlets : e.Lets process) :
    (host.step sha256 options e).Starting sha256 options process
      (n + if e.isCallOf process then 1 else 0) := by
  have hlocks : e.Spares (IsLockPath sha256 options) := by
    cases e with
    | elsewhere path file => exact fun hpath => hspares (Or.inl hpath)
    | call p succeeds => trivial
    | kill p => trivial
  have hsound := h.sound.step (fun p => (hapart p).1) hlocks
  have hplain := h.plain.step hapart hspares
  by_cases hcalls : ∃ succeeds, e = .call process succeeds
  · obtain ⟨succeeds, rfl⟩ := hcalls
    obtain rfl : succeeds = true := hlets rfl
    obtain ⟨hmade, hclear⟩ := h.call hown
    have hone : (Event.call process true).isCallOf process = true := by simp [Event.isCallOf]
    rw [if_pos hone]
    exact ⟨hsound, hplain, h.alone.step, hmade, hclear⟩
  -- the step is not the process's own, so its next call is the same
  · have hnone : e.isCallOf process = false := by
      cases e with
      | call p succeeds =>
        refine decide_eq_false ?_
        rintro rfl
        exact hcalls ⟨succeeds, rfl⟩
      | kill p => rfl
      | elsewhere path file => rfl
    have hcalls : ∀ succeeds, e ≠ .call process succeeds :=
      fun succeeds heq => hcalls ⟨succeeds, heq⟩
    have hkill : e ≠ .kill process := by
      rintro rfl
      exact hlets rfl
    have hsame : (host.step sha256 options e).call process = host.call process :=
      call_step_of_ne hcalls hkill
    rw [hnone, if_neg (by simp), Nat.add_zero]
    refine ⟨hsound, hplain, h.alone.step, fun hn => ?_, fun hlisten => ?_⟩
    · rw [hsame]
      exact h.made hn
    · rw [hsame] at hlisten
      exact h.clear_of_others hapart hspares hcalls hlisten

/-- A whole stretch of steps on the way counts the process's own calls. -/
theorem Starting.run {n : ℕ} {events : List (Event π)}
    (h : host.Starting sha256 options process n) (hapart : Apart sha256 options)
    (hown : LockName.socket.path sha256 (options process)
      ≠ LockName.book.path sha256 (options process))
    (hspares : ∀ e ∈ events, e.Spares (IsOwnPath sha256 options))
    (hlets : ∀ e ∈ events, e.Lets process) :
    (host.run sha256 options events).Starting sha256 options process
      (n + events.countP (Event.isCallOf process)) := by
  induction events generalizing host n with
  | nil => exact h
  | cons e events ih =>
    have hstep := h.step hapart hown (hspares e List.mem_cons_self) (hlets e List.mem_cons_self)
    have hrest := ih hstep (fun e' he' => hspares e' (List.mem_cons_of_mem _ he'))
      fun e' he' => hlets e' (List.mem_cons_of_mem _ he')
    rw [List.countP_cons, Nat.add_comm (events.countP _), ← Nat.add_assoc]
    exact hrest

omit [DecidableEq π] in
/-- Who spares more paths spares these. -/
theorem Event.Spares.mono {paths paths' : CString → Prop} {e : Event π} (h : e.Spares paths')
    (hpaths : ∀ path, paths path → paths' path) : e.Spares paths := by
  cases e with
  | elsewhere path file => exact fun hpath => h (hpaths path hpath)
  | call p succeeds => trivial
  | kill p => trivial

/-- No run puts a socket at a lock file's or a pid file's path. -/
theorem plain_run {events : List (Event π)} (hplain : Plain sha256 options d)
    (hapart : Apart sha256 options)
    (hspares : ∀ e ∈ events, e.Spares (IsOwnPath sha256 options)) :
    Plain sha256 options ((initial d).run sha256 options events).directory := by
  have hrun : Machine.Along (Host.step sha256 options)
      (fun _ e => e.Spares (IsOwnPath sha256 options)) (initial d) events :=
    Machine.along_of_forall.mpr hspares
  exact hrun.invariant (I := fun host : Host π => Plain sha256 options host.directory) hplain
    fun host e hhost he => hhost.step hapart he

/-- **A crash is a restart**: whatever a run has left of the daemons that are gone, a daemon
that nobody keeps from its locks comes to serve with its eighth call, whatever the others do
in between. -/
theorem restarts {events more : List (Event π)}
    (hown : LockName.socket.path sha256 (options process)
      ≠ LockName.book.path sha256 (options process))
    (hplain : Plain sha256 options d) (hapart : Apart sha256 options)
    (hspares : ∀ e ∈ events ++ more, e.Spares (IsOwnPath sha256 options))
    (hnew : ((initial d).run sha256 options events).call process = .openLock .socket)
    (halone : ((initial d).run sha256 options events).Alone sha256 options process)
    (hlets : ∀ e ∈ more, e.Lets process)
    (hcalls : more.countP (Event.isCallOf process) = 8) :
    ∃ file, ((initial d).run sha256 options (events ++ more)).call process = .wait file ∧
      ((initial d).run sha256 options (events ++ more)).directory.entry
        (options process).socketPath = some file := by
  have hbefore : ∀ e ∈ events, e.Spares (IsOwnPath sha256 options) :=
    fun e he => hspares e (List.mem_append_left _ he)
  have hafter : ∀ e ∈ more, e.Spares (IsOwnPath sha256 options) :=
    fun e he => hspares e (List.mem_append_right _ he)
  have hlocks : ∀ p : π, ¬IsLockPath sha256 options (options p).socketPath := fun p => (hapart p).1
  have hsound : ((initial d).run sha256 options events).Sound sha256 options :=
    (sound_run hlocks (fun e he => (hbefore e he).mono fun _ => Or.inl)
      fun e he => (hbefore e he).mono fun _ hpath => Or.inr (Or.inr hpath)).1
  -- when it starts, a daemon has made no call yet, and everything else is as the runs before left
  -- it
  have hstarting : ((initial d).run sha256 options events).Starting sha256 options process 0 := by
    refine ⟨hsound, plain_run hplain hapart hbefore, halone, fun _ => ?_, fun hlisten => ?_⟩
    · rw [hnew]
      rfl
    · rw [hnew] at hlisten
      cases hlisten
  have hmade := (hstarting.run hapart hown hafter hlets).made (by omega)
  rw [hcalls, Nat.zero_add] at hmade
  have hserves : ∃ file, ((initial d).run sha256 options (events ++ more)).call process
      = .wait file := by
    rw [Host.run, Machine.run_append]
    exact Call.eq_wait_of_made hmade
  obtain ⟨file, hserves⟩ := hserves
  have hreached := (sound_run (d := d) hlocks (fun e he => (hspares e he).mono fun _ => Or.inl)
    fun e he => (hspares e he).mono fun _ hpath => Or.inr (Or.inr hpath)).2
  exact ⟨file, hserves, hreached process file hserves⟩

section Witness

/-- The socket of this daemon is none of its lock files and pid files. -/
theorem apart_startedTwice : Apart sha256Books startedTwice := by
  have hpid : ∀ lock : LockName, (startedTwice true).socketPath
      ≠ lock.pidPath sha256Books (startedTwice true) := by
    intro lock
    cases lock <;> decide +kernel
  refine fun process => ⟨startedTwice_socketPath process, ?_⟩
  rintro ⟨p, lock, h⟩
  exact hpid lock h

/-- The socket that the first left behind is in nobody's way. -/
theorem restarts_startedTwice :
    ∃ file, ((initial .empty).run sha256Books startedTwice (killed ++ startedAgain)).call false
        = .wait file ∧
      ((initial .empty).run sha256Books startedTwice (killed ++ startedAgain)).directory.entry
        (cstr "/run/daichod") = some file := by
  refine restarts (by decide +kernel) ?_ apart_startedTwice (spares_killed _)
    (by decide +kernel) ?_ ?_ (by decide)
  · intro path _ file hentry
    cases hentry
  · intro p hp
    cases p with
    | false => exact absurd rfl hp
    | true => exact Or.inl (by decide +kernel)
  · intro e he
    obtain ⟨-, rfl⟩ := List.mem_replicate.mp he
    exact fun _ => rfl

end Witness

end Host

end Daichod
