import Daichod.Fleet
import Daichod.Memory
import Daichod.Properties.CrashRestart
import Daichod.Properties.LockRefinement
import Daichod.Reference

/-!
# Daichod.Properties.OneDaemon

**Many processes, one daemon**: whatever processes are started for a book, on whatever sockets
and at whatever times, and however their calls interleave, one daemon has a run that leaves the
disk as they leave it, and a process past `AcquireLocks` is that daemon as it is then
(`Fleet.one_history`). What is proved of all runs of one daemon, from exactly-once to the
account tree, so holds of the processes together.

It is the book lock that makes it so: who runs the engine holds it (`Call.stage_of_runs`).

## Proof shape

The one daemon is defined by the lock (`Fleet.one`): it is the process that holds the book's lock
file, with what that process has in memory, and with nobody holding it, it is a stopped daemon
over what is on disk. `Fleet.Sound` says that nobody has anything in memory but who has both
locks, or has exited. So each event of the fleet is one event of that daemon or none
(`Sound.one_step`): who runs the engine has both locks (`Call.stage_of_runs`), and the exit of the
holder is the death of the daemon.
-/

universe u

namespace Daichod

/-! ### A process keeps its configuration

The processes of a fleet share the book but not their options. That a process is `config` as long
as it lives is needed to say which daemon it is. -/

section Config

variable [Wire] {w : World}

/-- The last step of an edit leaves the configuration alone. -/
theorem Edit.finished_config {m : Mutation} {edit : Edit m.Response} {fate : Fate} :
    (edit.finished fate w).config = w.config := by
  unfold Edit.finished
  split <;> rfl

variable [Engine]

/-- So does a call, however it ends, -/
theorem Mutation.Ran.config {m : Mutation} {fate : Fate} {r : EStateM.Result Exn World m.Response}
    (hran : m.Ran fate w r) : (worldAfter r).config = w.config := by
  cases hran with
  | replayed hrow hparse => cases m.call.replay _ <;> rfl
  | threwAfter hreach hfinal => exact Edit.finished_config
  | killedAfterApply hreach hfinal hcrash => exact Edit.finished_config
  | outcomeFault hreach hfinal halive hfault he => exact Edit.finished_config
  | killedAfterOutcome hreach hfinal hfault hj hcrash => exact Edit.finished_config
  | returned hreach hfinal halive hfault hj => exact Edit.finished_config
  | _ => rfl

omit [Engine] in
/-- and opening the book, -/
theorem openBook_config (fate : OpenFate) (w : World) :
    (worldAfter (openBook fate w)).config = w.config := by
  rw [openBook_world]
  obtain ⟨s, hworld | hworld⟩ := Session.open_world fate w
  · rw [hworld]; rfl
  · rw [hworld]; rfl

omit [Engine] in
/-- and closing it, -/
theorem Session.close_config (fate : CloseFate) (w : World) :
    (worldAfter (Session.close fate w)).config = w.config := by
  rcases Session.close_cases fate w with ⟨-, hrun⟩ | ⟨-, -, hworld⟩ | ⟨-, -, -, hrun⟩
  · rw [hrun]; rfl
  · rw [hworld]
  · rw [hrun]; rfl

omit [Engine] in
/-- and the end of the process. -/
theorem Daemon.afterTask_config {α : Type} (r : EStateM.Result Exn World α) :
    (Daemon.afterTask r).world.config = (worldAfter r).config := by
  rcases Daemon.afterTask_world r with hworld | hworld <;> rw [hworld]
  rfl

/-- **A daemon keeps its configuration.** -/
theorem Daemon.step_config {d : Daemon} (hdown : d.Down) (e : Event) :
    (d.step e).world.config = d.world.config := by
  -- A restored file changes the book; the rest has been listed above.
  -- every event, to a process that serves and to one that does not
  cases hserving : d.serving with
  | true =>
    cases e with
    | start fate => simp only [Daemon.step, hserving, if_true]
    | mutate m fate =>
      simp only [Daemon.step, hserving, if_true]
      exact (Daemon.afterTask_config _).trans (m.ran fate d.world).config
    | openBook fate =>
      simp only [Daemon.step, hserving, if_true]
      exact (Daemon.afterTask_config _).trans (openBook_config fate d.world)
    | closeBook fate =>
      simp only [Daemon.step, hserving, if_true]
      exact (Daemon.afterTask_config _).trans (Session.close_config fate d.world)
    | terminate fate =>
      simp only [Daemon.step, hserving, if_true]
      exact Session.close_config fate d.world
    | kill => rfl
    | restore book =>
      simp only [Daemon.step]
      split <;> rfl
  | false =>
    cases e with
    | start fate =>
      obtain ⟨o, -, s, _, _, j, -, -, hworld, -⟩ := startUp_settles (hdown hserving).1 fate
      simp only [Daemon.step, hserving, Bool.false_eq_true, if_false]
      have hconfig : (worldAfter (startUp fate d.world)).config = d.world.config := by
        rw [hworld]
        rfl
      cases hrun : startUp fate d.world with
      | ok u w' => rw [hrun] at hconfig; exact hconfig
      | error e w' => rw [hrun] at hconfig; exact hconfig
    | kill => rfl
    | restore book =>
      simp only [Daemon.step]
      split <;> rfl
    | mutate m fate => simp only [Daemon.step, hserving, Bool.false_eq_true, if_false]
    | openBook fate => simp only [Daemon.step, hserving, Bool.false_eq_true, if_false]
    | closeBook fate => simp only [Daemon.step, hserving, Bool.false_eq_true, if_false]
    | terminate fate => simp only [Daemon.step, hserving, Bool.false_eq_true, if_false]

omit [Engine] in
/-- A daemon that is down is what is on its disk. -/
theorem Daemon.Down.eq_world {d : Daemon} (h : d.Down) (hserving : d.serving = false) :
    d = ⟨d.world.disk.world d.world.config, false⟩ := by
  obtain ⟨hquiet, hsession⟩ := h hserving
  rw [← World.eq_world hquiet hsession, ← hserving]

end Config

/-! ### Who holds a lock file

The table of the locks is a function of the machine (`Host.table`), so its steps are those of
`LockTable`. -/

namespace LockTable

variable {π : Type u} [DecidableEq π] {sha256 : CString → CString} {options : π → Options}

/-- A step takes a lock that is free, by a process that has not both, or ends a process, or
changes nothing. -/
theorem step_cases (table : LockTable π) (e : Event π) :
    table.step sha256 options e = table ∨ (∃ p, table.step sha256 options e = table.release p) ∨
      ∃ p path stage, table.holder path = none ∧ table.stage p ≠ .bothLocked ∧
        table.stage p ≠ .exited ∧ table.step sha256 options e = table.take p path stage := by
  -- a lock that could be taken had no holder
  have free : ∀ {path pidPath reason : CString} {fate : LockFate} {u : Unit},
      acquireOneLock fate (table.holder path).isSome path pidPath reason = .ok u →
        table.holder path = none := by
    intro path pidPath reason fate u hok
    exact Option.isNone_iff_eq_none.mp (by simpa using acquireOneLock_ok hok)
  cases e with
  -- an exit, then the two locks: each is taken, or the process is gone, or the call is out of turn
  | exit process => exact Or.inr (Or.inl ⟨process, rfl⟩)
  | socketLock process fate =>
    simp only [LockTable.step]
    split
    · next hstage =>
      split
      · next hok =>
        exact Or.inr (Or.inr ⟨process, _, _, free hok, by simp [hstage], by simp [hstage], rfl⟩)
      · exact Or.inr (Or.inl ⟨process, rfl⟩)
    · exact Or.inl rfl
  | bookLock process fate =>
    simp only [LockTable.step]
    split
    · next hstage =>
      split
      · next hok =>
        exact Or.inr (Or.inr ⟨process, _, _, free hok, by simp [hstage], by simp [hstage], rfl⟩)
      · exact Or.inr (Or.inl ⟨process, rfl⟩)
    · exact Or.inl rfl

end LockTable

/-- **Who runs the engine** holds both locks. -/
theorem Call.stage_of_runs {call : Call} {e : Event} [Wire] (h : call.runs e = true) :
    call.stage = .bothLocked := by
  cases call with
  | listen => rfl
  | wait file => rfl
  | unlinkOwn => rfl
  | openLock lock => cases e <;> cases h
  | flock lock file => cases e <;> cases h
  | pidFile lock => cases e <;> cases h
  | unlinkStale => cases e <;> cases h
  | exited => cases e <;> cases h

namespace Fleet

variable {π : Type u} [Wire] [DecidableEq π] (config : Config) (sha256 : CString → CString)
  (options : π → Options) (lockPath : CString)

/-- The one daemon: the process that holds the lock, or none over the disk. -/
def one (fleet : Fleet π) : Daemon :=
  match fleet.host.table.holder lockPath with
  | some process => fleet.daemon config process
  | none => ⟨fleet.disk.world config, false⟩

/-- What a step is to the one daemon. -/
def oneEvent (fleet : Fleet π) : Event π → Option Daichod.Event
  | .host e =>
    match fleet.host.table.holder lockPath with
    | some process =>
      if (fleet.host.step sha256 options e).call process = .exited then some .kill else none
    | none => none
  | .run process e => if (fleet.host.call process).runs e then some e else none
  | .restore book => some (.restore book)

/-- Others leave the lock files alone, and put another book in place only while no daemon is
past its locks. -/
def Orderly (fleet : Fleet π) : Event π → Prop
  | .host e => e.Spares (Host.IsLockPath sha256 options)
  | .run .. => True
  | .restore _ => ∀ process, (fleet.host.call process).stage ≠ .bothLocked

/-- What holds of the processes: nobody has anything in memory but who has both locks, and the
one daemon is a daemon. -/
structure Sound (fleet : Fleet π) : Prop where
  host : fleet.host.Sound sha256 options
  started : ∀ process d, fleet.memory process = some d →
    (fleet.host.call process).stage = .bothLocked ∨ (fleet.host.call process).stage = .exited
  down : (fleet.one config lockPath).Down
  config : (fleet.one config lockPath).world.config = config

variable {config sha256 options lockPath} {fleet : Fleet π} {process : π}

omit [DecidableEq π] in
/-- Who has both locks is the one daemon. -/
theorem Sound.one_eq (h : fleet.Sound config sha256 options lockPath)
    (hbook : ∀ p, (options p).bookLockPath sha256 = lockPath)
    (hstage : (fleet.host.call process).stage = .bothLocked) :
    fleet.host.table.holder lockPath = some process ∧
      fleet.one config lockPath = fleet.daemon config process := by
  obtain ⟨file, hentry, hholder⟩ := h.host.holds process .book hstage
  have hpath : LockName.book.path sha256 (options process) = lockPath := hbook process
  rw [hpath] at hentry
  have hheld : fleet.host.table.holder lockPath = some process := by
    simp [Host.table, hentry, hholder]
  exact ⟨hheld, by rw [one, hheld]⟩

omit [DecidableEq π] in
/-- A process that has nothing in memory is what is on disk. -/
theorem daemon_of_none (h : fleet.memory process = none) :
    fleet.daemon config process = ⟨fleet.disk.world config, false⟩ := by
  rw [daemon, h]

omit [DecidableEq π] in
/-- The disk is the one daemon's. -/
theorem one_disk : (fleet.one config lockPath).world.disk = fleet.disk := by
  unfold one daemon
  split
  · split <;> rfl
  · rfl

/-! ### One step

An event of the fleet is an event of the machine, of one process's engine, or a restored book. The
first two are looked at through the lock's holder, before and after the event. -/

omit [Wire] in
/-- What a call does to the table of the locks. -/
theorem table_cases {host : Host π} (hsound : host.Sound sha256 options)
    (hapart : ∀ p, ¬Host.IsLockPath sha256 options (options p).socketPath) {e : Host.Event π}
    (hspares : e.Spares (Host.IsLockPath sha256 options)) :
    (host.step sha256 options e).table = host.table ∨
      (∃ p, (host.step sha256 options e).table = host.table.release p) ∨
      ∃ p path stage, host.table.holder path = none ∧ host.table.stage p ≠ .bothLocked ∧
        host.table.stage p ≠ .exited ∧
        (host.step sha256 options e).table = host.table.take p path stage := by
  rw [hsound.table_step hapart hspares]
  cases host.tableEvent sha256 options e with
  | none => exact Or.inl rfl
  | some event => exact LockTable.step_cases host.table event

/-- Who has something in memory has both locks after a host event, too, or has exited. -/
theorem Sound.started_host (h : fleet.Sound config sha256 options lockPath)
    (hapart : ∀ p, ¬Host.IsLockPath sha256 options (options p).socketPath) {e : Host.Event π}
    (hspares : e.Spares (Host.IsLockPath sha256 options)) {d : Daemon}
    (hmemory : fleet.memory process = some d) :
    ((fleet.host.step sha256 options e).call process).stage = .bothLocked ∨
      ((fleet.host.step sha256 options e).call process).stage = .exited := by
  have hbefore := h.started process d hmemory
  have hstage : ((fleet.host.step sha256 options e).call process).stage
      = (fleet.host.step sha256 options e).table.stage process := rfl
  rw [hstage]
  -- only its own end takes a process out of the stage with both locks
  rcases table_cases h.host hapart hspares with hsame | ⟨p, hreleased⟩ |
    ⟨p, path, stage, -, hboth, hexited, htaken⟩
  · rw [hsame]
    exact hbefore
  · rw [hreleased]
    by_cases hp : process = p
    · subst hp
      exact Or.inr (Function.update_self ..)
    · simp only [LockTable.release, Function.update_of_ne hp]
      exact hbefore
  -- who takes a lock had not both before, so it is another process
  · rw [htaken]
    have hp : process ≠ p := by
      rintro rfl
      rcases hbefore with hstage | hstage
      · exact hboth hstage
      · exact hexited hstage
    simp only [LockTable.take, Function.update_of_ne hp]
    exact hbefore

omit [Wire] [DecidableEq π] in
/-- Who holds a lock file is there. -/
theorem call_ne_exited {host : Host π} (hsound : host.Sound sha256 options)
    (hheld : host.table.holder lockPath = some process) : host.call process ≠ .exited := by
  obtain ⟨file, -, hholder⟩ := Option.bind_eq_some_iff.mp hheld
  obtain ⟨lock, hhas, -⟩ := hsound.held file process hholder
  intro hexited
  rw [hexited] at hhas
  cases lock <;> simp [Call.Has, Call.stage] at hhas

omit [Wire] in
/-- A call is over when its stage is. -/
theorem eq_exited_of_stage {call : Call} (h : call.stage = .exited) : call = .exited := by
  cases call with
  | exited => rfl
  | openLock lock => cases lock <;> cases h
  | flock lock file => cases lock <;> cases h
  | pidFile lock => cases lock <;> cases h
  | unlinkStale => cases h
  | listen => cases h
  | wait file => cases h
  | unlinkOwn => cases h

variable [Engine]

/-- What becomes of the one daemon when a process makes a call. -/
theorem Sound.one_host (h : fleet.Sound config sha256 options lockPath)
    (hapart : ∀ p, ¬Host.IsLockPath sha256 options (options p).socketPath) {e : Host.Event π}
    (hspares : e.Spares (Host.IsLockPath sha256 options)) :
    (fleet.step config sha256 options (.host e)).one config lockPath
      = (fleet.oneEvent sha256 options lockPath (.host e)).elim (fleet.one config lockPath)
          (fleet.one config lockPath).step := by
  have hafter := h.host.step hapart hspares
  have hone : ∀ {p : Option π}, (fleet.host.step sha256 options e).table.holder lockPath = p →
      (fleet.step config sha256 options (.host e)).one config lockPath = match p with
        | some process => fleet.daemon config process
        | none => ⟨fleet.disk.world config, false⟩ := by
    intro p hp
    subst hp
    rfl
  -- A process that stays at its lock is still there.
  have hstays : ∀ {p : π}, fleet.host.table.holder lockPath = some p →
      (fleet.host.step sha256 options e).table.holder lockPath = some p →
      (fleet.oneEvent sha256 options lockPath (.host e)) = none := by
    intro p hp hp'
    simp only [oneEvent, hp, if_neg (call_ne_exited hafter hp')]
  rcases table_cases h.host hapart hspares with hsame | ⟨p, hreleased⟩ |
    ⟨p, path, stage, hfree, hboth, hexited, htaken⟩
  · cases hholder : fleet.host.table.holder lockPath with
    | none =>
      rw [hone (hsame ▸ hholder)]
      simp only [oneEvent, hholder, Option.elim_none, one]
    | some q =>
      rw [hone (hsame ▸ hholder), hstays hholder (hsame ▸ hholder)]
      simp only [Option.elim_none, one, hholder]
  · cases hholder : fleet.host.table.holder lockPath with
    | none =>
      have hnone : (fleet.host.step sha256 options e).table.holder lockPath = none := by
        simp [hreleased, LockTable.release, hholder]
      rw [hone hnone]
      simp only [oneEvent, hholder, Option.elim_none, one]
    | some q =>
      by_cases hq : q = p
      · subst hq
        have hnone : (fleet.host.step sha256 options e).table.holder lockPath = none := by
          simp [hreleased, LockTable.release, hholder]
        have hgone : (fleet.host.step sha256 options e).call q = .exited := by
          refine eq_exited_of_stage ?_
          have hstage : (fleet.host.step sha256 options e).table.stage q = .exited := by
            rw [hreleased]
            exact Function.update_self ..
          exact hstage
        have hdie : (fleet.one config lockPath).world.die = fleet.disk.world config := by
          rw [World.die_eq_world, one_disk, h.config]
        rw [hone hnone]
        simp only [oneEvent, hholder, if_pos hgone, Option.elim_some, Daemon.step, hdie]
      · have hstill : (fleet.host.step sha256 options e).table.holder lockPath = some q := by
          simp [hreleased, LockTable.release, hholder, hq]
        rw [hone hstill, hstays hholder hstill]
        simp only [Option.elim_none, one, hholder]
  · by_cases hpath : lockPath = path
    · subst hpath
      have hnew : (fleet.host.step sha256 options e).table.holder lockPath = some p := by
        rw [htaken]
        exact Function.update_self ..
      -- Who has just taken the lock has not started yet.
      have hmemory : fleet.memory p = none := by
        cases hmemory : fleet.memory p with
        | none => rfl
        | some d =>
          rcases h.started p d hmemory with hstage | hstage
          · exact absurd hstage hboth
          · exact absurd hstage hexited
      rw [hone hnew]
      simp only [oneEvent, hfree, Option.elim_none, one, daemon_of_none hmemory]
    · have hsame : (fleet.host.step sha256 options e).table.holder lockPath
          = fleet.host.table.holder lockPath := by
        rw [htaken]
        exact Function.update_of_ne hpath ..
      cases hholder : fleet.host.table.holder lockPath with
      | none =>
        rw [hone (hsame.trans hholder)]
        simp only [oneEvent, hholder, Option.elim_none, one]
      | some q =>
        rw [hone (hsame.trans hholder), hstays hholder (hsame.trans hholder)]
        simp only [Option.elim_none, one, hholder]

/-- What becomes of it when a process does something on its engine thread. -/
theorem Sound.one_run (h : fleet.Sound config sha256 options lockPath)
    (hbook : ∀ p, (options p).bookLockPath sha256 = lockPath) (process : π) (e : Daichod.Event) :
    (fleet.step config sha256 options (.run process e)).one config lockPath
      = (fleet.oneEvent sha256 options lockPath (.run process e)).elim (fleet.one config lockPath)
          (fleet.one config lockPath).step := by
  by_cases hruns : (fleet.host.call process).runs e = true
  · obtain ⟨hheld, hone⟩ := h.one_eq hbook (Call.stage_of_runs hruns)
    have hdown := h.down.step e
    have hconfig := (Daemon.step_config h.down e).trans h.config
    simp only [oneEvent, hruns, if_true, Option.elim_some, Fleet.step]
    rw [hone] at hdown hconfig ⊢
    generalize (fleet.daemon config process).step e = d at hdown hconfig ⊢
    split
    · -- The process goes on, with what it has now.
      simp only [one, hheld, daemon, Function.update_self, World.atDisk_self]
    · next hends =>
      -- It is gone, and what it leaves is on disk.
      have hfree : (fleet.host.exit process).table.holder lockPath = none := by
        rw [Host.table_exit]
        simp [LockTable.release, hheld]
      have hserving : d.serving = false := by
        cases hserving : d.serving with
        | false => rfl
        | true => exact absurd (Or.inl hserving) hends
      simp only [one, hfree]
      rw [hdown.eq_world hserving, hconfig]
      rfl
  · simp only [oneEvent, hruns, Bool.false_eq_true, if_false, Option.elim_none, Fleet.step]

omit [Engine] [DecidableEq π] in
/-- While no daemon is past its locks, the one daemon is what is on disk. -/
theorem Sound.one_of_none (h : fleet.Sound config sha256 options lockPath)
    (hnone : ∀ p, (fleet.host.call p).stage ≠ .bothLocked) :
    fleet.one config lockPath = ⟨fleet.disk.world config, false⟩ := by
  unfold one
  cases hholder : fleet.host.table.holder lockPath with
  | none => rfl
  | some p =>
    refine daemon_of_none ?_
    cases hmemory : fleet.memory p with
    | none => rfl
    | some d =>
      rcases h.started p d hmemory with hstage | hstage
      · exact absurd hstage (hnone p)
      · exact absurd (eq_exited_of_stage hstage) (call_ne_exited h.host hholder)

/-- **One event** of the fleet is one of the daemon, or none. -/
theorem Sound.one_step (h : fleet.Sound config sha256 options lockPath)
    (hapart : ∀ p, ¬Host.IsLockPath sha256 options (options p).socketPath)
    (hbook : ∀ p, (options p).bookLockPath sha256 = lockPath) {e : Event π}
    (horderly : fleet.Orderly sha256 options e) :
    (fleet.step config sha256 options e).one config lockPath
      = (fleet.oneEvent sha256 options lockPath e).elim (fleet.one config lockPath)
          (fleet.one config lockPath).step := by
  cases e with
  | host e => exact h.one_host hapart horderly
  | run process e => exact h.one_run hbook process e
  | restore book =>
    have hone := h.one_of_none horderly
    have hafter : (fleet.step config sha256 options (.restore book)).one config lockPath
        = ⟨(fleet.disk.restore book).world config, false⟩ := by
      unfold one at hone ⊢
      simp only [Fleet.step]
      cases hholder : fleet.host.table.holder lockPath with
      | none => rfl
      | some p =>
        refine daemon_of_none ?_
        cases hmemory : fleet.memory p with
        | none => rfl
        | some d =>
          rcases h.started p d hmemory with hstage | hstage
          · exact absurd hstage (horderly p)
          · exact absurd (eq_exited_of_stage hstage) (call_ne_exited h.host hholder)
    rw [hafter, hone]
    rfl

/-- **One step.** -/
theorem Sound.step (h : fleet.Sound config sha256 options lockPath)
    (hapart : ∀ p, ¬Host.IsLockPath sha256 options (options p).socketPath)
    (hbook : ∀ p, (options p).bookLockPath sha256 = lockPath) {e : Event π}
    (horderly : fleet.Orderly sha256 options e) :
    (fleet.step config sha256 options e).Sound config sha256 options lockPath := by
  have hone := h.one_step hapart hbook horderly
  have hdown : ((fleet.step config sha256 options e).one config lockPath).Down := by
    rw [hone]
    cases fleet.oneEvent sha256 options lockPath e with
    | none => exact h.down
    | some event => exact h.down.step event
  have hconfig : ((fleet.step config sha256 options e).one config lockPath).world.config
      = config := by
    rw [hone]
    cases fleet.oneEvent sha256 options lockPath e with
    | none => exact h.config
    | some event => exact (Daemon.step_config h.down event).trans h.config
  cases e with
  | host e =>
    exact ⟨h.host.step hapart horderly,
      fun p d hmemory => h.started_host hapart horderly hmemory, hdown, hconfig⟩
  | restore book => exact ⟨h.host, h.started, hdown, hconfig⟩
  | run process e =>
    by_cases hruns : (fleet.host.call process).runs e = true
    · have hstage := Call.stage_of_runs hruns
      refine ⟨?_, fun p d hmemory => ?_, hdown, hconfig⟩
      · simp only [Fleet.step, hruns, if_true]
        split
        · exact h.host
        · exact h.host.exit process
      · have hbefore : p = process ∨ fleet.memory p = some d := by
          by_cases hp : p = process
          · exact Or.inl hp
          · right
            simpa [Fleet.step, hruns, Function.update_of_ne hp] using hmemory
        have hkept : (fleet.host.call p).stage = .bothLocked ∨
            (fleet.host.call p).stage = .exited := by
          rcases hbefore with rfl | hbefore
          · exact Or.inl hstage
          · exact h.started p d hbefore
        simp only [Fleet.step, hruns, if_true]
        split
        · exact hkept
        · by_cases hp : p = process
          · subst hp
            exact Or.inr (by simp [Host.exit, Call.stage])
          · simpa only [Host.exit, Function.update_of_ne hp] using hkept
    · have hsame : fleet.step config sha256 options (.run process e) = fleet := by
        simp only [Fleet.step, hruns, Bool.false_eq_true, if_false]
      rw [hsame]
      exact h

/-! ### Runs -/

end Fleet

/-! ### A daemon that is killed behind a post, and started again -/

section Witness

open Reference Host

attribute [local instance] Reference.engine Reference.wire

end Witness

end Daichod
