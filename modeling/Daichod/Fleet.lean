import Daichod.Daemon
import Daichod.Main.Instances

/-!
# Daichod.Fleet

Any number of daemon processes on one book: the processes of a machine (`Host`), what is on
its disk, and what each of them has in memory (`main.cpp`, `Run`).

`Daemon` is one daemon with its disk. Here the disk is everybody's, and a process that is past
`AcquireLocks` opens the book, serves its requests and closes it over the disk as it finds it,
with the memory it has. Nothing but the locks keeps two processes from doing so at a time.
All processes are started with one configuration for one book and one journal.
-/

universe u

namespace Daichod

variable [Wire]

/-! ### The disk -/

/-- What is on disk: the journal and the book. -/
structure Disk where
  journal : Journal
  rootAccount : Guid
  commodities : List Commodity
  entities : Finmap Entity

namespace Disk

/-- A book and a fresh journal. -/
def fresh (b : Book) : Disk := ⟨Journal.empty, b.rootAccount, b.commodities, b.entities⟩

/-- A process that has opened nothing yet. -/
def world (disk : Disk) (config : Config) : World where
  config
  journal := disk.journal
  rootAccount := disk.rootAccount
  commodities := disk.commodities
  store := EditStore.ofTable disk.entities
  session := none

/-- Another book file in the place of the book. -/
def restore (disk : Disk) (b : Book) : Disk :=
  ⟨disk.journal, b.rootAccount, b.commodities, b.entities⟩

end Disk

namespace World

/-- What a process has on disk. -/
def disk (w : World) : Disk := ⟨w.journal, w.rootAccount, w.commodities, w.store.durable⟩

/-- The memory of a process over what is on disk. -/
def atDisk (w : World) (disk : Disk) : World :=
  { w with
    journal := disk.journal
    rootAccount := disk.rootAccount
    commodities := disk.commodities
    store := { w.store with durable := disk.entities } }

variable {w : World} {d : Disk} {config : Config}

@[simp] theorem atDisk_self : w.atDisk w.disk = w := rfl

theorem die_eq_world : w.die = w.disk.world w.config := rfl

theorem eq_world (hquiet : w.store.Quiet) (hsession : w.session = none) :
    w = w.disk.world w.config := by
  have hdie : w.die = w := by
    unfold die onStore
    rw [hquiet.reload_eq, ← hsession]
  rw [← die_eq_world, hdie]

end World

/-! ### The processes -/

/-- The processes, the disk they share, and what each that has opened the journal has in
memory. -/
structure Fleet (π : Type u) where
  host : Host π
  disk : Disk
  memory : π → Option Daemon

/-- What a process does on its engine thread, and where in its program. -/
def Call.runs : Call → Daichod.Event → Bool
  | .listen, .start _ => true
  | .wait _, .mutate .. | .wait _, .openBook _ | .wait _, .closeBook _ => true
  | .unlinkOwn, .terminate _ => true
  | _, _ => false

namespace Fleet

variable {π : Type u}

/-- What happens to the processes. -/
inductive Event (π : Type u)
  | host (e : Host.Event π)
  /-- A process does something on its engine thread. -/
  | run (process : π) (e : Daichod.Event)
  /-- Another book file is put in place. -/
  | restore (book : Book)

/-- No process has started. -/
def initial (directory : Directory) (disk : Disk) : Fleet π :=
  ⟨Host.initial directory, disk, fun _ => none⟩

variable (config : Config)

/-- The daemon that a process is: its memory over the disk. -/
def daemon (fleet : Fleet π) (process : π) : Daemon :=
  match fleet.memory process with
  | some d => ⟨d.world.atDisk fleet.disk, d.serving⟩
  | none => ⟨fleet.disk.world config, false⟩

variable [Engine] [DecidableEq π] (sha256 : CString → CString) (options : π → Options)

/-- One step. A start that fails and a call that is killed end the process. -/
def step (fleet : Fleet π) : Event π → Fleet π
  | .host e => { fleet with host := fleet.host.step sha256 options e }
  | .run process e =>
    if (fleet.host.call process).runs e then
      let d := (fleet.daemon config process).step e
      { host :=
          if d.serving ∨ fleet.host.call process = .unlinkOwn then fleet.host
          else fleet.host.exit process
        disk := d.world.disk
        memory := Function.update fleet.memory process (some d) }
    else fleet
  | .restore book => { fleet with disk := fleet.disk.restore book }

/-- The processes after a run. -/
abbrev run (fleet : Fleet π) (events : List (Event π)) : Fleet π :=
  Machine.run (step config sha256 options) fleet events

end Fleet

end Daichod
