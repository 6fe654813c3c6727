import Daichod.Engine.GncLock

/-!
# Daichod.Properties.LockStealing

**The engine lock is broken on old news**: `GncLockIsProvablyStale` reads the `gnclock` rows
and `Session::Open` breaks the lock a few calls later, in a transaction of its own. Of the
rows it has read it knows enough: none of them is still held, unless by a program of another
host that goes by this host's name. A lock taken since is broken all the same
(`neverSteals_along_iff`). Where nobody comes in between, the lock is broken exactly when it is
provably stale at that moment (`past_iff_provablyStale`).

## Proof shape

The rows are read over several steps, while other programs take and release the lock. `Known` is
the invariant: every row that is still held was taken since the reading began (`late`), or is a
namesake's, or is among the rows still to be checked. When nothing is left to check and the
verdict is stale, only the first two are left, and these are the two cases in the property's
condition.
-/

namespace Daichod

/-- A row of another host's program under this host's name. -/
def LockRow.Namesake (host : String) (row : LockRow) : Prop :=
  row.holder = .elsewhere ∧ row.hostname = some host

instance (host : String) (row : LockRow) : Decidable (row.Namesake host) :=
  inferInstanceAs (Decidable (_ ∧ _))

/-- A program's row says when it was taken. -/
theorem Program.late_of_eq_row {host : String} {late : Bool} {program : Program} {row : LockRow}
    (h : row = program.row host late) : row.late = late := by
  rw [h]
  cases program <;> rfl

/-! ### What others do to the rows

Other programs take the lock, replace a dead one, release it and exit. Each adds at most a row of
its own, with the mark of the time. -/

namespace LockWorld

variable {w : LockWorld} {row : LockRow} {host : String} {late : Bool} {program : Program}

/-- Replacing adds no row but the replacing program's own. -/
theorem mem_replace (h : row ∈ (w.replace host late program).rows) :
    row ∈ w.rows ∨ row = program.row host late := by
  cases program with
  | here process =>
    by_cases hmem : process ∈ w.running
    · simp only [replace, hmem, dif_pos] at h
      exact Or.inr (List.mem_singleton.mp h)
    · simp only [replace, hmem, dif_neg, not_false_eq_true] at h
      exact Or.inl h
  | elsewhere hostname pid => exact Or.inr (List.mem_singleton.mp h)

/-- Nor does taking a lock that nobody has. -/
theorem mem_acquire (h : row ∈ (w.acquire host late program).rows) :
    row ∈ w.rows ∨ row = program.row host late := by
  unfold acquire at h
  split at h
  · exact mem_replace h
  · exact Or.inl h

/-- Releasing adds no row. -/
theorem mem_release {hostname : String} {pid : Int32} (h : row ∈ (w.release hostname pid).rows) :
    row ∈ w.rows := by
  unfold rows release at h
  unfold rows
  cases htable : w.table with
  | none => simp [htable] at h
  | some rows =>
    simp only [htable, Option.map_some, Option.getD_some, List.mem_filter] at h
    exact h.1

/-- An exit makes no row held that was not. -/
theorem mem_exit {pid : Int32} (h : row ∈ (w.exit pid).rows) (hheld : row.Held) :
    row ∈ w.rows := by
  unfold rows exit at h
  unfold rows
  cases htable : w.table with
  | none => simp [htable] at h
  | some rows =>
    simp only [htable, Option.map_some, Option.getD_some, List.mem_map] at h
    obtain ⟨row₀, hrow₀, rfl⟩ := h
    unfold LockRow.abandon at hheld ⊢
    split
    · next hleft => simp [hleft, LockRow.Held] at hheld
    · exact hrow₀

end LockWorld

namespace GncLock

variable {opener : Opener} {s : GncLock} {e : Event}

/-- No live lock is broken by the step. -/
def NeverSteals (s : GncLock) (e : Event) : Prop := s.Breaks e → ¬s.world.Held

/-- When the lock is broken, nobody who took it since the reading still holds it, and no
program of another host that goes by this host's name does. -/
def NewsStands (opener : Opener) (s : GncLock) (e : Event) : Prop :=
  s.Breaks e → ∀ row ∈ s.world.rows, row.Held → row.late = false ∧ ¬row.Namesake opener.host

/-- A held row is late, a namesake's, or still to be checked. -/
def Known (opener : Opener) (s : GncLock) : Prop :=
  ∀ unread, s.stage.unread = some unread → ∀ row ∈ s.world.rows, row.Held →
    row.late = true ∨ row.Namesake opener.host ∨
      ∃ r ∈ unread, r.hostname = row.hostname ∧ r.pid = row.pid

/-- Outside the reading there is nothing to know. -/
theorem known_of_unread_none (h : s.stage.unread = none) : Known opener s := by
  intro unread hunread
  rw [h] at hunread
  cases hunread

/-- A step of another program takes no held row away from what is known. -/
theorem Known.others {w : LockWorld} (h : Known opener s)
    (hrows : ∀ row ∈ w.rows, row.Held → row ∈ s.world.rows ∨ row.late = s.late) :
    Known opener { s with world := w } := by
  intro unread hunread row hrow hheld
  rcases hrows row hrow hheld with hold | hlate
  · exact h unread hunread row hold hheld
  · left
    have hunread : s.stage.unread = some unread := hunread
    rw [hlate, late, hunread]
    rfl

/-- A row that is provably stale is held by nobody but a namesake. -/
theorem namesake_of_stale {w : LockWorld} {r row : LockRow}
    (hstale : stale opener w.running r = true) (hrow : row ∈ w.rows) (hheld : row.Held)
    (hsame : r.hostname = row.hostname ∧ r.pid = row.pid) : row.Namesake opener.host := by
  rw [stale, Bool.and_eq_true, decide_eq_true_eq] at hstale
  obtain ⟨hhost, hdead⟩ := hstale
  cases hholder : row.holder with
  | here =>
    -- Its process is running, so `kill` finds it.
    obtain ⟨process, hmem, hpid⟩ := w.sound row hrow hholder
    rw [hsame.2, hpid, Int32.toInt32_toInt64, killFindsNobody_of_mem hmem] at hdead
    cases hdead
  | elsewhere => exact ⟨hholder, hsame.1 ▸ hhost⟩
  | nobody => exact absurd hholder hheld

/-- What is known after a check. -/
theorem Known.check {row : LockRow} {rest : List LockRow} (h : Known opener s)
    (hstage : s.stage = .checks row rest)
    (hstale : stale opener s.world.running row = true) :
    Known opener { s with stage := .steps rest } := by
  intro unread hunread row' hrow' hheld
  obtain rfl : rest = unread := Option.some.inj hunread
  have hknown := h (row :: rest) (by rw [hstage]; rfl) row' hrow' hheld
  rcases hknown with hlate | hnamesake | ⟨r, hr, hsame⟩
  · exact Or.inl hlate
  · exact Or.inr (Or.inl hnamesake)
  · rcases List.mem_cons.mp hr with rfl | hr
    · exact Or.inr (Or.inl (namesake_of_stale hstale hrow' hheld hsame))
    · exact Or.inr (Or.inr ⟨r, hr, hsame⟩)

/-- The next row read is still to be checked. -/
theorem Known.nextRow {rows : List LockRow} (reads : Bool)
    (h : ∀ row ∈ s.world.rows, row.Held → row.late = true ∨ row.Namesake opener.host ∨
      ∃ r ∈ rows, r.hostname = row.hostname ∧ r.pid = row.pid) :
    Known opener { s with stage := GncLock.nextRow reads rows } := by
  intro unread hunread row hrow hheld
  have hrows : rows = unread := by
    cases rows with
    | nil => cases reads with
      | true => exact Option.some.inj hunread
      | false => cases hunread
    | cons r rest => cases reads with
      | true => exact Option.some.inj hunread
      | false => cases hunread
  exact hrows ▸ h row hrow hheld

/-- **One step.** -/
theorem Known.next (hsqlite : hasScheme opener.config.bookUri "sqlite3://" = true)
    (h : Known opener s) (e : Event) : Known opener (next opener s e) := by
  cases e with
  | begin fault =>
    cases hstage : s.stage with
    | begins =>
      have hlocked : (afterLocked opener).unread = none := by
        unfold afterLocked
        rw [if_pos hsqlite]
        split <;> rfl
      have hnone : (s.begin opener fault).stage.unread = none := by
        unfold GncLock.begin
        split
        · exact hlocked
        · rfl
        · split
          · rfl
          · split
            · rfl
            · exact hlocked
      simp only [GncLock.next, hstage]
      exact known_of_unread_none hnone
    | _ => simpa only [GncLock.next, hstage] using h
  | openDb opens =>
    cases hstage : s.stage with
    | opensDb =>
      simp only [GncLock.next, hstage]
      refine known_of_unread_none ?_
      unfold openDb
      dsimp only
      split <;> rfl
    | _ => simpa only [GncLock.next, hstage] using h
  | prepare prepares =>
    cases hstage : s.stage with
    | prepares =>
      simp only [GncLock.next, hstage]
      refine known_of_unread_none ?_
      unfold prepare
      dsimp only
      split <;> rfl
    | _ => simpa only [GncLock.next, hstage] using h
  | step reads =>
    cases hstage : s.stage with
    | prepared =>
      -- The statement reads the table as it is now.
      simp only [GncLock.next, hstage]
      exact Known.nextRow reads fun row hrow _ => Or.inr (Or.inr ⟨row, hrow, rfl, rfl⟩)
    | steps rest =>
      simp only [GncLock.next, hstage]
      exact Known.nextRow reads (h rest (by rw [hstage]; rfl))
    | _ => simpa only [GncLock.next, hstage] using h
  | check =>
    cases hstage : s.stage with
    | checks row rest =>
      simp only [GncLock.next, hstage]
      split
      · next hstale => exact h.check hstage hstale
      · exact known_of_unread_none rfl
    | _ => simpa only [GncLock.next, hstage] using h
  | breakLock fault =>
    cases hstage : s.stage with
    | breaks =>
      simp only [GncLock.next, hstage]
      refine known_of_unread_none ?_
      cases fault <;> rfl
    | _ => simpa only [GncLock.next, hstage] using h
  | acquire program =>
    exact h.others fun row hrow _ => (LockWorld.mem_acquire hrow).imp id Program.late_of_eq_row
  | replace program =>
    exact h.others fun row hrow _ => (LockWorld.mem_replace hrow).imp id Program.late_of_eq_row
  | release hostname pid => exact h.others fun row hrow _ => Or.inl (LockWorld.mem_release hrow)
  | start process => exact h.others fun row hrow _ => Or.inl hrow
  | exit pid => exact h.others fun row hrow hheld => Or.inl (LockWorld.mem_exit hrow hheld)

/-- When everything is read, all that is known is known. -/
theorem Known.neverSteals_iff (h : Known opener s) : NeverSteals s e ↔ NewsStands opener s e := by
  constructor
  · intro hnever hbreaks row hrow hheld
    exact absurd ⟨row, hrow, hheld⟩ (hnever hbreaks)
  · intro hnews hbreaks hheld
    obtain ⟨row, hrow, hheld⟩ := hheld
    obtain ⟨hlate, hnamesake⟩ := hnews hbreaks row hrow hheld
    have hunread : s.stage.unread = some [] := by
      cases e with
      | breakLock fault =>
        have hstage : s.stage = .breaks := hbreaks
        rw [hstage]
        rfl
      | _ => exact hbreaks.elim
    rcases h [] hunread row hrow hheld with hlate' | hnamesake' | ⟨r, hr, -⟩
    · rw [hlate] at hlate'
      cases hlate'
    · exact hnamesake hnamesake'
    · cases hr

/-- **Exactly when no live lock is stolen** by a `Session::Open` of a sqlite3 book, whatever
the table holds and however its steps are interleaved with those of others. -/
theorem neverSteals_along_iff (hsqlite : hasScheme opener.config.bookUri "sqlite3://" = true)
    (w : LockWorld) (events : List Event) :
    Machine.Along (GncLock.next opener) NeverSteals ⟨w, .begins⟩ events ↔
      Machine.Along (GncLock.next opener) (NewsStands opener) ⟨w, .begins⟩ events := by
  have hinit : Known opener ⟨w, .begins⟩ := known_of_unread_none rfl
  have hstep : ∀ {P : GncLock → Event → Prop} s e, Known opener s → P s e →
      Known opener (GncLock.next opener s e) := fun _ e h _ => h.next hsqlite e
  constructor
  · exact fun h => h.imp hinit hstep fun s e hknown hP => hknown.neverSteals_iff.mp hP
  · exact fun h => h.imp hinit hstep fun s e hknown hP => hknown.neverSteals_iff.mpr hP

/-! ### When nobody takes the lock in between

The condition of the equivalence is about the rows when the lock is broken. Here it follows from
what the other programs do: if nobody takes the lock during the reading and nobody elsewhere goes
by this host's name, then it holds. -/

/-- The program that takes the lock. -/
def Event.taker : Event → Option Program
  | .acquire program | .replace program => some program
  | _ => none

/-- Nobody takes the lock while the daemon reads it, and nobody of another host under this
host's name. -/
def Untaken (opener : Opener) (s : GncLock) (e : Event) : Prop :=
  ∀ program, e.taker = some program →
    s.stage.unread = none ∧ ∀ hostname pid, program = .elsewhere hostname pid →
      hostname ≠ opener.host

/-- No held row is late or a namesake's. -/
def Settled (opener : Opener) (w : LockWorld) : Prop :=
  ∀ row ∈ w.rows, row.Held → row.late = false ∧ ¬row.Namesake opener.host

/-- A new row is as good as the old ones if it is neither late nor a namesake's. -/
theorem Settled.take {w w' : LockWorld} {program : Program} {late : Bool}
    (h : Settled opener w) (hlate : late = false)
    (hname : ∀ hostname pid, program = .elsewhere hostname pid → hostname ≠ opener.host)
    (hrows : ∀ row ∈ w'.rows, row ∈ w.rows ∨ row = program.row opener.host late) :
    Settled opener w' := by
  intro row hrow hheld
  rcases hrows row hrow with hold | rfl
  · exact h row hold hheld
  · refine ⟨(Program.late_of_eq_row rfl).trans hlate, ?_⟩
    intro hnamesake
    obtain ⟨hholder, hhost⟩ := hnamesake
    cases program with
    | here process => cases hholder
    | elsewhere hostname pid => exact hname hostname pid rfl (Option.some.inj hhost)

/-- The daemon itself writes no such row. -/
theorem Settled.own {w : LockWorld} (h : Settled opener w) :
    Settled opener (w.replace opener.host false (GncLock.own opener)) :=
  h.take rfl (fun _ _ heq => by cases heq) fun _ hrow => LockWorld.mem_replace hrow

/-- **One step**, of the daemon or of another program. -/
theorem Settled.next (h : Settled opener s.world) (huntaken : Untaken opener s e) :
    Settled opener (next opener s e).world := by
  -- the daemon's own steps add no row but its own; of the others only `acquire` and `replace` add
  -- one
  cases e with
  | begin fault =>
    cases hstage : s.stage with
    | begins =>
      simp only [GncLock.next, hstage]
      unfold GncLock.begin
      split
      · exact h
      · exact h
      · split
        · exact h
        · split
          · exact h.own
          · exact h
    | _ => simpa only [GncLock.next, hstage] using h
  | openDb opens => cases hstage : s.stage <;> simpa only [GncLock.next, hstage] using h
  | prepare prepares => cases hstage : s.stage <;> simpa only [GncLock.next, hstage] using h
  | step reads => cases hstage : s.stage <;> simpa only [GncLock.next, hstage] using h
  | check => cases hstage : s.stage <;> simpa only [GncLock.next, hstage] using h
  | breakLock fault =>
    cases hstage : s.stage with
    | breaks =>
      simp only [GncLock.next, hstage]
      cases fault with
      | none => exact h.own
      | some error => exact h
    | _ => simpa only [GncLock.next, hstage] using h
  | acquire program =>
    obtain ⟨hunread, hname⟩ := huntaken program rfl
    exact h.take (by rw [late, hunread]; rfl) hname fun _ hrow => LockWorld.mem_acquire hrow
  | replace program =>
    obtain ⟨hunread, hname⟩ := huntaken program rfl
    exact h.take (by rw [late, hunread]; rfl) hname fun _ hrow => LockWorld.mem_replace hrow
  | release hostname pid => exact fun row hrow => h row (LockWorld.mem_release hrow)
  | start process => exact h
  | exit pid => exact fun row hrow hheld => h row (LockWorld.mem_exit hrow hheld) hheld

/-- In a run in which nobody takes the lock between the reading and the break, no live lock is
stolen. -/
theorem neverSteals_of_untaken (hsqlite : hasScheme opener.config.bookUri "sqlite3://" = true)
    {w : LockWorld} {events : List Event} (hsettled : Settled opener w)
    (huntaken : Machine.Along (GncLock.next opener) (Untaken opener) ⟨w, .begins⟩ events) :
    Machine.Along (GncLock.next opener) NeverSteals ⟨w, .begins⟩ events :=
  huntaken.imp (I := fun s => Known opener s ∧ Settled opener s.world)
    ⟨known_of_unread_none rfl, hsettled⟩
    (fun _ e h huntaken => ⟨h.1.next hsqlite e, h.2.next huntaken⟩)
    (fun _ _ h _ => h.1.neverSteals_iff.mpr fun _ => h.2)

section Witness

/-- The daemon of the tests: process 100 on host `desk`. -/
def deskOpener : Opener where
  host := "desk"
  process := ⟨100, 100, by decide⟩
  config := ⟨"sqlite3:///book.gnucash", false⟩

/-- A desktop program. -/
def desktop : Process := ⟨200, 200, by decide⟩

/-- The lock of a process that crashed, on a host where the daemon and a desktop program
run. -/
def crashedLock : LockWorld where
  table := some [⟨some "desk", 4242, .nobody, false⟩]
  running := [deskOpener.process, desktop]
  sound row hrow hhere := by
    rw [List.mem_singleton.mp hrow] at hhere
    cases hhere

/-- The daemon finds the lock stale; before it breaks it, the user has the desktop program
break it. -/
def overtaken : List Event :=
  [.begin (some .locked), .openDb true, .prepare true, .step true, .check, .step true,
    .replace (.here desktop), .breakLock none]

/-- The equivalence at the run in which the user is faster. -/
theorem neverSteals_along_iff_overtaken :
    Machine.Along (GncLock.next deskOpener) NeverSteals ⟨crashedLock, .begins⟩ overtaken ↔
      Machine.Along (GncLock.next deskOpener) (NewsStands deskOpener) ⟨crashedLock, .begins⟩
        overtaken :=
  neverSteals_along_iff (by decide +kernel) crashedLock overtaken

/-- There the daemon breaks the desktop program's live lock. -/
theorem lock_stolen :
    ¬Machine.Along (GncLock.next deskOpener) NeverSteals ⟨crashedLock, .begins⟩ overtaken := by
  intro hruns
  obtain ⟨_, _, _, _, _, _, _, hnever, _⟩ := hruns
  -- seven steps on, the daemon is about to break the lock, and the desktop program holds it
  have hbreaks : (GncLock.run deskOpener ⟨crashedLock, .begins⟩ (overtaken.take 7)).stage
      = .breaks := by decide +kernel
  have hheld : (GncLock.run deskOpener ⟨crashedLock, .begins⟩ (overtaken.take 7)).world.Held := by
    decide +kernel
  exact hnever hbreaks hheld

end Witness

/-! ### An opening that nobody disturbs

With no step of another program in between, the verdict is on the table as it is when the lock is
broken, and the whole opening is the one step that `Session.beginError` makes of it. A lock that
a crash has left behind is broken then, as it should be. -/

/-- **Undisturbed**, a daemon that finds its book locked gets past the lock exactly when the rows,
as they are throughout, are provably stale. -/
theorem past_iff_provablyStale (hsqlite : hasScheme opener.config.bookUri "sqlite3://" = true)
    (hwritable : opener.config.readOnly = false) (w : LockWorld) :
    (run opener ⟨w, .begins⟩ (.begin (some .locked) :: checkCalls w.rows.length
        ++ [.breakLock none])).stage = .past none ↔ gncLockIsProvablyStale opener w = true := by
  -- the engine's answers to such an opening, with the verdict of the table
  let fate : OpenFate :=
    { beginError := some ⟨.locked, ""⟩, lockIsProvablyStale := gncLockIsProvablyStale opener w,
      breakLockError := none, loadError := none, loadOrder := .kept }
  have hopening : (run opener ⟨w, .begins⟩ (.begin (some .locked) :: checkCalls w.rows.length
      ++ [.breakLock none])).stage
        = .past ((Session.beginError fate opener.config).map SessionError.error) :=
    run_opening rfl fate (fun hnone => by cases hnone) rfl
  rw [hopening]
  cases hstale : gncLockIsProvablyStale opener w with
  | true =>
    have hgets : Session.beginError fate opener.config = none :=
      if_pos ⟨rfl, hwritable, Or.inr hstale⟩
    simp [hgets]
  | false =>
    have hlocked : Session.beginError fate opener.config = some ⟨.locked, ""⟩ := by
      refine if_neg fun hbreaks => ?_
      rcases hbreaks.2.2 with hscheme | hverdict
      · rw [hsqlite] at hscheme
        cases hscheme
      · rw [show fate.lockIsProvablyStale = false from hstale] at hverdict
        cases hverdict
    simp [hlocked]

/-- The lock of the process that crashed is broken. -/
example : (run deskOpener ⟨crashedLock, .begins⟩ (.begin (some .locked) :: checkCalls 1
    ++ [.breakLock none])).stage = .past none :=
  (past_iff_provablyStale (by decide +kernel) rfl crashedLock).mpr (by decide +kernel)

end GncLock

end Daichod
