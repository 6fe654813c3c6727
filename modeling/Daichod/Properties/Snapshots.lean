import Daichod.Library.Machine
import Daichod.Main.Backup

/-!
# Daichod.Properties.Snapshots

**A snapshot is whole until a removal gets hold of it**: what `SnapshotBeforeOpen` renames
into place holds a copy of every file there was, however earlier attempts were cut short.
A pruning that is cut short leaves a directory under its old name, and that directory passes
for the snapshot of its day (`snapshots_allOrNothing_iff`).

## Proof shape

`Root.Sound` is the invariant of the backup directory: every dated entry was renamed into place by
some attempt and holds that attempt's copies, less the files that removals have taken since
(`Kept`). Each stage of `SnapshotBeforeOpen` keeps it, whether it ends or throws, which is a
`Triple` with the invariant on all three sides. What a start finds under today's name is then
complete exactly if no removal has taken anything of it.
-/

namespace Daichod

namespace Backup

variable {α : Type}

/-! ### What every dated directory is

A dated name comes into being by the one rename, and a removal that is cut short leaves a part of
what was there. The files a directory has lost are recorded with it as `gone`. -/

/-- A directory holds the copies of an attempt, but for those that were removed. -/
structure Kept (paths : Paths) (sources : Sources α) (files : CString → Option α)
    (gone : List CString) : Prop where
  kept : ∀ path ∈ paths.all, ∀ content, sources path = some content → filename path ∉ gone →
    files (filename path) = some content
  gone : ∀ name ∈ gone, files name = none

/-- A dated entry is a directory that an attempt has renamed into place. -/
def Entry.Sound (paths : Paths) (entry : Entry α) : Prop :=
  ∃ files sources gone, entry = .directory files ⟨some sources, gone⟩ ∧
    Kept paths sources files gone

/-- All dated entries are. -/
def Root.Sound (paths : Paths) (root : Root α) : Prop :=
  ∀ day entry, root.lookup (todayStamp day) = some entry → Entry.Sound paths entry

/-- The removal of some files. -/
theorem Kept.remove {paths : Paths} {sources : Sources α} {files : CString → Option α}
    {gone removed : List CString} (h : Kept paths sources files gone) :
    Kept paths sources (fun file => if file ∈ removed then none else files file)
      (removed.filter (fun file => (files file).isSome) ++ gone) := by
  constructor
  · intro path hpath content hcontent hgone
    rw [List.mem_append, not_or] at hgone
    have hfile := h.kept path hpath content hcontent hgone.2
    have hremoved : filename path ∉ removed := by
      intro hmem
      exact hgone.1 (List.mem_filter.mpr ⟨hmem, by rw [hfile]; rfl⟩)
    rw [if_neg hremoved, hfile]
  · intro name hname
    rcases List.mem_append.mp hname with hnew | hold
    · rw [if_pos (List.mem_filter.mp hnew).1]
    · rw [h.gone name hold]
      exact ite_self _

namespace Root.Sound

variable {paths : Paths} {root : Root α} {name : CString} {entry : Entry α}

/-- Erasing an entry leaves the others as they are. -/
theorem erase (h : Root.Sound paths root) : Root.Sound paths (root.erase name) := by
  intro day entry hentry
  by_cases heq : todayStamp day = name
  · rw [heq, AList.lookup_erase] at hentry
    cases hentry
  · rw [AList.lookup_erase_ne heq] at hentry
    exact h day entry hentry

/-- A new entry has to be sound only if its name is a day's. -/
theorem insert (h : Root.Sound paths root)
    (hentry : ∀ day, todayStamp day = name → Entry.Sound paths entry) :
    Root.Sound paths (root.insert name entry) := by
  intro day entry' hentry'
  by_cases heq : todayStamp day = name
  · rw [heq, AList.lookup_insert] at hentry'
    exact Option.some.inj hentry' ▸ hentry day heq
  · rw [AList.lookup_insert_ne heq] at hentry'
    exact h day entry' hentry'

/-- The temporary directory is nobody's snapshot. -/
theorem insert_tmpName (h : Root.Sound paths root) {day : Day} :
    Root.Sound paths (root.insert (tmpName day) entry) :=
  h.insert fun _ heq => absurd heq.symm tmpName_ne_todayStamp

end Root.Sound

/-! ### What an attempt does

One triple a stage, with the same invariant before and after. An attempt that is killed ends in an
error, so the third side of a triple says what a kill leaves. -/

section Attempt

variable {paths : Paths} {fate : SnapshotFate α} {sources : Sources α} {keepDays : Int32}
  {day : Day}

/-- Whatever copying does to the temporary directory, the dated ones stay as they are. -/
theorem tmpInvariant_sound : TmpInvariant day (Root.Sound (α := α) paths) where
  insert _ _ hsound := hsound.insert_tmpName
  erase _ hsound := hsound.erase

/-- A removal may be cut short in any dated directory. -/
theorem triple_remove_sound {fate : RemoveFate} {name : CString} :
    Triple (Root.Sound (α := α) paths) (removeAll fate name) (fun _ => Root.Sound paths)
      (Root.Sound paths) := by
  refine triple_removeAll (fun root hsound => hsound.erase) ?_
  intro root files origin hsound hlookup
  refine hsound.insert ?_
  rintro day rfl
  obtain ⟨files', sources, gone, hentry, hkept⟩ := hsound day _ hlookup
  cases hentry
  exact ⟨_, sources, _, rfl, hkept.remove⟩

/-- The rename puts a complete copy under its day's name. -/
theorem Root.Sound.renamed {root : Root α} (h : Root.Sound paths root)
    {files : CString → Option α} (hcomplete : Complete paths sources files) :
    Root.Sound paths (renamed sources day files root) := by
  refine h.erase.insert fun _ _ => ⟨files, sources, [], rfl, ?_⟩
  constructor
  · intro path hpath content hcontent _
    exact hcomplete path hpath content hcontent
  · intro name hname
    cases hname

/-- Listing the directory changes nothing. -/
theorem triple_listStamps {list : ListFate} :
    Triple (Root.Sound (α := α) paths) (listStamps list) (fun _ => Root.Sound paths)
      (Root.Sound paths) := by
  cases list with
  | done =>
    refine Triple.get_bind fun root hsound => ?_
    dsimp only
    split
    · exact Triple.throws_eq hsound
    · exact Triple.returns_eq hsound
  | unreadable => exact Triple.returns fun _ h => h
  | breaks what => exact Triple.throws fun _ h => h
  | killed => exact Triple.throws fun _ h => h

/-- Pruning removes one old snapshot after the other, and each removal may be cut short. -/
theorem triple_prune {keep : ℕ} {stamps : List CString} :
    Triple (Root.Sound paths) (prune fate keep stamps) (fun _ => Root.Sound paths)
      (Root.Sound paths) := by
  induction stamps with
  | nil => exact Triple.returns fun _ h => h
  | cons stamp rest ih =>
    unfold prune
    split
    · exact Triple.bind triple_remove_sound fun _ => ih
    · exact Triple.returns fun _ h => h

/-- The whole attempt keeps the invariant. -/
theorem triple_snapshotBeforeOpen :
    Triple (Root.Sound paths) (snapshotBeforeOpen fate sources paths keepDays day)
      (fun _ => Root.Sound paths) (Root.Sound paths) := by
  have htake : Triple (Root.Sound paths) (takeSnapshot fate sources paths day)
      (fun _ => Root.Sound paths) (Root.Sound paths) := by
    refine (triple_takeSnapshot tmpInvariant_sound).mono (fun _ h => h) ?_ fun _ h => h
    rintro _ _ ⟨root', files, hsound, hcomplete, rfl⟩
    exact hsound.renamed hcomplete
  have hprune : Triple (Root.Sound paths) (pruneOldest fate keepDays)
      (fun _ => Root.Sound paths) (Root.Sound paths) :=
    Triple.bind triple_listStamps fun stamps => triple_prune
  refine Triple.get_bind fun root hsound => ?_
  split
  · exact Triple.returns_eq hsound
  · have hrest := Triple.bind htake fun _ => Triple.bind hprune fun _ =>
      Triple.returns (Q := fun _ => Root.Sound paths) (a := true) fun _ h => h
    refine hrest.mono ?_ (fun _ _ h => h) fun _ h => h
    rintro _ rfl
    exact hsound

end Attempt

/-! ### Starts of the daemon

A start is an attempt on some day, against the files there are then and with any fate. The
condition and the property are both about the directory the start finds, so the equivalence of one
start is the equivalence of all. -/

/-- A start of the daemon, as far as its snapshot goes. -/
structure Start (α : Type) where
  day : Day
  keepDays : Int32
  /-- The files as they are during the start. -/
  sources : Sources α
  fate : SnapshotFate α

/-- What a start does. -/
def Start.attempt (paths : Paths) (start : Start α) : Snapshotting α Bool :=
  snapshotBeforeOpen start.fate start.sources paths start.keepDays start.day

/-- The backup directory after a start, however it ended. -/
def Start.step (paths : Paths) (root : Root α) (start : Start α) : Root α :=
  match start.attempt paths root with
  | .ok _ root' => root'
  | .error _ root' => root'

/-- What a start leaves is all or nothing. Since it may be killed anywhere, what it leaves
is also what there is at any time while it runs. -/
structure AllOrNothing (paths : Paths) (root : Root α) (start : Start α) : Prop where
  /-- A directory made for a day that no removal has touched is complete. -/
  complete : ∀ day files sources,
    (start.step paths root).lookup (todayStamp day) = some (.directory files ⟨some sources, []⟩) →
      Complete paths sources files
  /-- A snapshot that is reported was complete when it was renamed into place. -/
  taken : ∀ root', start.attempt paths root = .ok true root' → ∃ root₁ files,
    takeSnapshot start.fate start.sources paths start.day root = .ok () root₁ ∧
      root₁.lookup (todayStamp start.day)
        = some (.directory files ⟨some start.sources, []⟩) ∧
      Complete paths start.sources files
  /-- Where none is taken, there is a complete one already. -/
  standing : ∀ root', start.attempt paths root = .ok false root' → ∃ files sources gone,
    root.lookup (todayStamp start.day) = some (.directory files ⟨some sources, gone⟩) ∧
      Complete paths sources files

/-- Of a snapshot that there is for today, no removal has taken a file. -/
def Whole (paths : Paths) (root : Root α) (start : Start α) : Prop :=
  ∀ files sources gone,
    root.lookup (todayStamp start.day) = some (.directory files ⟨some sources, gone⟩) →
      ∀ path ∈ paths.all, (sources path).isSome = true → filename path ∉ gone

section Starts

variable {paths : Paths} {root : Root α} {start : Start α}

/-- A start keeps the invariant, however it ends. -/
theorem Root.Sound.step (h : Root.Sound paths root) : Root.Sound paths (start.step paths root) := by
  unfold Start.step
  cases hattempt : start.attempt paths root with
  | ok taken root' => exact triple_snapshotBeforeOpen.ok h hattempt
  | error e root' => exact triple_snapshotBeforeOpen.error h hattempt

/-- An untouched directory is complete. -/
theorem Root.Sound.complete (h : Root.Sound paths root) {day : Day} {files : CString → Option α}
    {sources : Sources α}
    (hlookup : root.lookup (todayStamp day) = some (.directory files ⟨some sources, []⟩)) :
    Complete paths sources files := by
  obtain ⟨files', sources', gone, hentry, hkept⟩ := h day _ hlookup
  cases hentry
  intro path hpath content hcontent
  exact hkept.kept path hpath content hcontent List.not_mem_nil

/-- A start that says it took a snapshot has renamed a complete copy into place. -/
theorem taken_of_ok (h : Root.Sound paths root) {root' : Root α}
    (hattempt : start.attempt paths root = .ok true root') : ∃ root₁ files,
      takeSnapshot start.fate start.sources paths start.day root = .ok () root₁ ∧
        root₁.lookup (todayStamp start.day)
          = some (.directory files ⟨some start.sources, []⟩) ∧
        Complete paths start.sources files := by
  rw [Start.attempt, run_snapshotBeforeOpen] at hattempt
  split at hattempt
  · cases hattempt
  · cases htake : takeSnapshot start.fate start.sources paths start.day root with
    | error e root₁ =>
      rw [htake] at hattempt
      cases hattempt
    | ok _ root₁ =>
      obtain ⟨root₂, files, -, hcomplete, rfl⟩ :=
        (triple_takeSnapshot tmpInvariant_sound).ok h htake
      exact ⟨_, files, rfl, AList.lookup_insert _, hcomplete⟩

/-- A start takes no snapshot where there is an entry for today. -/
theorem attempt_false_iff :
    (∃ root', start.attempt paths root = .ok false root') ↔
      (root.lookup (todayStamp start.day)).isSome = true := by
  rw [Start.attempt, run_snapshotBeforeOpen]
  constructor
  · rintro ⟨root', hattempt⟩
    by_contra habsent
    rw [if_neg habsent] at hattempt
    cases htake : takeSnapshot start.fate start.sources paths start.day root with
    | error e root₁ =>
      rw [htake] at hattempt
      cases hattempt
    | ok _ root₁ =>
      rw [htake] at hattempt
      dsimp only at hattempt
      cases hprune : pruneOldest start.fate start.keepDays root₁ with
      | error e root₂ =>
        rw [hprune] at hattempt
        cases hattempt
      | ok _ root₂ =>
        rw [hprune] at hattempt
        cases hattempt
  · intro hpresent
    exact ⟨root, if_pos hpresent⟩

/-- One start, from a directory in which every dated entry was renamed into place. -/
theorem allOrNothing_iff (h : Root.Sound paths root) :
    AllOrNothing paths root start ↔ Whole paths root start := by
  constructor
  · intro hall files sources gone hlookup path hpath hsome hgone
    -- there is an entry for today, so the start is content with it
    obtain ⟨root', hattempt⟩ := attempt_false_iff.mpr (Option.isSome_of_eq_some hlookup)
    obtain ⟨files', sources', gone', hlookup', hcomplete⟩ := hall.standing root' hattempt
    obtain ⟨content, hcontent⟩ := Option.isSome_iff_exists.mp hsome
    obtain ⟨_, _, _, hentry, hkept⟩ := h start.day _ hlookup
    cases hentry
    rw [hlookup] at hlookup'
    cases hlookup'
    -- What was removed does not come back.
    have hfile := hcomplete path hpath content hcontent
    rw [hkept.gone _ hgone] at hfile
    cases hfile
  -- what is reported and what is renamed are complete in any case; only the standing snapshot needs
  -- the condition
  · intro hwhole
    refine ⟨fun _ _ _ => h.step.complete, fun _ => taken_of_ok h, ?_⟩
    intro root' hattempt
    obtain ⟨entry, hlookup⟩ := Option.isSome_iff_exists.mp (attempt_false_iff.mp ⟨root', hattempt⟩)
    obtain ⟨files, sources, gone, rfl, hkept⟩ := h start.day _ hlookup
    refine ⟨files, sources, gone, hlookup, ?_⟩
    intro path hpath content hcontent
    have hnot := hwhole files sources gone hlookup path hpath (by rw [hcontent]; rfl)
    exact hkept.kept path hpath content hcontent hnot

/-- **A snapshot is all or nothing, unless a pruning was cut short.** Over any starts on any
days, each killed or failing anywhere, what is renamed into place is complete; and a start
is content with a complete snapshot exactly as long as no removal that was cut short has
taken a file of the one it finds. -/
theorem snapshots_allOrNothing_iff (hroot : ∀ day, root.lookup (todayStamp day) = none)
    (starts : List (Start α)) :
    Machine.Along (Start.step paths) (AllOrNothing paths) root starts ↔
      Machine.Along (Start.step paths) (Whole paths) root starts := by
  have hinit : Root.Sound paths root := by
    intro day entry hentry
    rw [hroot day] at hentry
    cases hentry
  constructor
  · intro hall
    exact hall.imp hinit (fun _ _ hsound _ => hsound.step) fun _ _ hsound h =>
      (allOrNothing_iff hsound).mp h
  · intro hwhole
    exact hwhole.imp hinit (fun _ _ hsound _ => hsound.step) fun _ _ hsound h =>
      (allOrNothing_iff hsound).mpr h

end Starts

/-! ### Three starts

The two starts that matter, at fixed files: a copy cut short is repaired by the next start, a
pruning cut short is not noticed by the start of its day. -/

/-- A start of the day with the one snapshot kept. -/
def startOn (day : Day) (fate : SnapshotFate ℕ) : Start ℕ := ⟨day, 1, exampleSources, fate⟩

/-- The process is killed while it copies the journal. -/
def killedCopying : SnapshotFate ℕ :=
  { calm with copy := fun path =>
      if path = cstr "/book/journal" then ⟨⟨.killed, []⟩, some 0⟩ else ⟨⟨.done, []⟩, none⟩ }

/-- The process is killed while it prunes, with the copy of the book removed. -/
def killedPruning : SnapshotFate ℕ :=
  { calm with remove := fun _ => ⟨.killed, [cstr "book"]⟩ }

/-- A copy that was cut short is made again. -/
theorem snapshots_allOrNothing_iff_retried :
    Machine.Along (Start.step examplePaths) (AllOrNothing examplePaths) ∅
      [startOn newYear killedCopying, startOn newYear calm, startOn dayAfter calm] := by
  refine (snapshots_allOrNothing_iff (fun day => rfl) _).mpr ?_
  have absent : ∀ {root : Root ℕ} {start : Start ℕ},
      (root.lookup (todayStamp start.day)).isNone = true → Whole examplePaths root start := by
    intro root start hnone files sources gone hlookup
    rw [hlookup] at hnone
    cases hnone
  exact ⟨absent (by decide +kernel), absent (by decide +kernel), absent (by decide +kernel), trivial⟩

/-- Today's directory was made when there was a book, and the copy of it is missing. -/
def lacksBook (root : Root ℕ) (day : Day) : Bool :=
  match root.lookup (todayStamp day) with
  | some (.directory files ⟨some sources, _⟩) =>
    sources examplePaths.book = some 1 && (files (filename examplePaths.book)).isNone
  | _ => false

/-- The clock is a day ahead, and then corrected: the snapshot of the day is the oldest, and
its pruning is cut short. -/
def halfPruned : Root ℕ :=
  Start.step examplePaths (Start.step examplePaths ∅ (startOn dayAfter calm))
    (startOn newYear killedPruning)

/-- The next start is content with what is left. -/
theorem halfPruned_stands :
    ¬Machine.Along (Start.step examplePaths) (AllOrNothing examplePaths) ∅
      [startOn dayAfter calm, startOn newYear killedPruning, startOn newYear calm] := by
  intro hall
  have hthird : AllOrNothing examplePaths halfPruned (startOn newYear calm) := hall.2.2.1
  have hlacks : lacksBook halfPruned newYear = true := by decide +kernel
  obtain ⟨root', hattempt⟩ : ∃ root',
      (startOn newYear calm).attempt examplePaths halfPruned = .ok false root' :=
    attempt_false_iff.mpr (by decide +kernel)
  obtain ⟨files, sources, gone, hlookup, hcomplete⟩ := hthird.standing root' hattempt
  have htoday : halfPruned.lookup (todayStamp newYear)
      = some (.directory files ⟨some sources, gone⟩) := hlookup
  rw [lacksBook, htoday] at hlacks
  obtain ⟨hbook, hmissing⟩ := Bool.and_eq_true_iff.mp hlacks
  have hfile := hcomplete examplePaths.book (by decide +kernel) 1 (of_decide_eq_true hbook)
  rw [hfile] at hmissing
  cases hmissing

end Backup

end Daichod
