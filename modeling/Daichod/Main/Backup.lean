import Daichod.Engine.Book
import Daichod.Library.Triple
import Daichod.Main.Options
import Daichod.Rpc.Error
import Mathlib.Data.List.AList
import Mathlib.Data.List.DropRight
import Mathlib.Data.List.Sort
import Mathlib.Logic.Function.Basic

/-!
# Daichod.Main.Backup

`util/backup.cpp`: the snapshot of the book and the journal that `Run` takes before anything
opens them.

`Snapshotting` runs on the backup directory; an exception leaves it as far as the calls got,
and the kill of the process is an exception that nothing catches. How each call of the file
system goes is its fate. The files that are copied lie elsewhere; they are a function of
their paths, which no call changes.

A directory's `Origin` is history, not data: no code reads it.
-/

namespace Daichod

/-! ### Days -/

/-- A calendar day of a year of four digits. -/
structure Day where
  year : ℕ
  month : ℕ
  day : ℕ
  year_lt : year < 10000
  day_pos : 0 < day
  day_le : day ≤ daysInMonth year month
  deriving DecidableEq

/-- `%0*d`, for a number of at most `width` digits. -/
def padded : ℕ → ℕ → CString
  | 0, _ => []
  | width + 1, n => padded width (n / 10) ++ [0x30 + (n % 10).toUInt8]

/-- `TodayStamp`, on the day. -/
def todayStamp (day : Day) : CString :=
  padded 4 day.year ++ cstr "-" ++ padded 2 day.month ++ cstr "-" ++ padded 2 day.day

/-- The `.tmp` sibling of a day's snapshot. -/
def tmpName (day : Day) : CString := todayStamp day ++ cstr ".tmp"

/-- `LooksLikeStamp`. -/
def looksLikeStamp (name : CString) : Bool :=
  name.length = 10 ∧ name[4]? = some 0x2D ∧ name[7]? = some 0x2D

/-! ### Directories -/

/-- The files that are copied, by their paths. -/
abbrev Sources (α : Type) := CString → Option α

/-- Where a directory comes from. -/
structure Origin (α : Type) where
  /-- The files at the start of the attempt that renamed the directory into place. -/
  made : Option (Sources α)
  /-- The files that were removed from it, while it was to be removed as a whole. -/
  gone : List CString

/-- What the backup directory has under a name. -/
inductive Entry (α : Type)
  | file
  | directory (files : CString → Option α) (origin : Origin α)

/-- `is_directory`. -/
def Entry.isDirectory {α : Type} : Entry α → Bool
  | .file => false
  | .directory .. => true

/-- The backup directory. -/
abbrev Root (α : Type) := AList fun _ : CString => Entry α

/-- What `SnapshotBeforeOpen` throws. -/
inductive SnapshotExn
  | shim (code : ErrorCode) (message context : CString)
  /-- Any other exception, by its `what()`. -/
  | other (what : CString)
  /-- The process is killed. -/
  | killed
  deriving DecidableEq

/-- A step of `SnapshotBeforeOpen`. -/
abbrev Snapshotting (α β : Type) := EStateM SnapshotExn (Root α) β

/-! ### How the calls go -/

/-- How a call ends. -/
inductive Answer
  | done
  | fails
  /-- The process is killed before the call is over. -/
  | killed
  deriving DecidableEq

/-- How a call goes that throws when it fails, with the `what()` of what it throws. -/
structure CallFate where
  answer : Answer
  what : CString

/-- How a `copy_file` goes: if it is not done, it may leave something at its destination. -/
structure CopyFate (α : Type) extends CallFate where
  left : Option α

/-- How a `remove_all` goes: if it is not done, it has removed some files, and the directory
stays. -/
structure RemoveFate where
  answer : Answer
  removed : List CString

/-- How the `directory_iterator` goes. -/
inductive ListFate
  | done
  /-- It cannot be constructed, which is ignored. -/
  | unreadable
  /-- It cannot be advanced, which throws. -/
  | breaks (what : CString)
  | killed

/-- How the calls of one `SnapshotBeforeOpen` go. -/
structure SnapshotFate (α : Type) where
  removeTmp : RemoveFate
  create : CallFate
  copy : CString → CopyFate α
  rename : CallFate
  list : ListFate
  remove : CString → RemoveFate

namespace Backup

variable {α : Type}

/-- `fs::remove_all`, with an error that is ignored. -/
def removeAll (fate : RemoveFate) (name : CString) : Snapshotting α Unit := do
  match fate.answer, (← get).lookup name with
  | .done, _ => modify (·.erase name)
  | _, some (.directory files origin) =>
    modify (·.insert name (.directory
      (fun file => if file ∈ fate.removed then none else files file)
      { origin with
        gone := fate.removed.filter (fun file => (files file).isSome) ++ origin.gone }))
  | _, _ => pure ()
  if fate.answer = .killed then throw .killed

/-- A call that is not done. -/
def CallFate.stop (fate : CallFate) : Snapshotting α Unit :=
  throw (if fate.answer = .killed then .killed else .other fate.what)

/-- `fs::create_directories`. -/
def createDirectories (fate : CallFate) (name : CString) : Snapshotting α Unit := do
  match fate.answer, (← get).lookup name with
  | .done, none => modify (·.insert name (.directory (fun _ => none) ⟨none, []⟩))
  | .done, some (.directory ..) => pure ()
  | _, _ => CallFate.stop fate

/-- `path::filename`. -/
def filename (path : CString) : CString := path.rtakeWhile (· ≠ 0x2F)

/-- `fs::copy_file` of a file with this content into a directory, where the name must be
free. -/
def copyFile (fate : CopyFate α) (content : α) (destDir name : CString) :
    Snapshotting α Unit := do
  match (← get).lookup destDir with
  | some (.directory files origin) =>
    if (files name).isSome then CallFate.stop fate.toCallFate
    else
      let left := if fate.answer = .done then some content else fate.left
      modify (·.insert destDir (.directory (Function.update files name left) origin))
      if fate.answer ≠ .done then CallFate.stop fate.toCallFate
  | _ => CallFate.stop fate.toCallFate

/-- `fs::rename` of a directory, to a name that is free. -/
def rename (fate : CallFate) (sources : Sources α) (source dest : CString) :
    Snapshotting α Unit := do
  match fate.answer, (← get).lookup source with
  | .done, some (.directory files _) =>
    modify fun root => (root.erase source).insert dest (.directory files ⟨some sources, []⟩)
  | _, _ => CallFate.stop fate

/-! ### SnapshotBeforeOpen -/

/-- `kSuffixes`. -/
def kSuffixes : List CString := [[], cstr "-wal", cstr "-shm", cstr "-journal"]

/-- The loop of `CopyWithSidecars`. -/
def copyEach (fate : SnapshotFate α) (sources : Sources α) (destDir : CString) :
    List CString → Snapshotting α Unit
  | [] => pure ()
  | source :: rest => do
    match sources source with
    | some content => copyFile (fate.copy source) content destDir (filename source)
    | none => pure ()
    copyEach fate sources destDir rest

/-- `CopyWithSidecars`. -/
def copyWithSidecars (fate : SnapshotFate α) (sources : Sources α) (path destDir : CString) :
    Snapshotting α Unit :=
  copyEach fate sources destDir (kSuffixes.map (path ++ ·))

/-- The paths of one daemon. -/
structure Paths where
  book : CString
  journal : CString
  backupDir : CString

/-- The `try` block. -/
def assemble (fate : SnapshotFate α) (sources : Sources α) (paths : Paths) (day : Day) :
    Snapshotting α Unit := do
  createDirectories fate.create (tmpName day)
  copyWithSidecars fate sources paths.book (tmpName day)
  copyWithSidecars fate sources paths.journal (tmpName day)
  rename fate.rename sources (tmpName day) (todayStamp day)

/-- The `catch` block. -/
def rethrow (paths : Paths) : SnapshotExn → SnapshotExn
  | .other what => .shim .engineError (cstr "backup snapshot failed: " ++ what) paths.backupDir
  | e => e

/-- From the removal of the `.tmp` directory to the rename. -/
def takeSnapshot (fate : SnapshotFate α) (sources : Sources α) (paths : Paths) (day : Day) :
    Snapshotting α Unit := do
  removeAll fate.removeTmp (tmpName day)
  tryCatch (assemble fate sources paths day) fun e => throw (rethrow paths e)

/-- `std::vector<fs::path>::max_size`. -/
def maxSize : ℕ := (2 ^ 63 - 1) / 40

/-- The names of the directories that look like stamps. -/
def stampNames (root : Root α) : List CString :=
  (root.entries.filter fun entry => entry.2.isDirectory && looksLikeStamp entry.1).map Sigma.fst

/-- `stamps`, before they are sorted. -/
def listStamps (fate : ListFate) : Snapshotting α (List CString) := do
  match fate with
  | .killed => throw .killed
  | .breaks what => throw (.other what)
  | .unreadable => pure []
  | .done =>
    let stamps := stampNames (← get)
    if maxSize < stamps.length then throw (.other (cstr "vector::_M_realloc_append"))
    pure stamps

/-- `static_cast<size_t>(keep_days)`. -/
def castSize (keepDays : Int32) : ℕ := (keepDays.toInt % 2 ^ 64).toNat

/-- The pruning loop. -/
def prune (fate : SnapshotFate α) (keep : ℕ) : List CString → Snapshotting α Unit
  | [] => pure ()
  | stamp :: rest =>
    if keep < (stamp :: rest).length then do
      removeAll (fate.remove stamp) stamp
      prune fate keep rest
    else pure ()

/-- What follows the `try` block. -/
def pruneOldest (fate : SnapshotFate α) (keepDays : Int32) : Snapshotting α Unit := do
  let stamps ← listStamps fate.list
  prune fate (castSize keepDays) (stamps.insertionSort (· ≤ ·))

/-- `SnapshotBeforeOpen`. -/
def snapshotBeforeOpen (fate : SnapshotFate α) (sources : Sources α) (paths : Paths)
    (keepDays : Int32) (day : Day) : Snapshotting α Bool := do
  if (← get).lookup (todayStamp day) |>.isSome then return false
  takeSnapshot fate sources paths day
  pruneOldest fate keepDays
  return true

/-! ### Names

The snapshot is made under a name of its own and renamed at the end. The two names differ by their
lengths, whatever the days are, so that the temporary directory never passes for a snapshot. -/

/-- Padding to a width has that width. -/
theorem length_padded {width n : ℕ} : (padded width n).length = width := by
  induction width generalizing n with
  | zero => rfl
  | succ width ih => simp [padded, ih]

/-- A dated name has ten characters. -/
theorem length_todayStamp {day : Day} : (todayStamp day).length = 10 := by
  simp only [todayStamp, List.length_append, length_padded]
  rfl

/-- A temporary one has four more. -/
theorem length_tmpName {day : Day} : (tmpName day).length = 14 := by
  have htmp : (cstr ".tmp").length = 4 := by decide
  rw [tmpName, List.length_append, length_todayStamp, htmp]

/-- No temporary name is a dated name, of the same day or of another. -/
theorem tmpName_ne_todayStamp {day day' : Day} : tmpName day ≠ todayStamp day' := by
  intro h
  have hlength := congrArg List.length h
  rw [length_tmpName, length_todayStamp] at hlength
  omega

/-- The book, the journal and their sidecars. -/
def Paths.all (paths : Paths) : List CString :=
  kSuffixes.map (paths.book ++ ·) ++ kSuffixes.map (paths.journal ++ ·)

/-- Every file that was there has its copy. -/
def Complete (paths : Paths) (sources : Sources α) (files : CString → Option α) : Prop :=
  ∀ path ∈ paths.all, ∀ content, sources path = some content →
    files (filename path) = some content

/-! ### What the attempt does

The stages of `takeSnapshot` in order, each as a triple. `Copied` grows from one stage to the
next: it starts with no file, takes in each file that is copied, and at the rename it covers all
of them. Any `TmpInvariant` is carried along, before and after each stage and wherever an
exception or a kill cuts it short. -/

section Attempt

variable {paths : Paths} {sources : Sources α} {day : Day} {fate : SnapshotFate α}
  {keepDays : Int32} {I : Root α → Prop}

/-- What holds of the backup directory whatever becomes of the day's `.tmp` directory. -/
structure TmpInvariant (day : Day) (I : Root α → Prop) : Prop where
  insert : ∀ root entry, I root → I (root.insert (tmpName day) entry)
  erase : ∀ root, I root → I (root.erase (tmpName day))

/-- In the `.tmp` directory there is a copy of every file whose path is in `P`. -/
def Copied (sources : Sources α) (day : Day) (P : CString → Prop) (root : Root α) : Prop :=
  ∃ files origin, root.lookup (tmpName day) = some (.directory files origin) ∧
    ∀ path, P path → ∀ content, sources path = some content →
      files (filename path) = some content

/-- The backup directory after the rename of a directory with these files. -/
def renamed (sources : Sources α) (day : Day) (files : CString → Option α) (root : Root α) :
    Root α :=
  (root.erase (tmpName day)).insert (todayStamp day) (.directory files ⟨some sources, []⟩)

/-- A call that failed leaves the directory as it was. -/
theorem triple_stop {fate : CallFate} {root : Root α} {Q : Unit → Root α → Prop}
    {E : Root α → Prop} (h : E root) : Triple (· = root) (CallFate.stop fate) Q E :=
  Triple.throws_eq h

/-- A removal, as far as it goes, takes some files or all. -/
theorem triple_removeAll {fate : RemoveFate} {name : CString}
    (herase : ∀ root, I root → I (root.erase name))
    (hpart : ∀ root files origin, I root → root.lookup name = some (.directory files origin) →
      I (root.insert name (.directory
        (fun file => if file ∈ fate.removed then none else files file)
        { origin with
          gone := fate.removed.filter (fun file => (files file).isSome) ++ origin.gone }))) :
    Triple I (removeAll fate name) (fun _ => I) I := by
  unfold removeAll
  refine Triple.get_bind fun root hroot => ?_
  have ends : ∀ root' : Root α, I root' →
      Triple (· = root')
        (if fate.answer = .killed then throw SnapshotExn.killed else pure () :
          Snapshotting α Unit)
        (fun _ => I) I := by
    intro root' hroot'
    split
    · exact Triple.throws_eq hroot'
    · exact Triple.returns_eq hroot'
  dsimp only
  split
  · exact Triple.modify_bind (ends _ (herase root hroot))
  · next files origin hlookup _ =>
    exact Triple.modify_bind (ends _ (hpart root files origin hroot hlookup))
  · exact ends root hroot

/-- Clearing away what an earlier attempt left. -/
theorem triple_removeTmp {fate : RemoveFate} (hI : TmpInvariant day I) :
    Triple I (removeAll fate (tmpName day)) (fun _ => I) I :=
  triple_removeAll hI.erase fun root _ _ hroot _ => hI.insert root _ hroot

/-- The temporary directory is there afterwards, new or left over, and nothing need be in it. -/
theorem triple_createDirectories {fate : CallFate} (hI : TmpInvariant day I) :
    Triple I (createDirectories fate (tmpName day))
      (fun _ root => I root ∧ Copied sources day (fun _ => False) root) I := by
  unfold createDirectories
  refine Triple.get_bind fun root hroot => ?_
  split
  · refine Triple.modifies_eq ⟨hI.insert root _ hroot, ?_⟩
    exact ⟨_, _, AList.lookup_insert _, fun path hfalse => hfalse.elim⟩
  · next hlookup =>
    refine Triple.returns_eq ⟨hroot, ?_⟩
    exact ⟨_, _, hlookup, fun path hfalse => hfalse.elim⟩
  · exact triple_stop hroot

/-- A copy that goes through puts one more file there. One that does not may leave a part of it, and
throws. -/
theorem triple_copyFile {fate : CopyFate α} {content : α} {source : CString}
    {P : CString → Prop} (hI : TmpInvariant day I) (hcontent : sources source = some content) :
    Triple (fun root => I root ∧ Copied sources day P root)
      (copyFile fate content (tmpName day) (filename source))
      (fun _ root => I root ∧ Copied sources day (fun path => P path ∨ path = source) root) I := by
  unfold copyFile
  refine Triple.get_bind fun root hcopying => ?_
  obtain ⟨hroot, files, origin, hlookup, hcopied⟩ := hcopying
  rw [hlookup]
  dsimp only
  split
  · exact triple_stop hroot
  · next hfree =>
    refine Triple.modify_bind ?_
    by_cases hdone : fate.answer = .done
    · simp only [hdone, ne_eq, not_true_eq_false, if_true, if_false]
      refine Triple.returns_eq ⟨hI.insert root _ hroot, ?_⟩
      refine ⟨_, origin, AList.lookup_insert _, ?_⟩
      intro path hpath content' hcontent'
      rcases hpath with hold | rfl
      · have hfile := hcopied path hold content' hcontent'
        -- An earlier copy has another name, since this one is free.
        have hne : filename path ≠ filename source := by
          intro heq
          rw [heq] at hfile
          exact hfree (by rw [hfile]; rfl)
        rw [Function.update_of_ne hne, hfile]
      · rw [Function.update_self, ← hcontent, hcontent']
    · simp only [ne_eq, hdone, not_false_eq_true, if_true]
      exact triple_stop (hI.insert root _ hroot)

/-- All files of a list are there afterwards, less those that do not exist. -/
theorem triple_copyEach {list : List CString} {P : CString → Prop} (hI : TmpInvariant day I) :
    Triple (fun root => I root ∧ Copied sources day P root)
      (copyEach fate sources (tmpName day) list)
      (fun _ root => I root ∧ Copied sources day (fun path => P path ∨ path ∈ list) root) I := by
  -- on the list; `P` is what has been copied before, and grows by one path with each copy
  induction list generalizing P with
  | nil =>
    intro root hcopying
    show I root ∧ Copied sources day (fun path => P path ∨ path ∈ []) root
    simpa using hcopying
  | cons source rest ih =>
    unfold copyEach
    cases hcontent : sources source with
    | some content =>
      refine (Triple.bind (triple_copyFile hI hcontent) fun _ => ih).mono (fun _ h => h) ?_
        fun _ h => h
      intro _ root hcopying
      simpa only [List.mem_cons, or_assoc] using hcopying
    | none =>
      -- a file that does not exist is passed over, and needs no copy
      refine ih.mono (fun _ h => h) ?_ fun _ h => h
      rintro _ root ⟨hroot, files, origin, hlookup, hcopied⟩
      refine ⟨hroot, files, origin, hlookup, ?_⟩
      intro path hpath content hsource
      rcases hpath with hold | hlist
      · exact hcopied path (Or.inl hold) content hsource
      · rcases List.mem_cons.mp hlist with rfl | hrest
        · rw [hcontent] at hsource
          cases hsource
        · exact hcopied path (Or.inr hrest) content hsource

/-- The rename turns the copies into the day's snapshot, complete by then. -/
theorem triple_rename {fate : CallFate} :
    Triple (fun root => I root ∧ Copied sources day (fun path => path ∈ paths.all) root)
      (rename fate sources (tmpName day) (todayStamp day))
      (fun _ root' => ∃ root files, I root ∧ Complete paths sources files ∧
        root' = renamed sources day files root) I := by
  unfold rename
  refine Triple.get_bind fun root hcopying => ?_
  obtain ⟨hroot, files, origin, hlookup, hcopied⟩ := hcopying
  rw [hlookup]
  split
  · next files' origin' heq =>
    cases heq
    exact Triple.modifies_eq ⟨root, files, hroot, hcopied, rfl⟩
  · exact triple_stop hroot

/-- What is renamed into place is complete, and until then nothing but the `.tmp` directory
has been touched. -/
theorem triple_takeSnapshot (hI : TmpInvariant day I) :
    Triple I (takeSnapshot fate sources paths day)
      (fun _ root' => ∃ root files, I root ∧ Complete paths sources files ∧
        root' = renamed sources day files root) I := by
  refine Triple.bind (triple_removeTmp hI) fun _ => Triple.rethrow ?_
  refine Triple.bind (@triple_createDirectories _ sources _ _ _ hI) fun _ => ?_
  refine Triple.bind (triple_copyEach hI) fun _ => ?_
  refine Triple.bind (triple_copyEach hI) fun _ => ?_
  refine triple_rename.mono ?_ (fun _ _ h => h) fun _ h => h
  rintro root ⟨hroot, files, origin, hlookup, hcopied⟩
  refine ⟨hroot, files, origin, hlookup, ?_⟩
  intro path hpath content hcontent
  rcases List.mem_append.mp hpath with hbook | hjournal
  · exact hcopied path (Or.inl (Or.inr hbook)) content hcontent
  · exact hcopied path (Or.inr hjournal) content hcontent

/-- `SnapshotBeforeOpen`, told apart by how its two halves go. -/
theorem run_snapshotBeforeOpen (root : Root α) :
    snapshotBeforeOpen fate sources paths keepDays day root =
      if (root.lookup (todayStamp day)).isSome then .ok false root
      else match takeSnapshot fate sources paths day root with
        | .error e root₁ => .error e root₁
        | .ok _ root₁ => match pruneOldest fate keepDays root₁ with
          | .error e root' => .error e root'
          | .ok _ root' => .ok true root' := by
  unfold snapshotBeforeOpen
  rw [Triple.run_bind]
  show (if _ then _ else _ : Snapshotting α Bool) root = _
  split
  · rfl
  · rw [Triple.run_bind]
    cases takeSnapshot fate sources paths day root with
    | error e root₁ => rfl
    | ok _ root₁ =>
      dsimp only
      rw [Triple.run_bind]
      cases pruneOldest fate keepDays root₁ <;> rfl

end Attempt

/-! ### An example -/

/-- A daemon's paths, -/
def examplePaths : Paths := ⟨cstr "/book/book", cstr "/book/journal", cstr "/backup"⟩

/-- its files, -/
def exampleSources : Sources ℕ := fun path =>
  if path = cstr "/book/book" then some 1 else if path = cstr "/book/journal" then some 2 else none

/-- and calls that all succeed. -/
def calm : SnapshotFate ℕ where
  removeTmp := ⟨.done, []⟩
  create := ⟨.done, []⟩
  copy _ := ⟨⟨.done, []⟩, none⟩
  rename := ⟨.done, []⟩
  list := .done
  remove _ := ⟨.done, []⟩

/-- The day of the example, -/
def newYear : Day := ⟨2025, 1, 1, by decide, by decide, by decide⟩

/-- and the next one. -/
def dayAfter : Day := ⟨2025, 1, 2, by decide, by decide, by decide⟩

end Backup

end Daichod
