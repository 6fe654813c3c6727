import Daichod.Library.Triple
import Daichod.Main.Run

/-!
# Daichod.Properties.StartupReport

**What a failed start leaves for its supervisor.** `Fail` puts the reason and the detail
between quotation marks as they are, and two steps throw where nothing catches: the numbers
of `ParseOptions`, and the listing of indeterminate mutations. And the report is not alone on
stderr: `getopt_long` writes a line about an option that it does not take, and `main.cpp` says
in plain text that it took a snapshot, how many mutations it reconciled as applied and how many
are indeterminate, whatever fails later. So stderr is one JSON object with the reason and the
detail exactly when the failure is passed to `Fail` at all, its detail needs no escape, and
nothing was said before (`machineReadable_iff`).

The reasons themselves are literals of `main.cpp`, which is what `startFailure_reason` finds
by going through the places a start can fail at.

## Proof shape

There is one constructor of `StartFailure` for each place at which a start can fail. Two things
are to be known of a failure: the reason that `Fail` is given, if it is given one, and what was on
stderr by then. `start_error` has both, by going through the steps of a start; the text on stderr
is the state of `StartM`, to which each step adds its line if the line is due. Whether the whole
of stderr is then one JSON object is a fact about texts: a plain line in front spoils it, as it
has letters outside a string, and so does a detail that needs an escape.
-/

namespace Daichod

/-- The process exits with a code other than 0, and stderr is one JSON object with the reason
and the detail of a failure. -/
def MachineReadable (ending : Ending) (failure : StartFailure) : Prop :=
  ∃ code stderr reason, ending = .exited code stderr ∧ code ≠ 0 ∧
    (∀ named, failure.reason = some named → reason = named) ∧
    Json.IsObject stderr [(cstr "error", reason), (cstr "detail", failure.detail)]

/-- A literal without characters to escape is plain. -/
theorem plain_cstr {text : String} (h : text.toList.all (Json.Unescaped · : Char → Bool) = true) :
    Json.Plain (cstr text) := ⟨text.toList, by simpa using h, rfl⟩

namespace StartFailure

/-- What is thrown there reaches `Fail`. -/
def Handled : StartFailure → Prop
  | .badNumber _ | .listing _ => False
  | _ => True

/-- Only a failure that is not handled has no reason. -/
theorem reason_eq_none_iff {failure : StartFailure} :
    failure.reason = none ↔ ¬failure.Handled := by
  cases failure <;> simp [reason, Handled]

/-- The reason is a text that needs no escape. -/
def PlainReason (failure : StartFailure) : Prop :=
  ∀ reason, failure.reason = some reason → Json.Plain reason

/-- Only the reason of a lock held elsewhere is not the failure's own. -/
theorem plainReason_iff {failure : StartFailure} :
    failure.PlainReason ↔
      ∀ failReason lockPath, failure = .contended failReason lockPath → Json.Plain failReason := by
  constructor
  · rintro h failReason lockPath rfl
    exact h failReason rfl
  · intro h reason hreason
    cases failure with
    | contended failReason lockPath =>
      cases hreason
      exact h _ lockPath rfl
    | badNumber what => cases hreason
    | listing what => cases hreason
    | _ =>
      cases hreason
      exact plain_cstr (by decide +kernel)

end StartFailure

/-! ### The order of a start -/

/-- The place of a step in the order of a start. -/
@[simp] def Step.index : Step → ℕ
  | .snapshot => 1
  | .openJournal => 2
  | .openBook => 3
  | .startupChecks => 4
  | .reconcile => 5
  | .listIndeterminate => 6
  | .listen => 7

namespace StartFailure

/-- The place of a failure in that order; the command line and the locks come first. -/
@[simp] def index : StartFailure → ℕ
  | .badOption _ | .usage _ | .badNumber _ | .lockOpen _ | .contended _ _ | .pidFileOpen _ => 0
  | .backup _ => 1
  | .journalOpen _ => 2
  | .bookOpen _ => 3
  | .startupCheck _ => 4
  | .reconciliation _ => 5
  | .listing _ => 6
  | .listen _ => 7

/-- The step came before the failure, or is the one that failed. -/
def Reached (failure : StartFailure) (step : Step) : Prop := step.index ≤ failure.index

/-- The step came before the failure. -/
def Behind (failure : StartFailure) (step : Step) : Prop := step.index < failure.index

end StartFailure

/-! ### The reasons of every place

The literals that `main.cpp` passes to `Fail`, and the places where something throws past it. -/

variable {sha256 : CString → CString} {args : List CString} {s : Surroundings}
  {options : Options} {failure : StartFailure}

/-- A failure before the snapshot. -/
structure StartFailure.Early (failure : StartFailure) : Prop where
  plain : failure.PlainReason
  index : failure.index = 0

/-- The numbers and the unknown options fail early, -/
theorem parseLoop_early {opts : List (Option (LongOption × CString))}
    (h : parseLoop options opts = .failed failure) : failure.Early := by
  have hbadNumber : ∀ what, (StartFailure.badNumber what).Early := by
    refine fun what => ⟨?_, rfl⟩
    intro reason hreason
    cases hreason
  induction opts generalizing options with
  | nil => cases h
  | cons opt rest ih =>
    rcases opt with _ | ⟨longOption, optarg⟩
    · cases h
      refine ⟨fun reason hreason => ?_, rfl⟩
      cases hreason
      exact plain_cstr (by decide +kernel)
    · cases longOption with
      | backupKeepDays =>
        simp only [parseLoop] at h
        split at h
        · exact ih h
        · cases h
          exact hbadNumber _
      | queueDepth =>
        simp only [parseLoop] at h
        split at h
        · exact ih h
        · cases h
          exact hbadNumber _
      | version => cases h
      | _ => exact ih h

/-- as do the checks behind the loop, -/
theorem checkOptions_early (h : checkOptions options = .failed failure) : failure.Early := by
  have husage : ∀ message, (StartFailure.usage message).Early := by
    refine fun message => ⟨?_, rfl⟩
    intro reason hreason
    cases hreason
    exact plain_cstr (by decide +kernel)
  simp only [checkOptions] at h
  split_ifs at h <;> cases h <;> exact husage _

/-- and so all of `ParseOptions`. -/
theorem parseOptions_early (h : parseOptions args = .failed failure) : failure.Early := by
  simp only [parseOptions] at h
  split at h
  · exact checkOptions_early h
  · exact parseLoop_early h

/-- A lock names its own reason. -/
theorem acquireOneLock_early {fate : LockFate} {held : Bool}
    {lockPath pidPath failReason : CString} (hplain : Json.Plain failReason)
    (h : acquireOneLock fate held lockPath pidPath failReason = .error failure) :
    failure.Early ∧ failure.getoptSays s = [] := by
  have literal : ∀ reason, failure.reason = some reason →
      reason = failReason ∨ reason = cstr "lock_open_failed" ∨
        reason = cstr "pidfile_open_failed" := by
    intro reason hreason
    simp only [acquireOneLock] at h
    split_ifs at h <;> cases h <;> cases hreason <;> simp
  have hearly : failure.PlainReason := by
    intro reason hreason
    rcases literal reason hreason with rfl | rfl | rfl
    · exact hplain
    · exact plain_cstr (by decide +kernel)
    · exact plain_cstr (by decide +kernel)
  simp only [acquireOneLock] at h
  split_ifs at h <;> cases h <;> exact ⟨⟨hearly, rfl⟩, rfl⟩

/-- The locks come before anything is written in plain text. -/
theorem acquireLocks_early (h : acquireLocks sha256 options s = .error failure) :
    failure.Early ∧ failure.getoptSays s = [] := by
  cases hsocket : acquireSocketLock options s.socketLock s.socketLockHeld with
  | error e =>
    simp only [acquireLocks, hsocket] at h
    cases h
    exact acquireOneLock_early (plain_cstr (by decide +kernel)) hsocket
  | ok _ =>
    simp only [acquireLocks, hsocket] at h
    exact acquireOneLock_early (plain_cstr (by decide +kernel)) h

/-- Only the reason of a lock held elsewhere is no literal. -/
theorem plainReason_of_ne (h : ∀ failReason lockPath, failure ≠ .contended failReason lockPath) :
    failure.PlainReason :=
  StartFailure.plainReason_iff.mpr fun failReason lockPath heq => absurd heq (h failReason lockPath)

/-! ### What was said before a failure

Lines in plain text, each due under its own condition, in the order of the source. -/

/-- The command line asks for daily snapshots. -/
def SnapshotDue (args : List CString) : Prop :=
  ∃ options, parseOptions args = .options options ∧ options.backupDir ≠ []

/-- **Nothing was said before the failure**: `getopt_long` had no option to complain about, no
library logged anything, and `main.cpp` had nothing to tell. -/
structure Silent (args : List CString) (s : Surroundings) (failure : StartFailure) : Prop where
  getopt : Json.Whitespace (failure.getoptSays s)
  logged : ∀ step, failure.Reached step → (step = .snapshot → SnapshotDue args) →
    Json.Whitespace (s.logged step)
  snapshot : failure.Behind .snapshot → SnapshotDue args → s.snapshot ≠ .ok true
  reconciled : failure.Behind .reconcile → ∀ n, s.reconcile = .ok n → n = 0
  indeterminate : failure.Behind .listIndeterminate → ∀ n, s.listIndeterminate = .ok n → n = 0

section Said

variable {α β : Type} {text stderr : CString} {step : Step}

/-- Blank texts add up. -/
theorem whitespace_append {a b : CString} :
    Json.Whitespace (a ++ b) ↔ Json.Whitespace a ∧ Json.Whitespace b := by
  simp only [Json.Whitespace, List.mem_append]
  exact ⟨fun h => ⟨fun x hx => h x (Or.inl hx), fun x hx => h x (Or.inr hx)⟩,
    fun h x hx => hx.elim (h.1 x) (h.2 x)⟩

/-- No text is blank. -/
theorem whitespace_nil : Json.Whitespace [] := fun _ hx => by cases hx

/-- A diagnostic with a letter in it is not blank. -/
theorem whitespace_due_iff {due : Prop} [Decidable due] {front rest : CString}
    (hfront : 0x64 ∈ front) : Json.Whitespace (if due then front ++ rest else []) ↔ ¬due := by
  split
  · next hdue =>
    refine iff_of_false (fun h => ?_) (not_not_intro hdue)
    exact absurd (h 0x64 (List.mem_append_left _ hfront)) (by decide)
  · next hdue => exact iff_of_true whitespace_nil hdue

/-- A line in plain text begins with a letter. -/
theorem letter_mem : 0x64 ∈ cstr "daichod: " := by decide +kernel

/-- What a step that fails leaves. -/
theorem runStep_error {result : Except CString α} {failed : CString → StartFailure}
    (h : runStep s step result failed text = .error failure stderr) :
    ∃ what, failure = failed what ∧ stderr = text ++ s.logged step := by
  cases result with
  | error what =>
    cases h
    exact ⟨what, rfl, rfl⟩
  | ok a => cases h

/-- Either the step fails or one behind it. -/
theorem runStep_bind_error {result : Except CString α} {failed : CString → StartFailure}
    {k : α → StartM β} (h : (runStep s step result failed >>= k) text = .error failure stderr) :
    (∃ what, failure = failed what ∧ stderr = text ++ s.logged step) ∨
      ∃ a, result = .ok a ∧ k a (text ++ s.logged step) = .error failure stderr := by
  cases result with
  | error what =>
    cases h
    exact Or.inl ⟨what, rfl, rfl⟩
  | ok a => exact Or.inr ⟨a, rfl, h⟩

/-- A line is written if it is due. -/
theorem sayIf_eq {due : Prop} [Decidable due] {line : CString} :
    sayIf due line text = .ok () (text ++ if due then line else []) := by
  unfold sayIf
  split
  · rfl
  · rw [List.append_nil]
    rfl

/-- And then the start goes on. -/
theorem sayIf_bind {due : Prop} [Decidable due] {line : CString} {k : Unit → StartM β} :
    (sayIf due line >>= k) text = k () (text ++ if due then line else []) := by
  rw [Triple.run_bind, sayIf_eq]

/-- A task that returns has run on the engine thread. -/
theorem workerRun_ok {task : Except CString α} {a : α} (h : workerRun options task = .ok a) :
    task = .ok a := by
  unfold workerRun at h
  split at h
  · cases h
  · exact h

/-- A failure behind the snapshot, at which `text` has become `stderr`. -/
structure FailsBehind (s : Surroundings) (failure : StartFailure) (text stderr : CString) :
    Prop where
  plain : failure.PlainReason
  getopt : failure.getoptSays s = []
  behind : failure.Behind .snapshot
  whitespace_iff : Json.Whitespace stderr ↔ Json.Whitespace text ∧
    (∀ step, step ≠ .snapshot → failure.Reached step → Json.Whitespace (s.logged step)) ∧
    (failure.Behind .reconcile → ∀ n, s.reconcile = .ok n → n = 0) ∧
    (failure.Behind .listIndeterminate → ∀ n, s.listIndeterminate = .ok n → n = 0)

/-- The steps of a start, the snapshot apart. -/
theorem forall_step {P : Step → Prop} : (∀ step, step ≠ .snapshot → P step) ↔
    P .openJournal ∧ P .openBook ∧ P .startupChecks ∧ P .reconcile ∧ P .listIndeterminate ∧
      P .listen := by
  refine ⟨fun h => ⟨h _ (by decide), h _ (by decide), h _ (by decide), h _ (by decide),
    h _ (by decide), h _ (by decide)⟩, fun h step hne => ?_⟩
  obtain ⟨h₁, h₂, h₃, h₄, h₅, h₆⟩ := h
  cases step
  · exact absurd rfl hne
  all_goals assumption

/-- **Every failure behind the snapshot**, step by step. -/
theorem openAndListen_error (h : openAndListen options s text = .error failure stderr) :
    FailsBehind s failure text stderr := by
  simp only [openAndListen] at h
  rcases runStep_bind_error h with ⟨what, rfl, rfl⟩ | ⟨-, -, h⟩
  · refine ⟨plainReason_of_ne (by simp), rfl, by simp [StartFailure.Behind], ?_⟩
    simp [forall_step, StartFailure.Reached, StartFailure.Behind, whitespace_append]
  rcases runStep_bind_error h with ⟨what, rfl, rfl⟩ | ⟨-, -, h⟩
  · refine ⟨plainReason_of_ne (by simp), rfl, by simp [StartFailure.Behind], ?_⟩
    simp [forall_step, StartFailure.Reached, StartFailure.Behind, whitespace_append]
  rcases runStep_bind_error h with ⟨what, rfl, rfl⟩ | ⟨-, -, h⟩
  · refine ⟨plainReason_of_ne (by simp), rfl, by simp [StartFailure.Behind], ?_⟩
    simp [forall_step, StartFailure.Reached, StartFailure.Behind, whitespace_append]
  rcases runStep_bind_error h with ⟨what, rfl, rfl⟩ | ⟨reconciled, hreconciled, h⟩
  · refine ⟨plainReason_of_ne (by simp), rfl, by simp [StartFailure.Behind], ?_⟩
    simp [forall_step, StartFailure.Reached, StartFailure.Behind, whitespace_append]
  -- From here on the number of reconciled mutations has been told, if there are any.
  rw [sayIf_bind, List.append_assoc (cstr "daichod: ")] at h
  have hreconciled := workerRun_ok hreconciled
  rcases runStep_bind_error h with ⟨what, rfl, rfl⟩ | ⟨indeterminate, hindeterminate, h⟩
  · refine ⟨plainReason_of_ne (by simp), rfl, by simp [StartFailure.Behind], ?_⟩
    simp only [whitespace_append, whitespace_due_iff letter_mem, forall_step, StartFailure.Reached,
      StartFailure.Behind, hreconciled]
    simp
    tauto
  -- And from here on the number of indeterminate ones.
  rw [sayIf_bind, List.append_assoc (cstr "daichod: ")] at h
  have hindeterminate := workerRun_ok hindeterminate
  obtain ⟨what, rfl, rfl⟩ := runStep_error h
  refine ⟨plainReason_of_ne (by simp), rfl, by simp [StartFailure.Behind], ?_⟩
  simp only [whitespace_append, whitespace_due_iff letter_mem, forall_step, StartFailure.Reached,
    StartFailure.Behind, hreconciled, hindeterminate]
  simp
  tauto

/-- A failure before the snapshot: only `getopt_long` can have said anything. -/
theorem StartFailure.Early.silent (h : failure.Early)
    (hgetopt : Json.Whitespace (failure.getoptSays s)) : Silent args s failure := by
  have hreached : ∀ step, ¬failure.Reached step := by
    intro step hle
    have hpos : 0 < step.index := by cases step <;> decide
    have hindex := h.index
    unfold StartFailure.Reached at hle
    omega
  have hbehind : ∀ step, ¬failure.Behind step := fun step hlt => hreached step (Nat.le_of_lt hlt)
  exact ⟨hgetopt, fun step hstep => absurd hstep (hreached step),
    fun hstep => absurd hstep (hbehind _), fun hstep => absurd hstep (hbehind _),
    fun hstep => absurd hstep (hbehind _)⟩

/-- A failure of the snapshot itself. -/
theorem silent_backup_iff {what : CString} (hdue : SnapshotDue args) :
    Silent args s (.backup what) ↔ Json.Whitespace (s.logged .snapshot) := by
  have hbehind : ∀ step, ¬(StartFailure.backup what).Behind step := by
    intro step
    cases step <;> simp [StartFailure.Behind]
  have hreached : ∀ step, (StartFailure.backup what).Reached step → step = .snapshot := by
    intro step
    cases step <;> simp [StartFailure.Reached]
  refine ⟨fun h => h.logged .snapshot (by simp [StartFailure.Reached]) fun _ => hdue, fun h => ?_⟩
  refine ⟨whitespace_nil, fun step hstep _ => ?_, fun hstep => absurd hstep (hbehind _),
    fun hstep => absurd hstep (hbehind _), fun hstep => absurd hstep (hbehind _)⟩
  rw [hreached step hstep]
  exact h

/-- A failure behind the snapshot, of which something may have been said. -/
theorem FailsBehind.whitespace_iff_silent (h : FailsBehind s failure text stderr)
    (htext : Json.Whitespace text ↔
      (SnapshotDue args → Json.Whitespace (s.logged .snapshot) ∧ s.snapshot ≠ .ok true)) :
    Json.Whitespace stderr ↔ Silent args s failure := by
  rw [h.whitespace_iff, htext]
  constructor
  · rintro ⟨hsnapshot, hlogged, hreconciled, hindeterminate⟩
    refine ⟨?_, fun step hstep hdue => ?_, fun _ hdue => (hsnapshot hdue).2, hreconciled,
      hindeterminate⟩
    · rw [h.getopt]
      exact whitespace_nil
    · by_cases hstep' : step = .snapshot
      · rw [hstep']
        exact (hsnapshot (hdue hstep')).1
      · exact hlogged step hstep' hstep
  · intro hsilent
    refine ⟨fun hdue => ⟨hsilent.logged .snapshot (Nat.le_of_lt h.behind) fun _ => hdue,
      hsilent.snapshot h.behind hdue⟩, fun step hne hstep => hsilent.logged step hstep
        fun heq => absurd heq hne, hsilent.reconciled, hsilent.indeterminate⟩

/-- **Every failure of a start**, and when nothing was said before it. -/
theorem start_error (h : start sha256 args s = some (.error failure stderr)) :
    failure.PlainReason ∧ (Json.Whitespace stderr ↔ Silent args s failure) := by
  -- Step by step: up to the failure every step has returned, and said what it had to say.
  unfold start at h
  cases hparsed : parseOptions args with
  | version => rw [hparsed] at h; cases h
  | failed parseFailure =>
    rw [hparsed] at h
    cases h
    have hearly := parseOptions_early hparsed
    exact ⟨hearly.plain, hearly.silent, fun hsilent => hsilent.getopt⟩
  | options options =>
    rw [hparsed] at h
    replace h : runDaemon sha256 options s [] = .error failure stderr := Option.some.inj h
    have hdue : SnapshotDue args ↔ options.backupDir ≠ [] := by
      refine ⟨?_, fun hdir => ⟨options, hparsed, hdir⟩⟩
      rintro ⟨options', hparsed', hdir⟩
      rw [hparsed] at hparsed'
      cases hparsed'
      exact hdir
    unfold runDaemon at h
    cases hlocks : acquireLocks sha256 options s with
    | error lockFailure =>
      rw [hlocks] at h
      cases h
      obtain ⟨hearly, hgetopt⟩ := acquireLocks_early hlocks
      refine ⟨hearly.plain, fun _ => hearly.silent ?_, fun _ => whitespace_nil⟩
      rw [hgetopt]
      exact whitespace_nil
    | ok _ =>
      rw [hlocks] at h
      by_cases hdir : options.backupDir ≠ []
      · replace h : (dailySnapshot options s >>= fun _ => openAndListen options s) []
            = .error failure stderr := by
          simpa only [hdir, ne_eq, not_false_eq_true, if_true] using h
        simp only [dailySnapshot, bind_assoc] at h
        rcases runStep_bind_error h with ⟨what, rfl, rfl⟩ | ⟨taken, htaken, h⟩
        · exact ⟨plainReason_of_ne (by simp), (silent_backup_iff (hdue.mpr hdir)).symm⟩
        · rw [sayIf_bind, List.append_assoc (cstr _)] at h
          have hbehind := openAndListen_error h
          have hletter : 0x64 ∈ cstr "daichod: snapshotted book and journal to " := by
            decide +kernel
          refine ⟨hbehind.plain, hbehind.whitespace_iff_silent ?_⟩
          rw [whitespace_append, whitespace_due_iff hletter, htaken, hdue]
          simp [hdir]
      · replace h : openAndListen options s [] = .error failure stderr := by
          simp only [hdir, if_false] at h
          exact h
        have hbehind := openAndListen_error h
        refine ⟨hbehind.plain, hbehind.whitespace_iff_silent ?_⟩
        exact iff_of_true whitespace_nil fun hsnapshot => absurd (hdue.mp hsnapshot) hdir

/-- **Every reason is plain**: what a supervisor matches on is never cut short or escaped. -/
theorem startFailure_reason (h : startFailure sha256 args s = some failure) :
    failure.PlainReason := by
  obtain ⟨stderr, h⟩ := startFailure_eq_some.mp h
  exact (start_error h).1

end Said

/-! ### The line `Fail` writes -/

/-- The line is an object of what is printed. -/
theorem failLine_eq (reason detail : CString) :
    failLine reason detail = Json.print
      [(cstr "error", printed reason), (cstr "detail", printed detail)] ++ [0x0A] := by
  have hopen : cstr "\x7b\"error\":\"" = 0x7B :: 0x22 :: cstr "error" ++ [0x22, 0x3A, 0x22] := rfl
  have hmiddle : cstr "\",\"detail\":\""
      = 0x22 :: 0x2C :: 0x22 :: cstr "detail" ++ [0x22, 0x3A, 0x22] := rfl
  have hclose : cstr "\"\x7d\n" = [0x22, 0x7D, 0x0A] := rfl
  simp [failLine, hopen, hmiddle, hclose, Json.print, Json.printMembers, Json.printMember]

/-- A text printed at its full length is printed as it is. -/
theorem printed_eq_of_length {s : CString} (h : s.length ≤ (printed s).length) : printed s = s :=
  (List.takeWhile_prefix _).eq_of_length_le h

/-- A text that needs no escape holds no NUL. -/
theorem printed_of_plain {s : CString} (h : Json.Plain s) : printed s = s := by
  refine List.takeWhile_eq_self_iff.mpr fun b hb => ?_
  have hcontrol := (h.byte hb).1
  refine decide_eq_true ?_
  rintro rfl
  exact absurd hcontrol (by decide)

/-- The line stands for reason and detail exactly when the detail needs no escape. -/
theorem isObject_failLine_iff {reason detail : CString} (hreason : Json.Plain reason) :
    Json.IsObject (failLine reason detail) [(cstr "error", reason), (cstr "detail", detail)] ↔
      Json.Plain detail := by
  rw [failLine_eq, printed_of_plain hreason, Json.isObject_append_newline]
  constructor
  · intro hobject
    have hlong := (Json.IsObject.length_le hobject).1
    have hlength := @Json.length_printMembers
      [(cstr "error", reason), (cstr "detail", printed detail)] (by simp)
    have hfull : printed detail = detail := by
      refine printed_eq_of_length ?_
      simp [Json.print, Json.memberSize] at hlong hlength
      omega
    rw [hfull] at hobject
    exact ((Json.isObject_print_iff (by simp)).mp hobject (cstr "detail", detail) (by simp)).2
  · intro hdetail
    rw [printed_of_plain hdetail, Json.isObject_print_iff (by simp)]
    intro m hm
    rcases List.mem_pair.mp hm with rfl | rfl
    · exact ⟨plain_cstr (by decide +kernel), hreason⟩
    · exact ⟨plain_cstr (by decide +kernel), hdetail⟩

/-- What follows the brace of the line. -/
theorem failLine_cons (reason detail : CString) :
    ∃ rest, failLine reason detail = 0x7B :: 0x22 :: 0x65 :: rest := by
  have hopen : cstr "\x7b\"error\":\"" = 0x7B :: 0x22 :: 0x65 :: cstr "rror\":\"" := rfl
  simp only [failLine, hopen, List.cons_append]
  exact ⟨_, rfl⟩

/-- Only blanks may stand before the line, and then the line is the object. -/
theorem isObject_said_iff {said reason detail : CString} (hreason : Json.Plain reason) :
    Json.IsObject (said ++ failLine reason detail)
        [(cstr "error", reason), (cstr "detail", detail)] ↔
      Json.Whitespace said ∧ Json.Plain detail := by
  obtain ⟨rest, hline⟩ := failLine_cons reason detail
  rw [← isObject_failLine_iff hreason, hline, Json.isObject_append_iff (by decide)]

/-- What `Fail` leaves behind. -/
theorem StartFailure.machineReadable_ending_iff {reason : CString}
    (hreason : failure.reason = some reason) (hplain : Json.Plain reason) {stderr : CString} :
    MachineReadable (failure.ending stderr) failure ↔
      Json.Whitespace stderr ∧ Json.Plain failure.detail := by
  rw [← isObject_said_iff hplain]
  simp only [StartFailure.ending, hreason]
  constructor
  · rintro ⟨code, text, named, hexited, -, hnamed, hread⟩
    cases hexited
    obtain rfl := hnamed reason hreason
    exact hread
  · intro hread
    refine ⟨1, _, reason, rfl, by simp, ?_, hread⟩
    intro named hnamed
    rw [hreason] at hnamed
    cases hnamed
    rfl

/-- **When a failed start is machine readable.** -/
theorem machineReadable_iff (h : startFailure sha256 args s = some failure) :
    MachineReadable (main sha256 args s) failure ↔
      failure.Handled ∧ Json.Plain failure.detail ∧ Silent args s failure := by
  obtain ⟨stderr, hstart⟩ := startFailure_eq_some.mp h
  obtain ⟨hreasons, hsilent⟩ := start_error hstart
  have hmain : main sha256 args s = failure.ending stderr := by rw [main, hstart]
  rw [hmain]
  cases hreason : failure.reason with
  | none =>
    have hunhandled := StartFailure.reason_eq_none_iff.mp hreason
    simp [MachineReadable, StartFailure.ending, hreason, hunhandled]
  | some reason =>
    have hhandled : failure.Handled := by
      by_contra hnot
      rw [StartFailure.reason_eq_none_iff.mpr hnot] at hreason
      cases hreason
    rw [StartFailure.machineReadable_ending_iff hreason (hreasons reason hreason), hsilent]
    exact ⟨fun hread => ⟨hhandled, hread.2, hread.1⟩, fun hread => ⟨hread.2.2, hread.2.1⟩⟩

/-! ### Starts that leave no report -/

section Reports

/-- A daemon whose socket path holds quotation marks. -/
def quotedArgs : List CString :=
  [cstr "--book-uri", cstr "sqlite3:///books/a.gnucash", cstr "--socket", cstr "/run/\"a\".sock"]

/-- No number for the queue's depth. -/
def manyArgs : List CString :=
  [cstr "--book-uri", cstr "sqlite3:///books/a.gnucash", cstr "--socket", cstr "/run/a.sock",
    cstr "--queue-depth", cstr "many"]

/-- Another daemon serves on the socket already. -/
def alreadyRunning : Surroundings := { socketLockHeld := true }

/-- A start with daily snapshots. -/
def backupArgs : List CString :=
  manyArgs.take 4 ++ [cstr "--backup-dir", cstr "/var/backups/daichod"]

/-- Today's is taken, and then the disk is full. -/
def snapshotTaken : Surroundings :=
  { snapshot := .ok true, openJournal := .error (cstr "database or disk is full") }

/-- What `getopt_long` says of an option it does not know. -/
def bogus : Surroundings := { getoptLine := cstr "daichod: unrecognized option '--bogus'\n" }

/-- `std::stoul` aborts the process, a path with a quotation mark ends the detail early, and
`getopt_long` or a snapshot has had its say before the report. -/
theorem reports_lost :
    (startFailure id manyArgs {} = some (.badNumber (cstr "stoul")) ∧
      ¬MachineReadable (main id manyArgs {}) (.badNumber (cstr "stoul"))) ∧
    (startFailure id quotedArgs alreadyRunning
        = some (.contended (cstr "already_running") (cstr "/run/\"a\".sock.lock")) ∧
      ¬MachineReadable (main id quotedArgs alreadyRunning)
        (.contended (cstr "already_running") (cstr "/run/\"a\".sock.lock"))) ∧
    (startFailure id [cstr "--bogus"] bogus = some (.badOption synopsis) ∧
      ¬MachineReadable (main id [cstr "--bogus"] bogus) (.badOption synopsis)) ∧
    (startFailure id backupArgs snapshotTaken
        = some (.journalOpen (cstr "database or disk is full")) ∧
      ¬MachineReadable (main id backupArgs snapshotTaken)
        (.journalOpen (cstr "database or disk is full"))) := by
  -- One start for each way to lose the report.
  refine ⟨⟨by decide +kernel, ?_⟩, ⟨by decide +kernel, ?_⟩, ⟨by decide +kernel, ?_⟩,
    ⟨by decide +kernel, ?_⟩⟩
  · have habort : main id manyArgs {} = .aborted := by decide +kernel
    rintro ⟨code, stderr, reason, hexited, -⟩
    rw [habort] at hexited
    cases hexited
  · have hending : main id quotedArgs alreadyRunning
        = (StartFailure.contended (cstr "already_running")
            (cstr "/run/\"a\".sock.lock")).ending [] := by decide +kernel
    rw [hending, StartFailure.machineReadable_ending_iff rfl (plain_cstr (by decide +kernel))]
    rintro ⟨-, hplain⟩
    have hquote : 0x22 ∈ cstr "another daichod holds /run/\"a\".sock.lock" := by decide +kernel
    exact (hplain.byte hquote).2.1 rfl
  · have hending : main id [cstr "--bogus"] bogus
        = (StartFailure.badOption synopsis).ending bogus.getoptLine := by decide +kernel
    rw [hending, StartFailure.machineReadable_ending_iff rfl (plain_cstr (by decide +kernel))]
    rintro ⟨hblank, -⟩
    exact absurd (hblank 0x64 (by decide +kernel)) (by decide)
  · have hending : main id backupArgs snapshotTaken
        = (StartFailure.journalOpen (cstr "database or disk is full")).ending
            (cstr "daichod: snapshotted book and journal to /var/backups/daichod\n") := by
      decide +kernel
    rw [hending, StartFailure.machineReadable_ending_iff rfl (plain_cstr (by decide +kernel))]
    rintro ⟨hblank, -⟩
    exact absurd (hblank 0x64 (by decide +kernel)) (by decide)

/-- The same lock under a path without quotation marks. -/
theorem machineReadable_iff_already_running :
    MachineReadable (main id (manyArgs.take 4) alreadyRunning)
        (.contended (cstr "already_running") (cstr "/run/a.sock.lock")) ↔
      (StartFailure.contended (cstr "already_running") (cstr "/run/a.sock.lock")).Handled ∧
        Json.Plain
          (StartFailure.contended (cstr "already_running") (cstr "/run/a.sock.lock")).detail ∧
        Silent (manyArgs.take 4) alreadyRunning
          (.contended (cstr "already_running") (cstr "/run/a.sock.lock")) := by
  have hfails : startFailure id (manyArgs.take 4) alreadyRunning
      = some (.contended (cstr "already_running") (cstr "/run/a.sock.lock")) := by decide +kernel
  exact machineReadable_iff hfails

end Reports

end Daichod
