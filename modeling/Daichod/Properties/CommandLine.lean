import Daichod.Main.Options
import Mathlib.Data.List.TFAE
import Mathlib.Tactic.IntervalCases
import Mathlib.Tactic.TFAE

/-!
# Daichod.Properties.CommandLine

**What a command line can ask for.** Whatever is on it, the options that `ParseOptions` comes
to are ones it would accept spelled out in full (`parseOptions_tfae`): each option given as a
name and an argument behind it, the numbers in decimal. So nothing that runs is beyond a
supervisor's unit file, and what is accepted is what `Options.Accepted` says.

## Proof shape

`stoi` and `stoul` are inverted (`stoi_iff`, `stoul_iff`), so what a number's text can say is
known, and a decimal text says it (`stoi_signedDecimal`, `stoul_decimal`). A command line that
spells out every option is parsed option by option into the same record again. The other direction
needs only that the loop puts in-range numbers into the record and that the checks at the end are
what `Accepted` says.
-/

namespace Daichod

/-! ### Numbers -/

/-- A number in decimal, with its sign. -/
def signedDecimal (n : ℤ) : CString :=
  if n < 0 then 0x2D :: decimal n.natAbs else decimal n.natAbs

/-- A decimal digit is one. -/
theorem isDigit_digit {n : ℕ} (h : n < 10) : isDigit (0x30 + n.toUInt8) = true := by
  interval_cases n <;> decide

/-- Its byte gives its value back. -/
theorem digit_toNat {n : ℕ} (h : n < 10) : (0x30 + n.toUInt8).toNat - 0x30 = n := by
  interval_cases n <;> decide

/-- A number has at least one digit, -/
theorem decimal_ne_nil (n : ℕ) : decimal n ≠ [] := by
  unfold decimal
  split <;> simp

/-- and nothing but digits. -/
theorem isDigit_of_mem_decimal {n : ℕ} : ∀ b ∈ decimal n, isDigit b = true := by
  induction n using decimal.induct with
  | case1 n hlt =>
    intro b hb
    rw [decimal, if_pos hlt] at hb
    obtain rfl := List.mem_singleton.mp hb
    exact isDigit_digit hlt
  | case2 n hge ih =>
    intro b hb
    rw [decimal, if_neg hge] at hb
    rcases List.mem_append.mp hb with hb | hb
    · exact ih b hb
    · obtain rfl := List.mem_singleton.mp hb
      exact isDigit_digit (Nat.mod_lt _ (by decide))

/-- The digits add up to the number. -/
theorem foldl_decimal (n : ℕ) :
    (decimal n).foldl (fun n d => n * 10 + (d.toNat - 0x30)) 0 = n := by
  induction n using decimal.induct with
  | case1 n hlt =>
    rw [decimal, if_pos hlt, List.foldl_cons, List.foldl_nil, digit_toNat hlt]
    omega
  | case2 n hge ih =>
    rw [decimal, if_neg hge, List.foldl_append, ih, List.foldl_cons, List.foldl_nil,
      digit_toNat (Nat.mod_lt _ (by decide))]
    omega

/-- A digit is no blank and no sign. -/
theorem not_isSpace_of_isDigit {b : UInt8} (h : isDigit b = true) :
    isSpace b = false ∧ b ≠ 0x2D ∧ b ≠ 0x2B := by
  simp only [isDigit, Bool.and_eq_true, decide_eq_true_eq, UInt8.le_iff_toNat_le] at h
  simp only [isSpace, ne_eq, ← UInt8.toNat_inj, UInt8.le_iff_toNat_le, beq_eq_decide]
  have hdigit : 48 ≤ b.toNat := h.1
  simp
  omega

/-- So it begins with a digit. -/
theorem exists_decimal_eq_cons (n : ℕ) : ∃ b rest, decimal n = b :: rest ∧ isDigit b = true := by
  cases h : decimal n with
  | nil => exact absurd h (decimal_ne_nil n)
  | cons b rest => exact ⟨b, rest, rfl, isDigit_of_mem_decimal b (h ▸ List.mem_cons_self)⟩

/-- All of it is read. -/
theorem takeWhile_decimal (n : ℕ) : (decimal n).takeWhile isDigit = decimal n :=
  List.takeWhile_eq_self_iff.mpr fun b hb => isDigit_of_mem_decimal b hb

/-- **A number is read back**, -/
theorem strtol_decimal (n : ℕ) : strtol (decimal n) = some (false, n) := by
  obtain ⟨b, rest, hdecimal, hb⟩ := exists_decimal_eq_cons n
  obtain ⟨hspace, hminus, hplus⟩ := not_isSpace_of_isDigit hb
  have hdrop : (decimal n).dropWhile isSpace = decimal n := by
    rw [hdecimal, List.dropWhile_cons_of_neg (by simp [hspace])]
  have hhead : (decimal n).head? = some b := by rw [hdecimal]; rfl
  simp [strtol, hdrop, hhead, hminus, hplus, takeWhile_decimal, decimal_ne_nil, foldl_decimal]

/-- and with a minus sign in front as negative. -/
theorem strtol_minus (n : ℕ) : strtol (0x2D :: decimal n) = some (true, n) := by
  have hdrop : (0x2D :: decimal n).dropWhile isSpace = 0x2D :: decimal n :=
    List.dropWhile_cons_of_neg (by decide)
  simp [strtol, hdrop, takeWhile_decimal, decimal_ne_nil, foldl_decimal]

/-- What `std::stoi` returns, where it does not throw. -/
theorem stoi_iff {s : CString} {n : ℤ} : stoi s = some n ↔ (-2 ^ 31 ≤ n ∧ n < 2 ^ 31) ∧
    ∃ negative magnitude, strtol s = some (negative, magnitude) ∧
      n = if negative then -(magnitude : ℤ) else magnitude := by
  unfold stoi
  cases hstrtol : strtol s with
  | none => simp
  | some parsed =>
    obtain ⟨negative, magnitude⟩ := parsed
    generalize hvalue : (if negative then -(magnitude : ℤ) else magnitude) = value
    show (if -2 ^ 31 ≤ (if negative then -(magnitude : ℤ) else magnitude) ∧
        (if negative then -(magnitude : ℤ) else magnitude) < 2 ^ 31 then
      some (if negative then -(magnitude : ℤ) else magnitude) else none) = some n ↔ _
    rw [hvalue]
    constructor
    · intro h
      split at h
      · next hrange =>
        obtain rfl := Option.some.inj h
        exact ⟨hrange, negative, magnitude, rfl, hvalue.symm⟩
      · cases h
    · rintro ⟨hrange, negative', magnitude', hparsed, rfl⟩
      cases hparsed
      rw [← hvalue, if_pos hrange]

/-- What `std::stoul` returns: a minus sign wraps around. -/
theorem stoul_iff {s : CString} {n : ℕ} : stoul s = some n ↔
    ∃ negative magnitude, strtol s = some (negative, magnitude) ∧ magnitude < 2 ^ 64 ∧
      n = if negative then (2 ^ 64 - magnitude) % 2 ^ 64 else magnitude := by
  unfold stoul
  cases hstrtol : strtol s with
  | none => simp
  | some parsed =>
    obtain ⟨negative, magnitude⟩ := parsed
    show (if magnitude < 2 ^ 64 then
      some (if negative then (2 ^ 64 - magnitude) % 2 ^ 64 else magnitude) else none) = some n ↔ _
    by_cases hrange : magnitude < 2 ^ 64
    · rw [if_pos hrange]
      constructor
      · intro h
        exact ⟨negative, magnitude, rfl, hrange, (Option.some.inj h).symm⟩
      · rintro ⟨_, _, hparsed, -, rfl⟩
        cases hparsed
        rfl
    · rw [if_neg hrange]
      constructor
      · intro h
        cases h
      · rintro ⟨_, _, hparsed, hmagnitude, -⟩
        cases hparsed
        exact absurd hmagnitude hrange

/-- An `int` is read back. -/
theorem stoi_signedDecimal {n : ℤ} (h : -2 ^ 31 ≤ n ∧ n < 2 ^ 31) :
    stoi (signedDecimal n) = some n := by
  refine stoi_iff.mpr ⟨h, ?_⟩
  unfold signedDecimal
  split
  · exact ⟨true, n.natAbs, strtol_minus _, by simp only [if_true]; omega⟩
  · exact ⟨false, n.natAbs, strtol_decimal _, by simp only [Bool.false_eq_true, if_false]; omega⟩

/-- A `size_t` is read back. -/
theorem stoul_decimal {n : ℕ} (h : n < 2 ^ 64) : stoul (decimal n) = some n :=
  stoul_iff.mpr ⟨false, n, strtol_decimal n, h, rfl⟩

/-- No size is out of range. -/
theorem stoul_inRange {s : CString} {n : ℕ} (h : stoul s = some n) : n < 2 ^ 64 := by
  obtain ⟨negative, magnitude, -, hmagnitude, rfl⟩ := stoul_iff.mp h
  cases negative with
  | true => exact Nat.mod_lt _ (Nat.two_pow_pos 64)
  | false => exact hmagnitude

/-! ### What is accepted -/

/-- The options a daemon can be started with. -/
structure Options.Accepted (options : Options) : Prop where
  bookUri : options.bookUri ≠ []
  socketPath : options.socketPath.head? = some 0x2F
  journalPath : options.journalPath ≠ []
  backupDir : options.backupDir ≠ [] → options.bookPath ≠ []
  backupKeepDays : -2 ^ 31 ≤ options.backupKeepDays ∧ options.backupKeepDays < 2 ^ 31
  queueDepth : options.queueDepth < 2 ^ 64

/-- The numbers of some options fit their types. -/
def Options.InRange (options : Options) : Prop :=
  (-2 ^ 31 ≤ options.backupKeepDays ∧ options.backupKeepDays < 2 ^ 31) ∧
    options.queueDepth < 2 ^ 64

/-- **The loop** lets no number in that does not fit. -/
theorem parseLoop_inRange {options options' : Options}
    {opts : List (Option (LongOption × CString))} (h : options.InRange)
    (hparsed : parseLoop options opts = .options options') : options'.InRange := by
  -- On the options found; each sets one field.
  induction opts generalizing options with
  | nil =>
    cases hparsed
    exact h
  | cons opt rest ih =>
    cases opt with
    | none => cases hparsed
    | some given =>
      obtain ⟨longOption, optarg⟩ := given
      cases longOption with
      | bookUri | socket | journal | backupDir | readOnly => exact ih (by exact h) hparsed
      | version => cases hparsed
      | backupKeepDays =>
        simp only [parseLoop] at hparsed
        split at hparsed
        · next n hn => exact ih (by exact ⟨(stoi_iff.mp hn).1, h.2⟩) hparsed
        · cases hparsed
      | queueDepth =>
        simp only [parseLoop] at hparsed
        split at hparsed
        · next n hn => exact ih (by exact ⟨h.1, stoul_inRange hn⟩) hparsed
        · cases hparsed

/-- What the checks behind the loop let pass. -/
theorem checkOptions_accepted {options options' : Options} (h : options.InRange)
    (hchecked : checkOptions options = .options options') : options'.Accepted := by
  unfold checkOptions at hchecked
  split at hchecked
  · cases hchecked
  · next hrequired =>
    split at hchecked
    · cases hchecked
    · next habsolute =>
      split at hchecked
      · cases hchecked
      · split at hchecked
        · cases hchecked
        · next hbackup =>
          rw [not_or] at hrequired
          have hbackupDir : options.backupDir ≠ [] → options.bookPath ≠ [] :=
            fun hdir hbook => hbackup ⟨hdir, hbook⟩
          split at hchecked
          · next hjournal =>
            cases hchecked
            refine ⟨hrequired.1, not_not.mp habsolute, ?_, hbackupDir, h.1, h.2⟩
            exact List.append_ne_nil_of_right_ne_nil _ (by decide)
          · next hjournal =>
            cases hchecked
            exact ⟨hrequired.1, not_not.mp habsolute, hjournal, hbackupDir, h.1, h.2⟩

/-- **Accepted options** are in range and pass the checks at the end. -/
theorem parseOptions_accepted {args : List CString} {options : Options}
    (h : parseOptions args = .options options) : options.Accepted := by
  unfold parseOptions at h
  split at h
  · next parsed hparsed =>
    have hdefault : ({} : Options).InRange := ⟨⟨by decide, by decide⟩, by decide⟩
    exact checkOptions_accepted (parseLoop_inRange hdefault hparsed) h
  · next hnot => exact absurd h (hnot options)

/-! ### Spelled out in full

The command line that a supervisor would write: every option by its full name, its argument behind
it. -/

/-- The command line with every option on it. -/
def Options.commandLine (options : Options) : List CString :=
  [cstr "--book-uri", options.bookUri, cstr "--socket", options.socketPath,
    cstr "--journal", options.journalPath, cstr "--backup-dir", options.backupDir,
    cstr "--backup-keep-days", signedDecimal options.backupKeepDays,
    cstr "--queue-depth", decimal options.queueDepth]
    ++ if options.readOnly then [cstr "--read-only"] else []

/-- An option whose argument is behind it, whatever that looks like. -/
theorem getoptLong_required {arg optarg : CString} {args : List CString} (longOption : LongOption)
    (hend : arg ≠ cstr "--") (hlong : (cstr "--").isPrefixOf arg = true)
    (hname : findLongOption ((arg.drop 2).takeWhile (· ≠ 0x3D)) = some (true, longOption))
    (hvalue : (arg.drop 2).dropWhile (· ≠ 0x3D) = []) :
    getoptLong (arg :: optarg :: args) = some (longOption, optarg) :: getoptLong args := by
  rw [getoptLong, if_neg hend, if_pos hlong]
  simp only [hname, hvalue, ne_eq, not_true_eq_false, if_false]

/-- An option without an argument. -/
theorem getoptLong_none {arg : CString} {args : List CString} (longOption : LongOption)
    (hend : arg ≠ cstr "--") (hlong : (cstr "--").isPrefixOf arg = true)
    (hname : findLongOption ((arg.drop 2).takeWhile (· ≠ 0x3D)) = some (false, longOption))
    (hvalue : (arg.drop 2).dropWhile (· ≠ 0x3D) = []) :
    getoptLong (arg :: args) = some (longOption, []) :: getoptLong args := by
  rw [getoptLong, if_neg hend, if_pos hlong]
  simp only [hname, hvalue, if_true]

/-- It is taken apart into the options and their arguments again. -/
theorem getoptLong_commandLine (options : Options) : getoptLong options.commandLine
    = [some (.bookUri, options.bookUri), some (.socket, options.socketPath),
        some (.journal, options.journalPath), some (.backupDir, options.backupDir),
        some (.backupKeepDays, signedDecimal options.backupKeepDays),
        some (.queueDepth, decimal options.queueDepth)]
      ++ if options.readOnly then [some (.readOnly, [])] else [] := by
  unfold Options.commandLine
  simp only [List.cons_append, List.nil_append]
  rw [getoptLong_required .bookUri (by decide) (by decide) (by decide) (by decide),
    getoptLong_required .socket (by decide) (by decide) (by decide) (by decide),
    getoptLong_required .journal (by decide) (by decide) (by decide) (by decide),
    getoptLong_required .backupDir (by decide) (by decide) (by decide) (by decide),
    getoptLong_required .backupKeepDays (by decide) (by decide) (by decide) (by decide),
    getoptLong_required .queueDepth (by decide) (by decide) (by decide) (by decide)]
  cases options.readOnly with
  | false => simp [getoptLong]
  | true =>
    simp only [if_true]
    rw [getoptLong_none .readOnly (by decide) (by decide) (by decide) (by decide)]
    simp [getoptLong]

/-- **Round trip**: options that are accepted are what their command line asks for. -/
theorem parseOptions_commandLine {options : Options} (h : options.Accepted) :
    parseOptions options.commandLine = .options options := by
  have hparsed : parseLoop {} (getoptLong options.commandLine) = .options options := by
    rw [getoptLong_commandLine]
    cases hreadOnly : options.readOnly with
    | false =>
      simp only [Bool.false_eq_true, if_false, List.append_nil, parseLoop,
        stoi_signedDecimal h.backupKeepDays, stoul_decimal h.queueDepth]
      rw [← hreadOnly]
    | true =>
      simp only [if_true, List.cons_append, List.nil_append, parseLoop,
        stoi_signedDecimal h.backupKeepDays, stoul_decimal h.queueDepth]
      rw [← hreadOnly]
  have hsocket : options.socketPath ≠ [] := by
    intro hnil
    have hhead := h.socketPath
    rw [hnil] at hhead
    cases hhead
  unfold parseOptions
  rw [hparsed]
  simp only [checkOptions]
  rw [if_neg (by simp [h.bookUri, hsocket]), if_neg (by simp [h.socketPath]),
    if_neg (by simp [h.journalPath]), if_neg (fun hbackup => h.backupDir hbackup.1 hbackup.2),
    if_neg h.journalPath]

/-- **What a command line can ask for.** -/
theorem parseOptions_tfae (options : Options) :
    [options.Accepted, parseOptions options.commandLine = .options options,
      ∃ args, parseOptions args = .options options].TFAE := by
  tfae_have 1 → 2 := parseOptions_commandLine
  tfae_have 2 → 3 := fun h => ⟨_, h⟩
  tfae_have 3 → 1 := by
    rintro ⟨args, h⟩
    exact parseOptions_accepted h
  tfae_finish

end Daichod
