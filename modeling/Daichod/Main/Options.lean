import Daichod.Library.Json
import Mathlib.Data.List.DropRight

/-!
# Daichod.Main.Options

The options of the daemon and how `ParseOptions` (`main.cpp`) reads them, on the bytes of
the command line: an argument, a path or an error text is any string of bytes.

`getoptLong` is the C library's `getopt_long` as far as `kLongOptions` and an empty list of
short options exercise it. A start that fails is a `StartFailure`, one constructor for each
place in `main.cpp` where it can.
-/

namespace Daichod

/-- A C string. -/
abbrev CString := List UInt8

/-- The bytes of a string literal. -/
def cstr (s : String) : CString := Json.utf8 s.toList

/-- `Options`. -/
structure Options where
  bookUri : CString := []
  socketPath : CString := []
  journalPath : CString := []
  backupDir : CString := []
  backupKeepDays : ℤ := 14
  readOnly : Bool := false
  queueDepth : ℕ := 256
  deriving Repr, DecidableEq

namespace Options

/-- `kPrefix`. -/
def kPrefix : CString := cstr "sqlite3://"

/-- `Options::book_path`. -/
def bookPath (options : Options) : CString :=
  if kPrefix.isPrefixOf options.bookUri then options.bookUri.drop kPrefix.length else []

end Options

/-! ### How a start can fail -/

/-- A start-up failure, where it happened and what it has to say. -/
inductive StartFailure
  /-- `Fail("usage", …)` on an option that `getopt_long` does not take. -/
  | badOption (message : CString)
  /-- `Fail("usage", …)` behind the loop of `ParseOptions`. -/
  | usage (message : CString)
  /-- `std::stoi` or `std::stoul` threw. -/
  | badNumber (what : CString)
  /-- `open` of a lock file failed. -/
  | lockOpen (lockPath : CString)
  /-- Another process holds a lock. -/
  | contended (failReason lockPath : CString)
  | pidFileOpen (pidPath : CString)
  /-- `SnapshotBeforeOpen` threw. -/
  | backup (what : CString)
  /-- `Journal::Open` threw. -/
  | journalOpen (what : CString)
  /-- `Session::Open` threw. -/
  | bookOpen (what : CString)
  /-- `Session::RunStartupChecks` threw. -/
  | startupCheck (what : CString)
  /-- `ReconcilePendingMutations` threw. -/
  | reconciliation (what : CString)
  /-- `Journal::ListIndeterminate` threw. -/
  | listing (what : CString)
  /-- `BuildAndStart` returned nothing. -/
  | listen (socketPath : CString)
  deriving Repr, DecidableEq

/-- The outcome of `ParseOptions`. -/
inductive Parsed
  | options (options : Options)
  /-- `--version` prints and exits with 0. -/
  | version
  | failed (failure : StartFailure)
  deriving Repr, DecidableEq

/-! ### Numbers -/

/-- `isspace` in the C locale. -/
def isSpace (b : UInt8) : Bool := b == 0x20 || (0x09 ≤ b && b ≤ 0x0D)

/-- `isdigit`. -/
def isDigit (b : UInt8) : Bool := 0x30 ≤ b && b ≤ 0x39

/-- The sign and the magnitude `strtol` reads off the front of a string, if it finds a
number there. -/
def strtol (s : CString) : Option (Bool × ℕ) :=
  let s := s.dropWhile isSpace
  let negative := s.head? == some 0x2D
  let s := if s.head? = some 0x2D ∨ s.head? = some 0x2B then s.tail else s
  let digits := s.takeWhile isDigit
  if digits = [] then none
  else some (negative, digits.foldl (fun n d => n * 10 + (d.toNat - 0x30)) 0)

/-- `std::stoi`; `none` where it throws. -/
def stoi (s : CString) : Option ℤ := do
  let (negative, magnitude) ← strtol s
  let value : ℤ := if negative then -magnitude else magnitude
  if -2 ^ 31 ≤ value ∧ value < 2 ^ 31 then some value else none

/-- `std::stoul`; `none` where it throws. A minus sign wraps around. -/
def stoul (s : CString) : Option ℕ := do
  let (negative, magnitude) ← strtol s
  if magnitude < 2 ^ 64 then some (if negative then (2 ^ 64 - magnitude) % 2 ^ 64 else magnitude)
  else none

/-- A number in decimal, as `%zu` prints it. -/
def decimal (n : ℕ) : CString :=
  if n < 10 then [0x30 + n.toUInt8] else decimal (n / 10) ++ [0x30 + (n % 10).toUInt8]

/-! ### Options on the command line -/

/-- The values of `kLongOptions`. -/
inductive LongOption
  | bookUri
  | socket
  | journal
  | backupDir
  | backupKeepDays
  | readOnly
  | queueDepth
  | version
  deriving Repr, DecidableEq

/-- `kLongOptions`: the name, and whether an argument is required. -/
def kLongOptions : List (CString × Bool × LongOption) :=
  [(cstr "book-uri", true, .bookUri), (cstr "socket", true, .socket),
    (cstr "journal", true, .journal), (cstr "backup-dir", true, .backupDir),
    (cstr "backup-keep-days", true, .backupKeepDays), (cstr "read-only", false, .readOnly),
    (cstr "queue-depth", true, .queueDepth), (cstr "version", false, .version)]

/-- The option of a name, which may be cut short as long as it is not ambiguous. -/
def findLongOption (name : CString) : Option (Bool × LongOption) :=
  match kLongOptions.find? (·.1 = name) with
  | some entry => some entry.2
  | none =>
    match kLongOptions.filter fun entry => name.isPrefixOf entry.1 with
    | [entry] => some entry.2
    | _ => none

/-- The results of calling `getopt_long` again and again: an option with its argument, or
`none` for `'?'`. -/
def getoptLong : List CString → List (Option (LongOption × CString))
  | [] => []
  | arg :: args =>
    if arg = cstr "--" then []
    else if (cstr "--").isPrefixOf arg then
      let name := (arg.drop 2).takeWhile (· ≠ 0x3D)
      let value := (arg.drop 2).dropWhile (· ≠ 0x3D)
      match findLongOption name with
      | none => none :: getoptLong args
      | some (false, longOption) =>
        (if value = [] then some (longOption, []) else none) :: getoptLong args
      | some (true, longOption) =>
        if value ≠ [] then some (longOption, value.tail) :: getoptLong args
        else
          match args with
          | [] => [none]
          | optarg :: args => some (longOption, optarg) :: getoptLong args
    -- There are no short options; what is no option at all is passed over.
    else if arg.head? = some 0x2D ∧ arg ≠ cstr "-" then none :: getoptLong args
    else getoptLong args

/-- What is reported of any option that is not taken. -/
def synopsis : CString :=
  cstr "daichod --book-uri <sqlite3://...> --socket </abs/path.sock> " ++
    cstr "[--read-only] [--queue-depth N]"

/-- The loop of `ParseOptions`. -/
def parseLoop (options : Options) : List (Option (LongOption × CString)) → Parsed
  | [] => .options options
  | none :: _ => .failed (.badOption synopsis)
  | some (.bookUri, optarg) :: rest => parseLoop { options with bookUri := optarg } rest
  | some (.socket, optarg) :: rest => parseLoop { options with socketPath := optarg } rest
  | some (.journal, optarg) :: rest => parseLoop { options with journalPath := optarg } rest
  | some (.backupDir, optarg) :: rest => parseLoop { options with backupDir := optarg } rest
  | some (.backupKeepDays, optarg) :: rest =>
    match stoi optarg with
    | some n => parseLoop { options with backupKeepDays := n } rest
    | none => .failed (.badNumber (cstr "stoi"))
  | some (.readOnly, _) :: rest => parseLoop { options with readOnly := true } rest
  | some (.queueDepth, optarg) :: rest =>
    match stoul optarg with
    | some n => parseLoop { options with queueDepth := n } rest
    | none => .failed (.badNumber (cstr "stoul"))
  | some (.version, _) :: _ => .version

/-- `ParseOptions`, from the end of its loop. -/
def checkOptions (options : Options) : Parsed :=
  if options.bookUri = [] ∨ options.socketPath = [] then
    .failed (.usage (cstr "--book-uri and --socket are required"))
  else if options.socketPath.head? ≠ some 0x2F then
    .failed (.usage (cstr "--socket must be an absolute path"))
  else if options.journalPath = [] ∧ options.bookPath = [] then
    .failed (.usage (cstr "--journal is required for non-sqlite3 books"))
  else if options.backupDir ≠ [] ∧ options.bookPath = [] then
    .failed (.usage (cstr
      "--backup-dir requires a sqlite3 book; database backups are a deployment concern"))
  else if options.journalPath = [] then
    .options { options with journalPath := options.bookPath ++ cstr ".daichod-journal" }
  else .options options

/-- `ParseOptions`, on the arguments behind the program's name. -/
def parseOptions (args : List CString) : Parsed :=
  match parseLoop {} (getoptLong args) with
  | .options options => checkOptions options
  | parsed => parsed

end Daichod
