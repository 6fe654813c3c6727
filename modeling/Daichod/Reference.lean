import Daichod.Daemon
import Daichod.Rpc.Results
import Mathlib.Data.List.TakeWhile

/-!
# Daichod.Reference

One concrete reading of the parameters of the model: an `Engine` that prints GUIDs as the
engine does, in 32 hexadecimal digits, and a `Wire` whose bytes are the messages
themselves. They show that what the model assumes of the two can be had, and every
statement about particular inputs is about them.
-/

namespace Daichod.Reference

/-! ### GUIDs in hexadecimal -/

/-- The lowest `width` hexadecimal digits of a number, lowest first. -/
def hexDigits : ℕ → ℕ → List Char
  | 0, _ => []
  | width + 1, n => Nat.digitChar (n % 16) :: hexDigits width (n / 16)

/-- The value of a hexadecimal digit. -/
def hexValue (c : Char) : Option ℕ :=
  if '0' ≤ c ∧ c ≤ '9' then some (c.toNat - '0'.toNat)
  else if 'a' ≤ c ∧ c ≤ 'f' then some (c.toNat - 'a'.toNat + 10)
  else if 'A' ≤ c ∧ c ≤ 'F' then some (c.toNat - 'A'.toNat + 10)
  else none

/-- The number with the given digits, lowest first. -/
def parseHex : List Char → Option ℕ
  | [] => some 0
  | c :: cs =>
    match hexValue c, parseHex cs with
    | some d, some n => some (d + 16 * n)
    | _, _ => none

/-- Digits enough for a number: 32 for what fits 128 bits. -/
def hexWidth (n : ℕ) : ℕ := if n < 16 ^ 32 then 32 else n

/-- `guid_to_string`, with more digits where a number does not fit 32 of them. -/
def guidToString (g : Guid) : String := String.ofList (hexDigits (hexWidth g) g).reverse

/-- `string_to_guid`. -/
def stringToGuid (text : String) : Option Guid :=
  if 32 ≤ text.toList.length then parseHex text.toList.reverse else none

/-- A hex digit is read as what was printed. -/
theorem hexValue_digitChar : ∀ d < 16, hexValue (Nat.digitChar d) = some d := by decide

/-- No digit is NUL. -/
theorem digitChar_ne_nul : ∀ d < 16, Nat.digitChar d ≠ '\x00' := by decide

/-- As many digits as asked for. -/
theorem length_hexDigits (width n : ℕ) : (hexDigits width n).length = width := by
  induction width generalizing n with
  | zero => rfl
  | succ width ih => simp [hexDigits, ih]

/-- **Digits are read back**, if there are enough of them. -/
theorem parseHex_hexDigits {width n : ℕ} (h : n < 16 ^ width) :
    parseHex (hexDigits width n) = some n := by
  induction width generalizing n with
  | zero =>
    have hn : n = 0 := by simpa using h
    rw [hn]
    rfl
  | succ width ih =>
    have hdiv : n / 16 < 16 ^ width := by
      rw [pow_succ] at h
      omega
    simp only [hexDigits, parseHex, hexValue_digitChar (n % 16) (by omega), ih hdiv,
      Option.some.injEq]
    omega

/-- There are enough of them. -/
theorem lt_pow_hexWidth (n : ℕ) : n < 16 ^ hexWidth n := by
  unfold hexWidth
  split
  · next h => exact h
  · exact Nat.lt_pow_self (by decide)

/-- There are never fewer than 32. -/
theorem le_hexWidth (n : ℕ) : 32 ≤ hexWidth n := by
  unfold hexWidth
  split
  · exact le_refl _
  · next h =>
    have : 32 ≤ 16 ^ 32 := by decide
    omega

/-- A printed GUID is read back. -/
theorem stringToGuid_guidToString (g : Guid) : stringToGuid (guidToString g) = some g := by
  have hlength : 32 ≤ (guidToString g).toList.length := by
    simp only [guidToString, String.toList_ofList, List.length_reverse, length_hexDigits]
    exact le_hexWidth g
  rw [stringToGuid, if_pos hlength, guidToString, String.toList_ofList, List.reverse_reverse]
  exact parseHex_hexDigits (lt_pow_hexWidth g)

/-- It is not empty. -/
theorem guidToString_ne_empty (g : Guid) : guidToString g ≠ "" := by
  intro hempty
  have hread := stringToGuid_guidToString g
  rw [hempty] at hread
  cases hread

/-- It has no NUL in it, -/
theorem ne_nul_of_mem_hexDigits {width n : ℕ} {c : Char} (h : c ∈ hexDigits width n) :
    c ≠ '\x00' := by
  induction width generalizing n with
  | zero => cases h
  | succ width ih =>
    rcases List.mem_cons.mp h with rfl | h
    · exact digitChar_ne_nul (n % 16) (by omega)
    · exact ih h

/-- so that as a C string it is whole. -/
theorem cStr_guidToString (g : Guid) : cStr (guidToString g) = guidToString g := by
  rw [cStr, guidToString, String.toList_ofList, List.takeWhile_eq_self_iff.mpr]
  intro c hc
  simpa using ne_nul_of_mem_hexDigits (List.mem_reverse.mp hc)

/-! ### Dates and prices -/

/-- Days from the epoch to a civil date. -/
def daysFromCivil (d : GDate) : ℤ :=
  let m : ℤ := d.month.toNat
  let y : ℤ := if m ≤ 2 then d.year.toNat - 1 else d.year.toNat
  let era := y / 400
  let yoe := y - era * 400
  let doy := (153 * (if 2 < m then m - 3 else m + 9) + 2) / 5 + d.day.toNat - 1
  era * 146097 + (yoe * 365 + yoe / 4 - yoe / 100 + doy) - 719468

/-- The civil date of a day counted from the epoch. -/
def civilFromDays (days : ℤ) : GDate :=
  let z := days + 719468
  let era := z / 146097
  let doe := z - era * 146097
  let yoe := (doe - doe / 1460 + doe / 36524 - doe / 146096) / 365
  let doy := doe - (365 * yoe + yoe / 4 - yoe / 100)
  let mp := (5 * doy + 2) / 153
  let m := if mp < 10 then mp + 3 else mp - 9
  { day := UInt8.ofNat (doy - (153 * mp + 2) / 5 + 1).toNat
    month := UInt32.ofNat m.toNat
    year := UInt16.ofNat (yoe + era * 400 + if m ≤ 2 then 1 else 0).toNat }

/-- The engine's "neutral" time of a day, 10:59:00 UTC. -/
def neutralTime : ℤ := 10 * 3600 + 59 * 60

/-- The source names the price database knows, in order of precedence. -/
def sourceNames : List String :=
  ["user:price-editor", "Finance::Quote", "user:price", "user:xfer-dialog",
    "user:split-register", "user:split-import", "user:stock-split", "user:stock-transaction",
    "user:invoice-post", "temporary"]

/-- The reconciled total of a list of splits. -/
def reconciledTotal (splits : Multiset Split) : ℚ :=
  ((splits.filter fun split => split.reconcile = 'y' ∨ split.reconcile = 'f').map fun split =>
    split.amount.toRat).sum

/-- An amount as the engine keeps it: an error value where it does not fit. -/
def fitted (amount : ℚ) : GncNumeric :=
  if FitsInt64 amount.num ∧ FitsInt64 amount.den then
    { num := Int64.ofInt amount.num, denom := Int64.ofInt amount.den }
  else gncErrorOverflow

/-- The reference engine. -/
@[reducible] def engine : Engine where
  guidToString := guidToString
  stringToGuid := stringToGuid
  stringToGuid_guidToString := stringToGuid_guidToString
  cStr_guidToString := cStr_guidToString
  mapNamespace space := if space = "ISO4217" then "CURRENCY" else space
  reconciledBalance splits := fitted (reconciledTotal splits)
  rerate _ _ split := split.value
  dmy2time64Neutral date := Int64.ofInt (daysFromCivil date * 86400 + neutralTime)
  time64ToGdate time := civilFromDays (time.toInt / 86400)
  priceSource source := if source ∈ sourceNames then source else "invalid"
  sourceRank source := sourceNames.idxOf source

/-! ### Messages as bytes -/

/-- A serialized message. The empty one is also the empty `google.protobuf.Empty`. -/
inductive Message
  | nothing
  | account (message : Shim.Account)
  | reconcileInfo (message : Shim.ReconcileInfo)
  | transaction (message : Shim.Transaction)
  | price (message : Shim.Price)
  | outcome (rpcName : String) (ok : Bool) (error : Option ErrorDetail)
  | outcomeWith (rpcName : String) (ok : Bool) (error : Option ErrorDetail) (response : Message)
  | request (mutation : Mutation)
  | digest (message : Message)
  deriving DecidableEq

/-- The codec of a kind of message that is a constructor of its own. -/
def codec {α : Type} (serialize : α → Message) (parse : Message → Option α)
    (h : ∀ a, parse (serialize a) = some a) : Codec Message α :=
  ⟨serialize, parse, h⟩

/-- An outcome as bytes. -/
def serializeOutcome (outcome : Outcome Message) : Message :=
  match outcome.response with
  | none => .outcome outcome.rpcName outcome.ok outcome.error
  | some response => .outcomeWith outcome.rpcName outcome.ok outcome.error response

/-- Bytes as an outcome. -/
def parseOutcome : Message → Option (Outcome Message)
  | .outcome rpcName ok error => some { rpcName, ok, response := none, error }
  | .outcomeWith rpcName ok error response => some { rpcName, ok, response := some response, error }
  | _ => none

/-- An outcome is read back. -/
theorem parseOutcome_serializeOutcome (outcome : Outcome Message) :
    parseOutcome (serializeOutcome outcome) = some outcome := by
  obtain ⟨rpcName, ok, response, error⟩ := outcome
  cases response <;> rfl

/-- The reference wire format. -/
@[reducible] def wire : Wire where
  Bytes := Message
  decEqBytes := inferInstance
  noBytes := .nothing
  sha256 := .digest
  account := codec .account (fun | .account a => some a | _ => none) fun _ => rfl
  reconcileInfo := codec .reconcileInfo (fun | .reconcileInfo a => some a | _ => none) fun _ => rfl
  transaction := codec .transaction (fun | .transaction a => some a | _ => none) fun _ => rfl
  price := codec .price (fun | .price a => some a | _ => none) fun _ => rfl
  empty := codec (fun _ => .nothing) (fun | .nothing => some () | _ => none) fun _ => rfl
  outcome := codec serializeOutcome parseOutcome parseOutcome_serializeOutcome
  createAccountRequest := codec (.request ∘ .createAccount)
    (fun | .request (.createAccount r) => some r | _ => none) fun _ => rfl
  updateAccountRequest := codec (.request ∘ .updateAccount)
    (fun | .request (.updateAccount r) => some r | _ => none) fun _ => rfl
  deleteAccountRequest := codec (.request ∘ .deleteAccount)
    (fun | .request (.deleteAccount r) => some r | _ => none) fun _ => rfl
  setReconcileInfoRequest := codec (.request ∘ .setReconcileInfo)
    (fun | .request (.setReconcileInfo r) => some r | _ => none) fun _ => rfl
  postTransactionRequest := codec (.request ∘ .postTransaction)
    (fun | .request (.postTransaction r) => some r | _ => none) fun _ => rfl
  updateTransactionRequest := codec (.request ∘ .updateTransaction)
    (fun | .request (.updateTransaction r) => some r | _ => none) fun _ => rfl
  deleteTransactionRequest := codec (.request ∘ .deleteTransaction)
    (fun | .request (.deleteTransaction r) => some r | _ => none) fun _ => rfl
  addPriceRequest := codec (.request ∘ .addPrice)
    (fun | .request (.addPrice r) => some r | _ => none) fun _ => rfl

/-! ### A small book -/

/-- US dollars, in cents. -/
def usd : Commodity := ⟨⟨"CURRENCY", "USD"⟩, 100, by decide⟩

/-- An account in `usd`. -/
def account (name : String) (type : GNCAccountType) (parent : Option Guid) : Account :=
  { Account.blank with name, type, commodity := some usd.name, parent }

/-- A root with two accounts below it. -/
def book : Book where
  rootAccount := 1
  commodities := [usd]
  entities :=
    ((∅ : Finmap Entity).insert (.account 1) (account "Root Account" .root none)
      |>.insert (.account 2) (account "Cash" .cash (some 1))
      |>.insert (.account 3) (account "Food" .expense (some 1)))

/-- Nothing of the book is being destroyed. -/
theorem book_atRest : AtRest book.entities := by
  have hempty : AtRest ∅ := fun ref e he => by
    rw [Finmap.lookup_empty] at he
    cases he
  have hblank : ∀ g name type parent,
      Entity.AtRest (.account g) (account name type parent) := fun _ _ _ _ => rfl
  exact ((hempty.insert (.account 1) (hblank _ _ _ _)).insert (.account 2)
    (hblank _ _ _ _)).insert (.account 3) (hblank _ _ _ _)

/-- GUIDs from 4 on are not in use. -/
theorem book_lookup_of_lt {g : ℕ} (h : 3 < g) :
    book.account g = none ∧ book.transaction g = none ∧ book.price g = none := by
  have h1 : g ≠ 1 := by omega
  have h2 : g ≠ 2 := by omega
  have h3 : g ≠ 3 := by omega
  refine ⟨?_, ?_, ?_⟩
  · simp [Book.account, book, Finmap.lookup_insert_of_ne, h1, h2, h3]
  · simp [Book.transaction, book, Finmap.lookup_insert_of_ne]
  · simp [Book.price, book, Finmap.lookup_insert_of_ne]

/-- A mutation id, told apart by its last digit. -/
def mutationId (digit : Char) : String :=
  String.ofList ("00000000-0000-4000-8000-00000000000".toList ++ [digit])

/-- A wire amount in cents. -/
def cents (amount : Int64) : Shim.Numeric := { num := amount, denom := 100 }

/-- A split of a request, for an account given by its number. -/
def split (account : Guid) (amount : Int64) : Shim.Split where
  guid := ""
  accountGuid := guidToString account
  value := cents amount
  quantity := cents amount
  memo := ""
  action := ""
  reconcileState := .notReconciled

/-- A transaction of a request. -/
def transaction (guid : String) (splits : List Shim.Split) : Shim.Transaction where
  guid := guid
  currency := some ⟨"CURRENCY", "USD"⟩
  postDate := some ⟨2024, 2, 29⟩
  enterTimeUtc := 0
  num := ""
  description := "Groceries"
  splits := splits

/-- Post `amount` cents of food, paid in cash. -/
def post (digit : Char) (amount : Int64) : Mutation :=
  .postTransaction ⟨⟨mutationId digit⟩, transaction "" [split 2 (-amount), split 3 amount]⟩

/-- Surroundings in which nothing fails; new GUIDs count up from `firstGuid`. -/
def calm (firstGuid : Guid) : Fate where
  now := 0
  gncTime := 0
  newGuid i := firstGuid + i
  recordIntentFault := none
  getOutcomeFault := none
  recordPendingFault := none
  recordOutcomeFault := none
  finalStep := .commits
  crashAt := none

/-- GUIDs from 4 on are not in use. -/
theorem calm_fresh {firstGuid : ℕ} (h : 3 < firstGuid) (crashAt : Option CrashPoint) :
    ({ calm firstGuid with crashAt := crashAt } : Fate).Fresh book :=
  fun i => book_lookup_of_lt (Nat.lt_add_right i h)

/-- It has no transactions. -/
theorem book_transaction (g : Guid) : book.transaction g = none := by
  simp [Book.transaction, book, Finmap.lookup_insert_of_ne]

/-- A book that opens without trouble. -/
def opens : OpenFate := ⟨none, false, none, none, .kept⟩

/-- A reconciliation that nothing disturbs. -/
def undisturbed : ReconcileFate := ⟨0, none, fun _ => none, none⟩

/-- No other process is in the way. -/
theorem undisturbed_undisturbed : undisturbed.Undisturbed := ⟨rfl, fun _ => rfl, rfl⟩

/-- A start on which nothing fails. -/
def starts (listing : Session.SplitListing) : StartFate where
  journalFault := none
  openFate := opens
  listing := listing
  reconcile := undisturbed
  listFault := none

/-- The daemon of the examples. -/
def config : Config := ⟨"sqlite3:///book.gnucash", false⟩

/-- A SQLite error. -/
def diskFull : SqliteError := ⟨"database or disk is full", "step"⟩

section Start

attribute [local instance] engine wire

/-- The daemon, started on the small book. -/
def started : Daemon := (Daemon.fresh config book).step (.start (starts []))

/-- A row of `intents` as `RecordPending` leaves it. -/
def pendingRow (m : Mutation) (time : Int64) (response : m.Response) : Intent where
  mutationId := m.mutationId
  rpcName := m.rpcName
  payload := m.payload
  payloadSha256 := Wire.sha256 m.payload
  journaledAtUtc := time
  pendingResponse := some (m.codec.serialize response)

/-- It serves. -/
theorem started_serving : started.serving = true := by decide +kernel

/-- It has loaded the small book. -/
theorem started_book : started.world.book = book := by decide +kernel

end Start

end Daichod.Reference
