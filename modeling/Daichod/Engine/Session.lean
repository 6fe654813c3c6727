import Daichod.Engine.Edit

/-!
# Daichod.Engine.Session

`engine/session.cpp`: opening, closing and gating the one book.

A loaded session's memory is what the database holds, in the order in which the engine lists
it (`World.load`); a close saves the whole memory, edits in progress included, unless the
daemon is read-only. The engine's answers while opening and saving are an `OpenFate` and a
`CloseFate`; the order of the splits it loads is one of the answers, since the shim says
nothing about it and the database does not keep it.

`RunStartupChecks` walks the splits in the order the engine's query lists them, so it takes
that order as an argument (`SplitListing`); a listing of a book is any order of all its
splits (`Lists`).
-/

namespace Daichod

variable [Wire]

/-! ### Backend errors -/

/-- The value of the `QofBackendError`. -/
def BackendError.toNat : BackendError → ℕ
  | .locked => 7
  | .readOnly => 9
  | .perm => 14
  | .other code => code

/-- `BackendError`: classify a backend error, keeping the engine's own text. -/
def SessionError.toShimError (e : SessionError) (uri : String) : ShimError :=
  let message := if e.message.isEmpty then "backend error " ++ toString e.error.toNat else e.message
  match e.error with
  | .locked => ⟨.bookLocked, message, uri⟩
  | .readOnly | .perm => ⟨.readOnlyBook, message, uri⟩
  | .other _ => ⟨.engineError, message, uri⟩

/-! ### Open and close -/

/-- The engine's answers to `Session::Open`. -/
structure OpenFate where
  beginError : Option SessionError
  /-- `GncLockIsProvablyStale`. -/
  lockIsProvablyStale : Bool
  breakLockError : Option SessionError
  loadError : Option SessionError
  /-- The order in which `qof_session_load` lists the splits of the transactions. -/
  loadOrder : LoadOrder

/-- The engine's answer to the save in `Session::Close`. -/
structure CloseFate where
  saveError : Option SessionError

/-- Does `uri` start with the given scheme? -/
def hasScheme (uri scheme : String) : Bool := scheme.toList.isPrefixOf uri.toList

/-- `HasSupportedScheme`. -/
def hasSupportedScheme (uri : String) : Bool :=
  hasScheme uri "sqlite3://" || hasScheme uri "postgres://"

namespace Session

/-- The error that opening ends `qof_session_begin` with, after breaking the lock where
that is allowed. -/
def beginError (fate : OpenFate) (config : Config) : Option SessionError :=
  match fate.beginError with
  | some e =>
    if e.error = .locked ∧ config.readOnly = false ∧
        (hasScheme config.bookUri "sqlite3://" = false ∨ fate.lockIsProvablyStale = true) then
      fate.breakLockError
    else some e
  | none => none

/-- The engine opens and loads the book. -/
def Opens (fate : OpenFate) (config : Config) : Prop :=
  hasSupportedScheme config.bookUri = true ∧ beginError fate config = none ∧ fate.loadError = none

/-- `Session::Open`. -/
def «open» (fate : OpenFate) : Exec Unit := do
  let w ← get
  if w.session.isSome then return
  unless hasSupportedScheme w.config.bookUri do
    throwShim .invalidArgument
      "unsupported book URI scheme; only sqlite3:// and postgres:// books are crash-safe"
      w.config.bookUri
  if let some e := beginError fate w.config then
    throw (.shim (e.toShimError w.config.bookUri))
  if let some e := fate.loadError then
    throw (.shim (e.toShimError w.config.bookUri))
  modify fun w =>
    { w.load fate.loadOrder with
      session := some { error := none, checked := false, reconciled := false } }

/-- `Session::Close`: the teardown completes before a failed save is reported. -/
def close (fate : CloseFate) : Exec Unit := do
  let w ← get
  if w.session.isNone then return
  let saveError := if w.config.readOnly then none else fate.saveError
  if !w.config.readOnly && fate.saveError.isNone then onStore EditStore.save
  modify fun w => { w with session := none }
  if let some e := saveError then
    throw (.shim (e.toShimError w.config.bookUri))

/-- `Session::book`. -/
def book : Exec Book := do
  let w ← get
  if w.session.isNone then throwShim .bookNotOpen "no book is open" ""
  return w.book

/-- `Session::root_account`. -/
def rootAccount : Exec Guid := do return (← book).rootAccount

@[simp] theorem run_book (w : World) :
    book w = if w.session.isNone then .error (.shim ⟨.bookNotOpen, "no book is open", ""⟩) w
      else .ok w.book w := by
  unfold book
  rw [run_bind, run_get]
  dsimp only
  split <;> rfl

/-- A handler that asks for the book first, and returns. -/
theorem run_book_bind_iff {α : Type} {f : Book → Exec α} {w w' : World} {a : α} :
    (book >>= f) w = .ok a w' ↔ w.session.isSome = true ∧ f w.book w = .ok a w' := by
  rw [run_bind, run_book]
  cases hs : w.session with
  | none => simp
  | some s => simp

/-- What opening a book without a session throws. -/
def openError (fate : OpenFate) (config : Config) : Option ShimError :=
  if hasSupportedScheme config.bookUri then
    match beginError fate config with
    | some e => some (e.toShimError config.bookUri)
    | none => fate.loadError.map (·.toShimError config.bookUri)
  else some ⟨.invalidArgument,
    "unsupported book URI scheme; only sqlite3:// and postgres:// books are crash-safe",
    config.bookUri⟩

/-- What closing an open session throws. -/
def closeError (fate : CloseFate) (config : Config) : Option ShimError :=
  if config.readOnly then none else fate.saveError.map (·.toShimError config.bookUri)

omit [Wire] in
theorem openError_eq_none_iff {fate : OpenFate} {config : Config} :
    openError fate config = none ↔ Opens fate config := by
  simp only [openError, Opens]
  by_cases hscheme : hasSupportedScheme config.bookUri = true
  · cases beginError fate config <;> simp [hscheme]
  · simp [hscheme]

omit [Wire] in
theorem closeError_eq_none_iff {fate : CloseFate} {config : Config} :
    closeError fate config = none ↔ config.readOnly = true ∨ fate.saveError = none := by
  simp only [closeError]
  cases config.readOnly <;> simp

/-- `Session::Open`, on a world without a session and with one. -/
theorem run_open (fate : OpenFate) (w : World) :
    «open» fate w =
      if w.session.isSome then .ok () w
      else match openError fate w.config with
        | some e => .error (.shim e) w
        | none => .ok () { w.load fate.loadOrder with
            session := some { error := none, checked := false, reconciled := false } } := by
  simp only [«open», openError, run_bind, run_get]
  cases w.session with
  | some s => rfl
  | none =>
    simp only [Option.isSome_none, Bool.false_eq_true, if_false]
    cases hasSupportedScheme w.config.bookUri with
    | false => rfl
    | true =>
      simp only [if_true]
      cases beginError fate w.config with
      | some e => rfl
      | none =>
        cases fate.loadError with
        | some e => rfl
        | none => rfl

/-- `Session::Close`. -/
theorem run_close (fate : CloseFate) (w : World) :
    close fate w =
      if w.session.isNone then .ok () w
      else match closeError fate w.config with
        | some e => .error (.shim e) { w with session := none }
        | none => .ok () { (if w.config.readOnly then w else w.onStore EditStore.save) with
            session := none } := by
  simp only [close, closeError, run_bind, run_get]
  cases w.session with
  | none => rfl
  | some s =>
    simp only [Option.isNone_some, Bool.false_eq_true, if_false]
    cases hreadOnly : w.config.readOnly with
    | true => rfl
    | false =>
      cases fate.saveError with
      | some e => rfl
      | none => rfl

/-- What `Session::Open` does: nothing on an open session, and otherwise it either throws
and leaves all as it was or starts a session on what the database holds. -/
theorem open_cases (fate : OpenFate) (w : World) :
    (w.session.isSome = true ∧ «open» fate w = .ok () w) ∨
    (w.session = none ∧ ¬Opens fate w.config ∧ (∃ e, «open» fate w = .error (.shim e) w)) ∨
    (w.session = none ∧ Opens fate w.config ∧
      «open» fate w = .ok () { w.load fate.loadOrder with
        session := some { error := none, checked := false, reconciled := false } }) := by
  rw [run_open, ← openError_eq_none_iff]
  cases w.session with
  | some s => exact Or.inl ⟨rfl, rfl⟩
  | none =>
    right
    cases openError fate w.config with
    | some e => exact Or.inl ⟨rfl, by simp, e, rfl⟩
    | none => exact Or.inr ⟨rfl, rfl, rfl⟩

/-- What `Session::Close` does: nothing without a session, and otherwise the session is
gone whether or not the save succeeded. -/
theorem close_cases (fate : CloseFate) (w : World) :
    (w.session = none ∧ close fate w = .ok () w) ∨
    (w.session.isSome = true ∧ (w.config.readOnly = true ∨ fate.saveError ≠ none) ∧
      worldAfter (close fate w) = { w with session := none }) ∨
    (w.session.isSome = true ∧ w.config.readOnly = false ∧ fate.saveError = none ∧
      close fate w = .ok () { w.onStore EditStore.save with session := none }) := by
  rw [run_close, closeError]
  cases hs : w.session with
  | none => exact Or.inl ⟨rfl, rfl⟩
  | some s =>
    right
    cases hr : w.config.readOnly with
    | true => exact Or.inl ⟨rfl, Or.inl rfl, rfl⟩
    | false =>
      cases hf : fate.saveError with
      | some e => exact Or.inl ⟨rfl, Or.inr (by simp), rfl⟩
      | none => exact Or.inr ⟨rfl, rfl, rfl, rfl⟩

/-! ### Startup checks -/

/-- The splits the engine's query lists, each with its transaction. -/
abbrev SplitListing := List ((Guid × Transaction) × Split)

/-- `listing` lists every split of the book once, in some order. -/
def Lists (listing : SplitListing) (b : Book) : Prop :=
  (listing : Multiset ((Guid × Transaction) × Split)) =
    b.transactions.bind fun t => (t.2.splits : Multiset Split).map (t, ·)

omit [Wire] in
/-- What is listed is in the book. -/
theorem mem_of_lists {listing : SplitListing} {b : Book} (h : Lists listing b)
    {entry : (Guid × Transaction) × Split} (hentry : entry ∈ listing) :
    b.transaction entry.1.1 = some entry.1.2 ∧ entry.2 ∈ entry.1.2.splits := by
  have hmem : entry ∈ b.transactions.bind fun t => (t.2.splits : Multiset Split).map (t, ·) :=
    h ▸ Multiset.mem_coe.mpr hentry
  obtain ⟨⟨g, t⟩, ht, hsplit⟩ := Multiset.mem_bind.mp hmem
  obtain ⟨s, hs, rfl⟩ := Multiset.mem_map.mp hsplit
  exact ⟨Book.mem_transactions.mp ht, hs⟩

/-- `xaccTransGetImbalanceValue`. -/
def xaccTransGetImbalanceValue (transaction : Transaction) : GncNumeric :=
  transaction.liveSplits.foldl (fun imbalance split => gncNumericAdd imbalance split.value)
    gncNumericZero

/-- The key under which a currency's splits are summed. -/
def currencyKey (currency : CommodityName) : String := currency.space ++ ":" ++ currency.mnemonic

/-- Add `value` to the sum under `key`, which starts at zero; the sums are sorted by key. -/
def addToSum (key : String) (value : GncNumeric) :
    List (String × GncNumeric) → List (String × GncNumeric)
  | [] => [(key, gncNumericAdd gncNumericZero value)]
  | (k, sum) :: rest =>
    if key = k then (k, gncNumericAdd sum value) :: rest
    else if key < k then (key, gncNumericAdd gncNumericZero value) :: (k, sum) :: rest
    else (k, sum) :: addToSum key value rest

/-- The running sums over a listing, one per currency. -/
def currencySums (listing : SplitListing) : List (String × GncNumeric) :=
  listing.foldl (fun sums entry =>
    match entry.1.2.currency with
    | none => sums
    | some currency => addToSum (currencyKey currency) entry.2.value sums) []

/-- The verdict of `RunStartupChecks` on a listing. -/
def startupChecks [Engine] (listing : SplitListing) : Except ShimError Unit :=
  match listing.find? fun entry => !(xaccTransGetImbalanceValue entry.1.2).zeroP with
  | some entry => .error ⟨.engineError, "startup check failed: imbalanced transaction",
      Engine.guidToString entry.1.1⟩
  | none =>
    match (currencySums listing).find? fun entry => !entry.2.zeroP with
    | some entry => .error ⟨.engineError, "startup check failed: trial balance is nonzero", entry.1⟩
    | none => .ok ()

/-- `Session::RunStartupChecks`. -/
def runStartupChecks [Engine] (listing : SplitListing) : Exec Unit := do
  let _ ← book
  liftValid (startupChecks listing)
  modify fun w => { w with session := w.session.map ({ · with checked := true }) }

end Session

end Daichod
