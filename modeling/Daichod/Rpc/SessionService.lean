import Daichod.Daemon

/-!
# Daichod.Rpc.SessionService

The handlers of `rpc/session_service.cpp` that go through the engine queue: `OpenBook`,
`CloseBook` and `GetBookInfo`, which answer about the session, and
`ListIndeterminateMutations`, which answers from the journal whether a book is open or not.
-/

namespace Daichod

variable [Wire] [Engine]

/-- `daicho.shim.v1.BookInfo`. -/
structure BookInfo where
  rootAccountGuid : String
  backendUri : String
  engineVersion : String
  shimVersion : String
  readOnly : Bool
  deriving Repr, DecidableEq

/-- What the engine and the build say of themselves and of the open book. -/
structure EngineInfo where
  /-- `gnc_version`. -/
  gncVersion : String
  /-- `DAICHOD_VERSION`. -/
  daichodVersion : String
  /-- `qof_book_is_readonly`. -/
  bookIsReadonly : Bool

namespace SessionService

/-- `FillBookInfo`. -/
def fillBookInfo (info : EngineInfo) : Exec BookInfo := do
  let _ ← Session.book
  let rootAccount ← Session.rootAccount
  let w ← get
  return {
    rootAccountGuid := Engine.guidToString rootAccount
    backendUri := redactUri w.config.bookUri
    engineVersion := info.gncVersion
    shimVersion := info.daichodVersion
    readOnly := w.config.readOnly || info.bookIsReadonly }

/-- `OpenBook`. -/
def «openBook» (fate : OpenFate) (info : EngineInfo) : Exec BookInfo := do
  Session.«open» fate
  fillBookInfo info

/-- `CloseBook`. -/
def closeBook (fate : CloseFate) : Exec Unit := Session.close fate

/-- `GetBookInfo`. -/
def getBookInfo (info : EngineInfo) : Exec BookInfo := fillBookInfo info

/-- `IndeterminateMutations.Entry`. -/
structure IndeterminateEntry where
  mutationId : String
  rpcName : String
  payloadSha256 : Bytes
  journaledAtUtc : Int64

/-- `IndeterminateMutations`. -/
structure IndeterminateMutations where
  entries : List IndeterminateEntry

/-- One entry of the response. -/
def indeterminateEntry (row : Intent) : IndeterminateEntry where
  mutationId := row.mutationId
  rpcName := row.rpcName
  payloadSha256 := row.payloadSha256
  journaledAtUtc := row.journaledAtUtc

/-- `ListIndeterminateMutations`. -/
def listIndeterminateMutations (fault : Option SqliteError) : Exec IndeterminateMutations := do
  let rows ← Journal.indeterminate fault
  return { entries := rows.map indeterminateEntry }

/-- What `FillBookInfo` fills in, on a world whose session is open. -/
def bookInfo (info : EngineInfo) (w : World) : BookInfo where
  rootAccountGuid := Engine.guidToString w.rootAccount
  backendUri := redactUri w.config.bookUri
  engineVersion := info.gncVersion
  shimVersion := info.daichodVersion
  readOnly := w.config.readOnly || info.bookIsReadonly

theorem run_fillBookInfo (info : EngineInfo) (w : World) :
    fillBookInfo info w =
      if w.session.isNone then .error (.shim ⟨.bookNotOpen, "no book is open", ""⟩) w
      else .ok (bookInfo info w) w := by
  simp only [fillBookInfo, Session.rootAccount, run_bind, Session.run_book]
  cases hs : w.session with
  | none => simp
  | some s =>
    simp only [Option.isNone_some, Bool.false_eq_true, if_false, run_pure, run_get, hs]
    rfl

end SessionService

end Daichod
