import Daichod.Engine.Session
import Daichod.Rpc.Mutation

/-!
# Daichod.Rpc.AccountService

The four mutating handlers of `rpc/account_service.cpp`, with the two checks that keep the
account tree a tree.
-/

namespace Daichod

variable [Wire] [Engine]

/-- Does the walk from `cursor` up the parents meet `account`? `none` when `fuel` parents do
not end it. -/
def walkMeets (book : Book) (account : Guid) : ℕ → Option Guid → Option Bool
  | _, none => some false
  | 0, some _ => none
  | fuel + 1, some cursor =>
    if cursor = account then some true
    else walkMeets book account fuel ((book.account cursor).bind Account.parent)

/-- `CheckNoCycle`. A walk longer than there are accounts goes round for ever: the call then
answers nothing, and only a kill ends it. -/
def checkNoCycle (book : Book) (account newParent : Guid) (context : String) : Exec Unit :=
  match walkMeets book account (book.accounts.card + 1) (some newParent) with
  | some true => throwShim .invalidArgument "parent_guid would create a cycle" context
  | some false => pure ()
  | none => throw .killed

/-- `CheckIsNotRoot`. -/
def checkIsNotRoot (account root : Guid) (context : String) : Except ShimError Unit :=
  if account = root then .error ⟨.invalidArgument, "the root account cannot be modified", context⟩
  else .ok ()

/-- `FindCommodity` on a field that reads as the empty message when it is unset. -/
def findCommodityField (book : Book) (id : Option Shim.CommodityId) (context : String) :
    Except ShimError Commodity :=
  findCommodity book (id.getD ⟨"", ""⟩) context

/-- The account behind a handle. -/
def derefAccount (guid : Guid) : Exec Account := do
  return ((← get).book.account guid).getD .blank

/-- `ListAccounts`; `descendants` is what `gnc_account_get_descendants_sorted` lists. -/
def listAccounts (descendants : List Guid) : Exec Shim.AccountList := do
  let root ← Session.rootAccount
  let accounts ← (root :: descendants).mapM fun account => do
    return accountToProto account (← derefAccount account)
  return { accounts }

/-- `GetAccount`. -/
def getAccount (guid : String) : Exec Shim.Account := do
  let book ← Session.book
  let account ← liftValid (findAccount book guid "guid")
  return accountToProto account (← derefAccount account)

/-- `CreateAccount`. -/
def createAccount (request : Shim.CreateAccountRequest) (fate : Fate)
    (recordPending : PendingRecorder Shim.Account) : Exec Shim.Account := do
  let spec := request.account
  unless spec.guid.isEmpty do
    throwShim .invalidArgument "guid must be empty on create; the engine assigns" "account.guid"
  if spec.name.isEmpty then throwShim .invalidArgument "name is required" "account.name"
  if (spec.parentGuid.getD "").isEmpty then
    throwShim .invalidArgument "parent_guid is required" "account.parent_guid"
  let book ← Session.book
  let parent ← liftValid (findAccount book (spec.parentGuid.getD "") "account.parent_guid")
  let type ← liftValid (accountTypeFromProto spec.type "account.type")
  let commodity ← liftValid (findCommodityField book spec.commodity "account.commodity")
  let account := fate.newGuid 0
  onStore (.write (·.insert (.account account) Account.blank))
  onStore (.beginEdit (.account account))
  onStore (.write (editAccount account fun a => a |>.setName spec.name |>.setType type))
  onStore (xaccAccountSetCommodity account commodity)
  onStore (.write (editAccount account fun a =>
    a |>.setCode spec.code
      |>.setDescription spec.description
      |>.setPlaceholder spec.placeholder
      |>.setHidden spec.hidden
      |>.setParent parent))
  let out := accountToProto account (← derefAccount account)
  recordPending out
  finishEdit fate (.account account)
  return out

/-- `UpdateAccount`. -/
def updateAccount (request : Shim.UpdateAccountRequest) (fate : Fate)
    (recordPending : PendingRecorder Shim.Account) : Exec Shim.Account := do
  let spec := request.account
  if spec.guid.isEmpty then
    throwShim .invalidArgument "guid is required on update" "account.guid"
  if spec.name.isEmpty then throwShim .invalidArgument "name is required" "account.name"
  let book ← Session.book
  let account ← liftValid (findAccount book spec.guid "account.guid")
  liftValid (checkIsNotRoot account (← Session.rootAccount) "account.guid")
  let newType ← liftValid (accountTypeFromProto spec.type "account.type")
  let commodity ← liftValid (findCommodityField book spec.commodity "account.commodity")
  if (spec.parentGuid.getD "").isEmpty then
    throwShim .invalidArgument "parent_guid is required (full replacement)" "account.parent_guid"
  let newParent ← liftValid (findAccount book (spec.parentGuid.getD "") "account.parent_guid")
  checkNoCycle book account newParent "account.parent_guid"
  -- Full replacement inside one engine edit; setting the parent it has already is no change.
  onStore (.beginEdit (.account account))
  onStore (.write (editAccount account fun a => a |>.setName spec.name |>.setType newType))
  onStore (xaccAccountSetCommodity account commodity)
  onStore (.write (editAccount account fun a =>
    a |>.setCode spec.code
      |>.setDescription spec.description
      |>.setPlaceholder spec.placeholder
      |>.setHidden spec.hidden
      |>.setParent newParent))
  let out := accountToProto account (← derefAccount account)
  recordPending out
  finishEdit fate (.account account)
  return out

/-- `DeleteAccount`; `xaccAccountDestroy` marks the account and commits the edit itself. -/
def deleteAccount (request : Shim.DeleteAccountRequest) (fate : Fate)
    (recordPending : PendingRecorder Unit) : Exec Unit := do
  let book ← Session.book
  let account ← liftValid (findAccount book request.guid "guid")
  liftValid (checkIsNotRoot account (← Session.rootAccount) "guid")
  if book.accountSplits account ≠ 0 ∨ book.hasChildren account then
    throwShim .accountNotEmpty "account has splits or children" request.guid
  recordPending ()
  onStore (.beginEdit (.account account))
  onStore (.write (editAccount account ({ · with destroying := true })))
  finishEdit fate (.account account)

/-- `GetReconcileInfo`. -/
def getReconcileInfo (guid : String) : Exec Shim.ReconcileInfo := do
  let book ← Session.book
  let account ← liftValid (findAccount book guid "guid")
  return reconcileInfoToProto book account (← derefAccount account)

/-- What `GetReconcileInfo` answers. -/
theorem getReconcileInfo_iff {guid : String} {w w' : World} {response : Shim.ReconcileInfo} :
    getReconcileInfo guid w = .ok response w' ↔ w.session.isSome = true ∧ ∃ account,
      findAccount w.book guid "guid" = .ok account ∧ reconcileInfoToProto w.book account
        ((w.book.account account).getD .blank) = response ∧ w = w' := by
  simp only [getReconcileInfo, Session.run_book_bind_iff, run_liftValid_bind_iff]
  refine and_congr_right fun _ => exists_congr fun account => and_congr_right fun _ => ?_
  show EStateM.Result.ok (reconcileInfoToProto w.book account
    ((w.book.account account).getD .blank)) w = .ok response w' ↔ _
  simp

/-- `SetReconcileInfo`. -/
def setReconcileInfo (request : Shim.SetReconcileInfoRequest) (fate : Fate)
    (recordPending : PendingRecorder Shim.ReconcileInfo) : Exec Shim.ReconcileInfo := do
  let book ← Session.book
  let account ← liftValid (findAccount book request.accountGuid "account_guid")
  match request.lastDate with
  | none => throwShim .invalidArgument "last_date is required" "last_date"
  | some lastDate =>
    let date ← liftValid (dateFromProto lastDate "last_date")
    onStore (.beginEdit (.account account))
    onStore (.write (editAccount account (Account.setReconcileLastDate date)))
    let out := reconcileInfoToProto (← get).book account (← derefAccount account)
    recordPending out
    finishEdit fate (.account account)
    return out

end Daichod
