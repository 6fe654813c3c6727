import Daichod.Engine.Days
import Daichod.Engine.Session
import Daichod.Library.KeyedSums
import Mathlib.Data.Prod.Lex
import Mathlib.Data.String.Basic

/-!
# Daichod.Rpc.BalanceService

The balance service of `rpc/commodity_service.cpp`. A balance is the engine's, from the splits
that are posted by the end of a day (`Balances`); the trial balance is summed up by the handler
itself, in the order in which the engine's query lists the splits.
-/

namespace Daichod

/-! ### Messages -/

namespace Shim

/-- `GetBalanceRequest`. -/
structure GetBalanceRequest where
  accountGuid : String
  asOf : Option Date
  includeChildren : Bool
  convertTo : Option CommodityId
  deriving Repr, DecidableEq

/-- `Balance`. -/
structure Balance where
  amount : Numeric
  commodity : CommodityId
  asOf : Date
  deriving Repr, DecidableEq

/-- `TrialBalance.Entry`. -/
structure TrialBalanceEntry where
  currency : CommodityId
  sum : Numeric
  deriving Repr, DecidableEq

/-- `TrialBalance`. -/
structure TrialBalance where
  entries : List TrialBalanceEntry
  deriving Repr, DecidableEq

end Shim

/-! ### Balances of accounts -/

section Balance

variable [Engine] [DayTimes]

/-- The time a transaction is posted at: the neutral time of its post date. -/
def Transaction.posted (transaction : Transaction) : Int64 :=
  transaction.postDate.elim 0 Engine.dmy2time64Neutral

/-- The splits of an account posted at or before a time. -/
def Book.splitsUntil (b : Book) (time : Int64) (account : Guid) : Multiset Split :=
  ((b.transactions.filter fun t => t.2.posted ≤ time).bind fun t =>
    (t.2.splits : Multiset Split)).filter (·.account = account)

/-- The engine's balances. -/
class Balances where
  /-- The balance of an account in a commodity, with or without the accounts below it, from
  the splits that count in each account. -/
  balance : Book → Guid → CommodityName → Bool → (Guid → Multiset Split) → GncNumeric

/-- `xaccAccountGetBalanceAsOfDateInCurrency`. -/
def xaccAccountGetBalanceAsOfDateInCurrency [Balances] (book : Book) (account : Guid)
    (time : Int64) (target : CommodityName) (includeChildren : Bool) : GncNumeric :=
  Balances.balance book account target includeChildren (book.splitsUntil time)

/-- "Latest" means all recorded activity, future-dated included. -/
def latest : GDate := ⟨31, 12, 9999⟩

/-- The day of a balance. -/
def balanceDay (asOf : Option Shim.Date) : Except ShimError GDate :=
  match asOf with
  | some date => dateFromProto date "as_of"
  | none => .ok latest

/-- The commodity of a balance. -/
def balanceTarget (book : Book) (account : Guid) (request : Shim.GetBalanceRequest) :
    Except ShimError CommodityName :=
  match request.convertTo with
  | some id => do return (← findCommodity book id "convert_to").name
  | none =>
    match (book.account account).bind Account.commodity with
    | some name => .ok name
    | none => .error ⟨.invalidArgument, "account has no commodity and convert_to is unset",
        request.accountGuid⟩

/-- `GetBalance`. -/
def getBalance [Wire] [Balances] (request : Shim.GetBalanceRequest) : Exec Shim.Balance := do
  let book ← Session.book
  let account ← liftValid (findAccount book request.accountGuid "account_guid")
  let asOf ← liftValid (balanceDay request.asOf)
  let time := DayTimes.dmy2time64End asOf
  let target ← liftValid (balanceTarget book account request)
  let balance :=
    xaccAccountGetBalanceAsOfDateInCurrency book account time target request.includeChildren
  return { amount := numericToProto balance
           commodity := commodityIdToProto target
           asOf := request.asOf.getD (dateToProto asOf) }

/-- What `GetBalance` answers. -/
theorem getBalance_iff [Wire] [Balances] {request : Shim.GetBalanceRequest} {w w' : World}
    {response : Shim.Balance} :
    getBalance request w = .ok response w' ↔ w.session.isSome = true ∧
      ∃ account, findAccount w.book request.accountGuid "account_guid" = .ok account ∧
      ∃ asOf, balanceDay request.asOf = .ok asOf ∧
      ∃ target, balanceTarget w.book account request = .ok target ∧
      { amount := numericToProto (xaccAccountGetBalanceAsOfDateInCurrency w.book account
          (DayTimes.dmy2time64End asOf) target request.includeChildren)
        commodity := commodityIdToProto target
        asOf := request.asOf.getD (dateToProto asOf) } = response ∧ w = w' := by
  simp only [getBalance, Session.run_book_bind_iff, run_liftValid_bind_iff]
  simp

end Balance

/-! ### The trial balance -/

/-- The key of a currency in the map of sums. -/
def trialKey (currency : CommodityName) : String ×ₗ String :=
  toLex (currency.space, currency.mnemonic)

/-- The sums over a listing, one per currency. -/
def trialSums (listing : Session.SplitListing) : List ((String ×ₗ String) × GncNumeric) :=
  listing.foldl (fun sums entry =>
    match entry.1.2.currency with
    | none => sums
    | some currency =>
      KeyedSums.add gncNumericAdd gncNumericZero (trialKey currency) entry.2.value sums) []

/-- One entry of the response. -/
def trialBalanceEntry (entry : (String ×ₗ String) × GncNumeric) : Shim.TrialBalanceEntry where
  currency := ⟨(ofLex entry.1).1, (ofLex entry.1).2⟩
  sum := numericToProto entry.2

/-- `GetTrialBalance`; `listing` is what the engine's query lists. -/
def getTrialBalance [Wire] (listing : Session.SplitListing) : Exec Shim.TrialBalance := do
  let _ ← Session.book
  return { entries := (trialSums listing).map trialBalanceEntry }

/-- What `GetTrialBalance` answers. -/
theorem getTrialBalance_iff [Wire] {listing : Session.SplitListing} {w w' : World}
    {response : Shim.TrialBalance} :
    getTrialBalance listing w = .ok response w' ↔ w.session.isSome = true ∧
      { entries := (trialSums listing).map trialBalanceEntry } = response ∧ w = w' := by
  simp only [getTrialBalance, Session.run_book_bind_iff]
  simp

end Daichod
