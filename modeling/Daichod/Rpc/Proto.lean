import Daichod.Rpc.Error

/-!
# Daichod.Rpc.Proto

The messages of `proto/shim.proto` that the modelled code reads or writes. Integers keep
their wire widths. Only sub-messages and `parent_guid` carry presence, because those are
the fields whose absence some function tests (`has_currency`, `has_last_date`) or produces
(the root account has no parent). The two enums are open on the wire, so each keeps the
numbers its schema does not name.
-/

namespace Daichod.Shim

/-- `Numeric`, an exact rational. -/
structure Numeric where
  num : Int64
  denom : Int64
  deriving Repr, DecidableEq

/-- `Date`, a timezone-free calendar date. -/
structure Date where
  year : Int32
  month : Int32
  day : Int32
  deriving Repr, DecidableEq

/-- `CommodityId`. -/
structure CommodityId where
  space : String
  mnemonic : String
  deriving Repr, DecidableEq

/-- `AccountType`. -/
inductive AccountType
  | unspecified
  | asset
  | bank
  | cash
  | credit
  | liability
  | equity
  | income
  | expense
  | stock
  | mutual
  | receivable
  | payable
  | trading
  | root
  | unrecognized (value : Int32)
  deriving Repr, DecidableEq

/-- `Account`. -/
structure Account where
  guid : String
  parentGuid : Option String
  name : String
  type : AccountType
  commodity : Option CommodityId
  code : String
  description : String
  placeholder : Bool
  hidden : Bool
  deriving Repr, DecidableEq

/-- `AccountList`. -/
structure AccountList where
  accounts : List Account
  deriving Repr, DecidableEq

/-- `ReconcileState`. -/
inductive ReconcileState
  | unspecified
  | notReconciled
  | cleared
  | reconciled
  | frozen
  | voided
  | unrecognized (value : Int32)
  deriving Repr, DecidableEq

/-- `Split`. -/
structure Split where
  guid : String
  accountGuid : String
  value : Numeric
  quantity : Numeric
  memo : String
  action : String
  reconcileState : ReconcileState
  deriving Repr, DecidableEq

/-- `Transaction`. -/
structure Transaction where
  guid : String
  currency : Option CommodityId
  postDate : Option Date
  enterTimeUtc : Int64
  num : String
  description : String
  splits : List Split
  deriving Repr, DecidableEq

/-- `Price`. -/
structure Price where
  guid : String
  commodity : CommodityId
  currency : CommodityId
  date : Option Date
  value : Numeric
  source : String
  deriving Repr, DecidableEq

/-- `ReconcileInfo`. -/
structure ReconcileInfo where
  accountGuid : String
  lastDate : Option Date
  reconciledBalance : Numeric
  deriving Repr, DecidableEq

/-- `MutationMeta`. -/
structure MutationMeta where
  mutationId : String
  deriving Repr, DecidableEq

/-! ### Requests -/

/-- `CreateAccountRequest`. -/
structure CreateAccountRequest where
  «meta» : MutationMeta
  account : Account
  deriving Repr, DecidableEq

/-- `UpdateAccountRequest`. -/
structure UpdateAccountRequest where
  «meta» : MutationMeta
  account : Account
  deriving Repr, DecidableEq

/-- `DeleteAccountRequest`. -/
structure DeleteAccountRequest where
  «meta» : MutationMeta
  guid : String
  deriving Repr, DecidableEq

/-- `SetReconcileInfoRequest`. -/
structure SetReconcileInfoRequest where
  «meta» : MutationMeta
  accountGuid : String
  lastDate : Option Date
  deriving Repr, DecidableEq

/-- `PostTransactionRequest`. -/
structure PostTransactionRequest where
  «meta» : MutationMeta
  transaction : Transaction
  deriving Repr, DecidableEq

/-- `UpdateTransactionRequest`. -/
structure UpdateTransactionRequest where
  «meta» : MutationMeta
  transaction : Transaction
  deriving Repr, DecidableEq

/-- `DeleteTransactionRequest`. -/
structure DeleteTransactionRequest where
  «meta» : MutationMeta
  guid : String
  deriving Repr, DecidableEq

/-- `AddPriceRequest`. -/
structure AddPriceRequest where
  «meta» : MutationMeta
  price : Price
  deriving Repr, DecidableEq

end Daichod.Shim
