import Daichod.Rpc.Proto

/-!
# Daichod.Rpc.Wire

Protocol Buffers as the daemon uses them: message types that serialize to bytes and parse
back. The bytes themselves are a parameter (`Wire.Bytes`); what the code relies on is that
parsing the bytes a message serialized to gives the message back (`Codec.parse_serialize`),
from which serialization is injective, so that comparing bytes compares messages.

The eight mutating RPCs are one sum type of requests, `Mutation`. Each constructor fixes the
RPC name the service passes to `RunMutation` and the type of its response.
-/

namespace Daichod

/-- One message type on the wire. -/
structure Codec (Bytes α : Type) where
  serialize : α → Bytes
  parse : Bytes → Option α
  parse_serialize : ∀ a, parse (serialize a) = some a

/-- Equal bytes come from equal messages. -/
theorem Codec.serialize_inj {Bytes α : Type} (codec : Codec Bytes α) {a b : α}
    (h : codec.serialize a = codec.serialize b) : a = b := by
  have := congrArg codec.parse h
  simpa only [codec.parse_serialize, Option.some.injEq] using this

/-- `internal.Outcome`, the record in the `applied` table. -/
structure Outcome (Bytes : Type) where
  rpcName : String
  ok : Bool
  response : Option Bytes
  error : Option ErrorDetail

/-- The message library and the digest, as the daemon calls them. -/
class Wire where
  /-- Serialized messages. -/
  Bytes : Type
  decEqBytes : DecidableEq Bytes
  /-- The empty byte string, an unset `bytes` field. -/
  noBytes : Bytes
  /-- `Sha256`. -/
  sha256 : Bytes → Bytes
  account : Codec Bytes Shim.Account
  reconcileInfo : Codec Bytes Shim.ReconcileInfo
  transaction : Codec Bytes Shim.Transaction
  price : Codec Bytes Shim.Price
  empty : Codec Bytes Unit
  outcome : Codec Bytes (Outcome Bytes)
  createAccountRequest : Codec Bytes Shim.CreateAccountRequest
  updateAccountRequest : Codec Bytes Shim.UpdateAccountRequest
  deleteAccountRequest : Codec Bytes Shim.DeleteAccountRequest
  setReconcileInfoRequest : Codec Bytes Shim.SetReconcileInfoRequest
  postTransactionRequest : Codec Bytes Shim.PostTransactionRequest
  updateTransactionRequest : Codec Bytes Shim.UpdateTransactionRequest
  deleteTransactionRequest : Codec Bytes Shim.DeleteTransactionRequest
  addPriceRequest : Codec Bytes Shim.AddPriceRequest

export Wire (Bytes)

instance [Wire] : DecidableEq Bytes := Wire.decEqBytes

/-! ### The mutating RPCs -/

/-- A request to one of the eight mutating RPCs. -/
inductive Mutation
  | createAccount (request : Shim.CreateAccountRequest)
  | updateAccount (request : Shim.UpdateAccountRequest)
  | deleteAccount (request : Shim.DeleteAccountRequest)
  | setReconcileInfo (request : Shim.SetReconcileInfoRequest)
  | postTransaction (request : Shim.PostTransactionRequest)
  | updateTransaction (request : Shim.UpdateTransactionRequest)
  | deleteTransaction (request : Shim.DeleteTransactionRequest)
  | addPrice (request : Shim.AddPriceRequest)
  deriving Repr, DecidableEq

namespace Mutation

/-- `request.meta().mutation_id()`. -/
def mutationId : Mutation → String
  | createAccount r => r.meta.mutationId
  | updateAccount r => r.meta.mutationId
  | deleteAccount r => r.meta.mutationId
  | setReconcileInfo r => r.meta.mutationId
  | postTransaction r => r.meta.mutationId
  | updateTransaction r => r.meta.mutationId
  | deleteTransaction r => r.meta.mutationId
  | addPrice r => r.meta.mutationId

/-- The `rpc_name` the service passes to `RunMutation`. -/
def rpcName : Mutation → String
  | createAccount _ => "daicho.shim.v1.AccountService/CreateAccount"
  | updateAccount _ => "daicho.shim.v1.AccountService/UpdateAccount"
  | deleteAccount _ => "daicho.shim.v1.AccountService/DeleteAccount"
  | setReconcileInfo _ => "daicho.shim.v1.AccountService/SetReconcileInfo"
  | postTransaction _ => "daicho.shim.v1.TransactionService/PostTransaction"
  | updateTransaction _ => "daicho.shim.v1.TransactionService/UpdateTransaction"
  | deleteTransaction _ => "daicho.shim.v1.TransactionService/DeleteTransaction"
  | addPrice _ => "daicho.shim.v1.CommodityService/AddPrice"

/-- The response message of the RPC. -/
abbrev Response : Mutation → Type
  | createAccount _ => Shim.Account
  | updateAccount _ => Shim.Account
  | deleteAccount _ => Unit
  | setReconcileInfo _ => Shim.ReconcileInfo
  | postTransaction _ => Shim.Transaction
  | updateTransaction _ => Shim.Transaction
  | deleteTransaction _ => Unit
  | addPrice _ => Shim.Price

/-- The response message's codec. -/
def codec [Wire] : (m : Mutation) → Codec Bytes m.Response
  | createAccount _ => Wire.account
  | updateAccount _ => Wire.account
  | deleteAccount _ => Wire.empty
  | setReconcileInfo _ => Wire.reconcileInfo
  | postTransaction _ => Wire.transaction
  | updateTransaction _ => Wire.transaction
  | deleteTransaction _ => Wire.empty
  | addPrice _ => Wire.price

/-- `request.SerializeAsString()`. -/
def payload [Wire] : Mutation → Bytes
  | createAccount r => Wire.createAccountRequest.serialize r
  | updateAccount r => Wire.updateAccountRequest.serialize r
  | deleteAccount r => Wire.deleteAccountRequest.serialize r
  | setReconcileInfo r => Wire.setReconcileInfoRequest.serialize r
  | postTransaction r => Wire.postTransactionRequest.serialize r
  | updateTransaction r => Wire.updateTransactionRequest.serialize r
  | deleteTransaction r => Wire.deleteTransactionRequest.serialize r
  | addPrice r => Wire.addPriceRequest.serialize r

end Mutation

end Daichod
