import Daichod.Rpc.AccountService
import Daichod.Rpc.CommodityService
import Daichod.Rpc.TransactionService

/-!
# Daichod.Rpc.Dispatch

The eight mutating RPCs as one: which handler a request goes to, and the `RunMutation`
call its service makes of it.
-/

namespace Daichod

variable [Wire] [Engine]

/-- The `apply` each service passes to `RunMutation`. -/
def Mutation.apply : (m : Mutation) → Fate → PendingRecorder m.Response → Exec m.Response
  | .createAccount request => Daichod.createAccount request
  | .updateAccount request => Daichod.updateAccount request
  | .deleteAccount request => Daichod.deleteAccount request
  | .setReconcileInfo request => Daichod.setReconcileInfo request
  | .postTransaction request => Daichod.postTransaction request
  | .updateTransaction request => Daichod.updateTransaction request
  | .deleteTransaction request => Daichod.deleteTransaction request
  | .addPrice request => Daichod.addPrice request

/-- The `RunMutation` call a service makes of a request. -/
def Mutation.call (m : Mutation) : MutatingCall m.Response :=
  { mutationId := m.mutationId, request := m.payload, rpcName := m.rpcName, codec := m.codec
    apply := m.apply }

/-- The task `RunMutation` puts on the engine thread for a request. -/
def Mutation.run (m : Mutation) (fate : Fate) : Exec m.Response := m.call.run fate

/-- What the client of a mutating RPC gets: the status, and the response when it is OK.
Nothing, when the process died. -/
inductive Reply (Response : Type)
  | ok (response : Response)
  | error (status : Status)
  | lost

/-- `RunMutation`'s conversion of the task's end to a gRPC status. -/
def replyOf {α : Type} : EStateM.Result Exn World α → Reply α
  | .ok response _ => .ok response
  | .error e _ =>
    match statusFromException e with
    | some status => .error status
    | none => .lost

/-- Is the reply gRPC OK? -/
def Reply.isOk {Response : Type} : Reply Response → Bool
  | .ok _ => true
  | .error _ | .lost => false

end Daichod
