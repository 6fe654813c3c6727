import Mathlib.Tactic.ByContra

/-!
# Daichod.Rpc.Error

The one error currency inside the daemon (`rpc/error.h`, `rpc/error.cpp`): the closed
`ErrorCode` enum, `ShimError`, and the two classifications every other module leans
on, `grpcCodeFor` and `isDeterministicVerdict`.

A status is rendered by one function, `packStatus`, whether the error was just thrown
or was rebuilt from the detail a journal row stores. That the two agree is
`toShimError_toDetail`, and it is all that replaying a recorded failure needs.
-/

namespace Daichod

/-- `daicho.shim.v1.ErrorCode`. -/
inductive ErrorCode
  | unspecified
  | unbalancedTransaction
  | accountNotFound
  | txnNotFound
  | commodityNotFound
  | currencyMismatch
  | accountNotEmpty
  | readOnlyBook
  | bookLocked
  | bookNotOpen
  | invalidArgument
  | indeterminateMutation
  | engineError
  deriving Repr, DecidableEq

/-- The `grpc::StatusCode`s the daemon answers with. -/
inductive GrpcCode
  | invalidArgument
  | notFound
  | resourceExhausted
  | failedPrecondition
  | internal
  | unavailable
  deriving Repr, DecidableEq

/-- `daicho.shim.v1.ErrorDetail`, carried in `grpc-status-details-bin` and stored in the
journal as a recorded failure. -/
structure ErrorDetail where
  code : ErrorCode
  engineMessage : String
  context : String
  deriving Repr, DecidableEq

/-- The exception class thrown on the engine thread. -/
structure ShimError where
  code : ErrorCode
  engineMessage : String
  context : String
  deriving Repr, DecidableEq

/-- A gRPC answer: OK, or a code with its message and typed detail. -/
inductive Status
  | ok
  | error (code : GrpcCode) (message : String) (detail : ErrorDetail)
  deriving Repr, DecidableEq

/-- `GrpcCodeFor`. -/
def grpcCodeFor : ErrorCode → GrpcCode
  | .accountNotFound | .txnNotFound | .commodityNotFound => .notFound
  | .unbalancedTransaction | .currencyMismatch | .accountNotEmpty | .readOnlyBook
  | .indeterminateMutation => .failedPrecondition
  | .bookLocked | .bookNotOpen => .unavailable
  | .invalidArgument => .invalidArgument
  | .engineError | .unspecified => .internal

/-- `IsDeterministicVerdict`: the codes that are journaled as a mutation's outcome. -/
def isDeterministicVerdict : ErrorCode → Bool
  | .unbalancedTransaction | .accountNotFound | .txnNotFound | .commodityNotFound
  | .currencyMismatch | .accountNotEmpty | .invalidArgument => true
  | .bookNotOpen | .bookLocked | .readOnlyBook | .engineError | .indeterminateMutation
  | .unspecified => false

/-- `PackStatus`. -/
def packStatus (grpcCode : GrpcCode) (code : ErrorCode) (message context : String) : Status :=
  .error grpcCode message { code, engineMessage := message, context }

namespace ShimError

/-- `ShimError::ToDetail`. -/
def toDetail (e : ShimError) : ErrorDetail :=
  { code := e.code, engineMessage := e.engineMessage, context := e.context }

/-- `ShimError::ToStatus`. -/
def toStatus (e : ShimError) : Status :=
  packStatus (grpcCodeFor e.code) e.code e.engineMessage e.context

/-- What the sidecar journal throws, told by its message. -/
def OfJournal (e : ShimError) : Prop :=
  e.code = .engineError ∧ ∃ message, e.engineMessage = "journal: " ++ message

end ShimError

/-- The `ShimError(const ErrorDetail&)` constructor, used to replay a recorded failure. -/
def ErrorDetail.toShimError (d : ErrorDetail) : ShimError :=
  { code := d.code, engineMessage := d.engineMessage, context := d.context }

/-- An error rebuilt from its stored detail is the error that was first thrown. -/
@[simp] theorem ErrorDetail.toShimError_toDetail (e : ShimError) :
    e.toDetail.toShimError = e := rfl

/-- A check that throws unless its condition holds. -/
def ensure (p : Prop) [Decidable p] (code : ErrorCode) (message context : String) :
    Except ShimError Unit :=
  if p then .ok () else .error ⟨code, message, context⟩

theorem ensure_ok {p : Prop} [Decidable p] {code : ErrorCode} {message context : String} {u : Unit}
    (h : ensure p code message context = .ok u) : p := by
  by_contra hp
  rw [ensure, if_neg hp] at h
  cases h

/-- A sequence of checks that passed went through its first. -/
theorem except_bind_ok {ε α β : Type} {x : Except ε α} {f : α → Except ε β} {b : β}
    (h : (x >>= f) = .ok b) : ∃ a, x = .ok a ∧ f a = .ok b := by
  cases x with
  | error e => cases h
  | ok a => exact ⟨a, rfl, h⟩

/-- What can leave a task on the engine thread, or the queue in front of it. `killed` is
not a C++ exception: it is the process dying there, which nothing catches. -/
inductive Exn
  | shim (e : ShimError)
  | queueFull
  | workerStopped
  | other (what : String)
  | killed
  deriving Repr, DecidableEq

/-- `StatusFromException`; a killed process answers nothing. -/
def statusFromException : Exn → Option Status
  | .shim e => some e.toStatus
  | .queueFull => some (packStatus .resourceExhausted .unspecified "engine queue full" "")
  | .workerStopped => some (packStatus .unavailable .unspecified "engine worker is draining" "")
  | .other what => some ({ code := .engineError, engineMessage := what, context := "" } :
      ShimError).toStatus
  | .killed => none

/-- No exception is rendered as OK. -/
theorem statusFromException_ne_ok (e : Exn) : statusFromException e ≠ some .ok := by
  cases e <;> simp [statusFromException, ShimError.toStatus, packStatus]

end Daichod
