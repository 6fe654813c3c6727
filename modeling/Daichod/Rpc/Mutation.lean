import Daichod.Journal.Journal

/-!
# Daichod.Rpc.Mutation

`RunMutation` (`rpc/mutation.h`), the mutation protocol in one place, generic in the RPC:
journal the request, answer from the recorded outcome if there is one, otherwise apply it
and record what came of it.

A handler is a `MutatingCall`: the arguments `RunMutation` gets from it. What a call can do
is listed case by case in `Daichod.Rpc.Ran`, once the handlers are known.
-/

namespace Daichod

variable [Wire]

/-- `std::isxdigit` in the C locale. -/
def isXDigit (c : Char) : Bool :=
  ('0' ≤ c && c ≤ '9') || ('a' ≤ c && c ≤ 'f') || ('A' ≤ c && c ≤ 'F')

/-- Does `text` match `pattern`, where `-` stands for itself and `x` for a hex digit? -/
def matchesPattern : List Char → List Char → Bool
  | [], [] => true
  | p :: pattern, c :: text =>
    (if p = '-' then c == '-' else isXDigit c) && matchesPattern pattern text
  | _, _ => false

/-- `ValidateMutationId`. -/
def validateMutationId (mutationId : String) : Except ShimError Unit :=
  if matchesPattern "xxxxxxxx-xxxx-xxxx-xxxx-xxxxxxxxxxxx".toList mutationId.toList then .ok ()
  else .error ⟨.invalidArgument, "mutation_id must be a UUID", mutationId⟩

/-- What `apply` is handed to record its response before it commits. -/
abbrev PendingRecorder (Response : Type) := Response → Exec Unit

/-- A mutating RPC, as its handler passes it to `RunMutation`. -/
structure MutatingCall (Response : Type) where
  mutationId : String
  request : Bytes
  rpcName : String
  codec : Codec Bytes Response
  apply : Fate → PendingRecorder Response → Exec Response

variable {Response : Type}

namespace MutatingCall

/-- Step 3a, as the handler sees it. -/
def recordPending (call : MutatingCall Response) (fate : Fate) : PendingRecorder Response :=
  fun response => do
    Journal.recordPending fate.recordPendingFault call.mutationId (call.codec.serialize response)
    crashPointMaybe fate .afterPending

/-- The outcome of a success. -/
def success (call : MutatingCall Response) (response : Response) : Outcome Bytes :=
  { rpcName := call.rpcName, ok := true, response := some (call.codec.serialize response),
    error := none }

/-- The outcome of a typed failure. -/
def failure (call : MutatingCall Response) (e : ShimError) : Outcome Bytes :=
  { rpcName := call.rpcName, ok := false, response := none, error := some e.toDetail }

/-- Answer from a recorded outcome. An unset `error` or `response` reads as its default. -/
def replay (call : MutatingCall Response) (recorded : Outcome Bytes) : Except ShimError Response :=
  if !recorded.ok then
    .error ((recorded.error.getD ⟨.unspecified, "", ""⟩).toShimError)
  else
    match call.codec.parse (recorded.response.getD Wire.noBytes) with
    | some response => .ok response
    | none => .error ⟨.engineError,
        "journal: recorded outcome does not parse as " ++ call.rpcName ++ " response",
        call.mutationId⟩

/-- The `catch` around `apply`: a verdict on the request is recorded, anything else is not. -/
def recordFailure (call : MutatingCall Response) (fate : Fate) : Exn → Exec Response
  | .shim e => do
    if isDeterministicVerdict e.code then
      Journal.recordOutcome fate.recordOutcomeFault call.mutationId (call.failure e) fate.now
    throw (.shim e)
  | e => throw e

/-- Step 3, as far as the end of the `try`. -/
def attempt (call : MutatingCall Response) (fate : Fate) : Exec Response := do
  let response ← call.apply fate (call.recordPending fate)
  crashPointMaybe fate .afterApply
  return response

/-- Step 4 of a success. -/
def recordSuccess (call : MutatingCall Response) (fate : Fate) (response : Response) :
    Exec Response := do
  Journal.recordOutcome fate.recordOutcomeFault call.mutationId (call.success response) fate.now
  crashPointMaybe fate .afterOutcome
  return response

/-- Steps 3 and 4, for a mutation without an outcome. -/
def execute (call : MutatingCall Response) (fate : Fate) : Exec Response := do
  let response ← tryCatch (call.attempt fate) (call.recordFailure fate)
  call.recordSuccess fate response

/-- The task `RunMutation` puts on the engine thread. -/
def run (call : MutatingCall Response) (fate : Fate) : Exec Response := do
  liftValid (validateMutationId call.mutationId)
  Journal.recordIntent fate.recordIntentFault call.mutationId call.rpcName call.request fate.now
  crashPointMaybe fate .afterIntent
  match ← Journal.getOutcome fate.getOutcomeFault call.mutationId with
  | some recorded => liftValid (call.replay recorded)
  | none => call.execute fate

/-- Steps 1 and 2: the request is journaled, and the mutation's outcome looked up. -/
def lookUp (call : MutatingCall Response) (fate : Fate) : Exec (Option (Outcome Bytes)) := do
  liftValid (validateMutationId call.mutationId)
  Journal.recordIntent fate.recordIntentFault call.mutationId call.rpcName call.request fate.now
  crashPointMaybe fate .afterIntent
  Journal.getOutcome fate.getOutcomeFault call.mutationId

/-- What is done with what was found. -/
def answer (call : MutatingCall Response) (fate : Fate) : Option (Outcome Bytes) → Exec Response
  | some recorded => liftValid (call.replay recorded)
  | none => call.execute fate

theorem run_eq (call : MutatingCall Response) (fate : Fate) :
    call.run fate = call.lookUp fate >>= call.answer fate := by
  unfold run lookUp
  simp only [bind_assoc]
  rfl

/-! ### What the `catch` makes of a thrown exception -/

variable {call : MutatingCall Response} {fate : Fate} {w w₁ : World}

/-- The `catch` always throws. -/
theorem recordFailure_throws (e : Exn) : ∃ e' w', call.recordFailure fate e w = .error e' w' := by
  cases e with
  | shim s =>
    unfold recordFailure
    by_cases hcode : isDeterministicVerdict s.code = true
    · simp only [hcode, if_true, run_bind]
      split
      · exact ⟨_, _, rfl⟩
      · exact ⟨_, _, rfl⟩
    · simp only [hcode]
      exact ⟨_, _, rfl⟩
  | queueFull => exact ⟨_, _, rfl⟩
  | workerStopped => exact ⟨_, _, rfl⟩
  | other what => exact ⟨_, _, rfl⟩
  | killed => exact ⟨_, _, rfl⟩

/-- A `ShimError` that is no verdict on the request passes through. -/
theorem recordFailure_of_not_verdict {s : ShimError}
    (hcode : isDeterministicVerdict s.code = false) :
    call.recordFailure fate (.shim s) w = .error (.shim s) w := by
  unfold recordFailure
  simp only [hcode]
  rfl

theorem execute_of_error {e : Exn} (h : call.attempt fate w = .error e w₁) :
    call.execute fate w = call.recordFailure fate e w₁ := by
  obtain ⟨e', w', hfail⟩ : ∃ e' w', call.recordFailure fate e w₁ = .error e' w' :=
    recordFailure_throws e
  rw [execute, run_bind, run_tryCatch, h]
  dsimp only
  rw [hfail]

theorem execute_of_ok {response : Response} (h : call.attempt fate w = .ok response w₁) :
    call.execute fate w = call.recordSuccess fate response w₁ := by
  rw [execute, run_bind, run_tryCatch, h]

end MutatingCall

end Daichod
