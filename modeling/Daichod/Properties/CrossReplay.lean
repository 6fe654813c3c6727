import Daichod.History
import Daichod.Reference

/-!
# Daichod.Properties.CrossReplay

**A mutation id re-sent under another RPC.** The recorded outcome names its RPC, but the
replay does not look at the name: it parses the recorded response as the response type of
the RPC it was sent under, and only where that fails does the client learn that something
is wrong. So a success is replayed as another RPC's success exactly when the one message
parses as the other (`crossReplay_refused_iff`), always so where the two RPCs answer the
same message (`sameMessage_parses`).
-/

namespace Daichod

section CrossReplay

variable [Wire] [Engine] {m : Mutation} {fate : Fate} {w : World}

/-! ### Getting to the recorded outcome -/

/-- A call that is answered OK has read it. -/
theorem Mutation.readsOutcome_of_ok {response : m.Response} {w' : World}
    (h : m.run fate w = .ok response w') : m.ReadsOutcome fate := by
  obtain ⟨_, w₁, hid, h⟩ := run_bind_eq_ok h
  obtain ⟨_, w₂, hintent, h⟩ := run_bind_eq_ok h
  obtain ⟨_, w₃, halive, h⟩ := run_bind_eq_ok h
  obtain ⟨_, w₄, hread, h⟩ := run_bind_eq_ok h
  refine ⟨?_, ?_, ?_, ?_⟩
  · have hid : liftValid (validateMutationId m.mutationId) w = .ok () w₁ := hid
    cases hcheck : validateMutationId m.mutationId with
    | error e => rw [hcheck] at hid; cases hid
    | ok u => rfl
  · cases hfault : fate.recordIntentFault with
    | none => rfl
    | some e => rw [hfault] at hintent; cases hintent
  · intro hcrash
    rw [crashPointMaybe, if_pos hcrash] at halive
    cases halive
  · cases hfault : fate.getOutcomeFault with
    | none => rfl
    | some e => rw [hfault] at hread; cases hread

omit [Engine] in
/-- The bytes of a recorded response; an unset field reads as no bytes. -/
def Outcome.responseBytes (outcome : Outcome Bytes) : Bytes := outcome.response.getD Wire.noBytes

/-- **One call**: a recorded success is replayed as a success exactly when the call gets to
read it and its bytes parse as the RPC's response. -/
theorem Mutation.isOk_of_recorded {recorded : Outcome Bytes}
    (hrecorded : w.journal.Recorded m.mutationId recorded) (hok : recorded.ok = true) :
    (replyOf (m.run fate w)).isOk = true ↔
      m.ReadsOutcome fate ∧ m.codec.parse recorded.responseBytes ≠ none := by
  have hreplay : ∀ h : m.ReadsOutcome fate, (replyOf (m.run fate w)).isOk = true ↔
      m.codec.parse recorded.responseBytes ≠ none := by
    intro h
    rw [Mutation.run_of_recorded h hrecorded]
    have hbytes : m.call.codec.parse (recorded.response.getD Wire.noBytes)
        = m.codec.parse recorded.responseBytes := rfl
    simp only [MutatingCall.replay, hok, Bool.not_true, Bool.false_eq_true, if_false, hbytes]
    cases m.codec.parse recorded.responseBytes with
    | none => simp [replyOf, statusFromException, Reply.isOk]
    | some response => simp [replyOf, Reply.isOk]
  constructor
  · intro h
    cases hrun : m.run fate w with
    | ok response w' =>
      have hreads := Mutation.readsOutcome_of_ok hrun
      exact ⟨hreads, (hreplay hreads).mp h⟩
    | error e w' =>
      rw [hrun] at h
      cases hstatus : statusFromException e with
      | none => simp [replyOf, hstatus, Reply.isOk] at h
      | some status => simp [replyOf, hstatus, Reply.isOk] at h
  · intro h
    exact (hreplay h.1).mpr h.2

/-! ### Two RPCs under one mutation id -/

/-- The response messages of the eight RPCs. -/
inductive ResponseMessage
  | account
  | reconcileInfo
  | transaction
  | price
  | empty
  deriving DecidableEq

/-- The message an RPC answers. -/
def Mutation.responseMessage : Mutation → ResponseMessage
  | createAccount _ => .account
  | updateAccount _ => .account
  | deleteAccount _ => .empty
  | setReconcileInfo _ => .reconcileInfo
  | postTransaction _ => .transaction
  | updateTransaction _ => .transaction
  | deleteTransaction _ => .empty
  | addPrice _ => .price

omit [Engine] in
/-- Where two RPCs answer the same message, each parses what the other recorded. -/
theorem sameMessage_parses {a m : Mutation} (h : a.responseMessage = m.responseMessage)
    (response : a.Response) : m.codec.parse (a.codec.serialize response) ≠ none := by
  have hsome : ∀ {α : Type} (codec : Codec Bytes α) (message : α),
      codec.parse (codec.serialize message) ≠ none := by
    intro α codec message
    rw [codec.parse_serialize]
    simp
  cases a <;> cases m <;> first | exact hsome _ response | cases h

/-- **A success recorded for one RPC is refused to another exactly when the call is broken off
before the replay, or the one's response does not parse as the other's**, at any later time
in any run. -/
theorem crossReplay_refused_iff (config : Config) (b₀ : Book) (es es' : List Event)
    {a m : Mutation} {fate : Fate} {recorded : Outcome Bytes} {response : a.Response}
    (hrecorded : ((Daemon.fresh config b₀).run es).world.journal.Recorded m.mutationId recorded)
    (hok : recorded.ok = true) (hresponse : recorded.response = some (a.codec.serialize response)) :
    (replyOf (m.run fate (((Daemon.fresh config b₀).run es).run es').world)).isOk = false ↔
      ¬m.ReadsOutcome fate ∨ m.codec.parse (a.codec.serialize response) = none := by
  obtain ⟨row, hrow, hparse⟩ := hrecorded
  have hdown : ((Daemon.fresh config b₀).run es).Down := (Daemon.Sound.run config b₀ es).down
  have hstays := hdown.resolved_run hrow es'
  have hbytes : recorded.responseBytes = a.codec.serialize response := by
    rw [Outcome.responseBytes, hresponse]
    rfl
  rw [← Bool.not_eq_true, Mutation.isOk_of_recorded ⟨row, hstays, hparse⟩ hok, hbytes,
    not_and_or, not_not]

end CrossReplay

section Renamed

open Reference

attribute [local instance] Reference.engine Reference.wire

/-- `CreateAccount` of an account for the rent. -/
def createRent : Mutation :=
  .createAccount ⟨⟨mutationId '1'⟩, ⟨"", some (guidToString 1), "Rent", .expense,
    some ⟨"CURRENCY", "USD"⟩, "", "", false, false⟩⟩

/-- `UpdateAccount` of another account, sent under the same mutation id. -/
def renameCash : Mutation :=
  .updateAccount ⟨⟨mutationId '1'⟩, ⟨guidToString 2, some (guidToString 1), "Petty cash", .cash,
    some ⟨"CURRENCY", "USD"⟩, "", "", false, false⟩⟩

/-- The account is created. -/
def rentCreated : Daemon := started.step (.mutate createRent (calm 16))

/-- The update is answered OK with the account that was created. -/
theorem renameCash_replayed :
    (∃ recorded, rentCreated.world.journal.Recorded renameCash.mutationId recorded ∧
      recorded.ok = true ∧ recorded.rpcName ≠ renameCash.rpcName) ∧
    (replyOf (renameCash.run (calm 32) rentCreated.world)).isOk = true ∧
    (rentCreated.step (.mutate renameCash (calm 32))).world.book = rentCreated.world.book := by
  have houtcome : (rentCreated.world.journal.outcome? renameCash.mutationId).map (fun recorded =>
      (recorded.ok, decide (recorded.rpcName ≠ renameCash.rpcName))) = some (true, true) := by
    decide +kernel
  obtain ⟨recorded, hrecorded, hcolumns⟩ := Option.map_eq_some_iff.mp houtcome
  obtain ⟨hok, hrpc⟩ := Prod.mk.inj hcolumns
  refine ⟨⟨recorded, Journal.recorded_iff.mpr hrecorded, hok, of_decide_eq_true hrpc⟩, ?_, ?_⟩
  · decide +kernel
  · decide +kernel

/-- What the creation answered. -/
def rent : createRent.Response :=
  ⟨guidToString 16, some (guidToString 1), "Rent", .expense, some ⟨"CURRENCY", "USD"⟩, "", "",
    false, false⟩

theorem crossReplay_refused_iff_rename :
    (replyOf (renameCash.run (calm 32) rentCreated.world)).isOk = false ↔
      ¬renameCash.ReadsOutcome (calm 32) ∨
        renameCash.codec.parse (createRent.codec.serialize rent) = none := by
  have houtcome : (rentCreated.world.journal.outcome? renameCash.mutationId).map (fun recorded =>
      (recorded.ok, recorded.response)) = some (true, some (createRent.codec.serialize rent)) := by
    decide +kernel
  obtain ⟨recorded, hrecorded, hcolumns⟩ := Option.map_eq_some_iff.mp houtcome
  obtain ⟨hok, hresponse⟩ := Prod.mk.inj hcolumns
  exact crossReplay_refused_iff config book [.start (starts []), .mutate createRent (calm 16)] []
    (Journal.recorded_iff.mpr hrecorded) hok hresponse

end Renamed

end Daichod
