import Daichod.History
import Daichod.Memory
import Daichod.Properties.Linearizable
import Daichod.Reference.Traffic

/-!
# Daichod.Properties.Answers

**An answer once given is given again.** A client that has been answered OK, or with a verdict
on its request, has the outcome on record, or an id that no call gets past (`decided_recorded`).
The record stays through every restart, and whoever re-sends the request is answered from it
(`answer_stands`): any number of threads may have sent the same request any number of times, in
any number of processes, and all who are answered at all hear the same.

Environmental errors are no answers in this sense: they are what a client re-sends for.

## Proof shape

A decided reply is one that the record gives back: either it came from the record, or it was put
there before it was given (`Mutation.Ran.decided_recorded`). Records stay. So of two decided calls
under one id, the later one met the record of the earlier, and both replies are what that record
replays.
-/

universe u

namespace Daichod

/-- The client knows what became of its request: it succeeded, or it was judged. -/
def Reply.Decided {Response : Type} : Reply Response → Prop
  | .ok _ => True
  | .error (.error _ _ detail) => isDeterministicVerdict detail.code = true
  | .error .ok => False
  | .lost => False

section Calls

variable [Wire] [Engine] {m : Mutation} {fate : Fate} {w : World}
  {r : EStateM.Result Exn World m.Response}

omit [Engine] in
/-- A `ShimError` decides a request if it is a verdict on it. -/
theorem decided_shim {α : Type} {s : ShimError} {w : World} :
    (replyOf (.error (.shim s) w : EStateM.Result Exn World α)).Decided ↔ s.Verdict := Iff.rfl

omit [Engine] in
/-- What is no `ShimError` is no verdict. -/
theorem not_decided_of_not_shim {α : Type} {e : Exn} {w : World} (h : ∀ s, e ≠ .shim s) :
    ¬(replyOf (.error e w : EStateM.Result Exn World α)).Decided := by
  cases e with
  | shim s => exact absurd rfl (h s)
  | queueFull => simp [replyOf, statusFromException, packStatus, Reply.Decided,
      isDeterministicVerdict]
  | workerStopped => simp [replyOf, statusFromException, packStatus, Reply.Decided,
      isDeterministicVerdict]
  | other what => simp [replyOf, statusFromException, ShimError.toStatus, packStatus,
      Reply.Decided, isDeterministicVerdict]
  | killed => simp [replyOf, statusFromException, Reply.Decided]

omit [Engine] in
/-- An environmental error decides nothing. -/
theorem not_decided_of_engineError {α : Type} {s : ShimError} {w : World}
    (h : s.code = .engineError) :
    ¬(replyOf (.error (.shim s) w : EStateM.Result Exn World α)).Decided := by
  rw [decided_shim, ShimError.Verdict, h]
  simp [isDeterministicVerdict]

/-- The reply that an outcome on record answers. -/
def Mutation.replayed (m : Mutation) (recorded : Outcome Bytes) : Reply m.Response :=
  match m.call.replay recorded with
  | .ok response => .ok response
  | .error e => .error e.toStatus

/-- Replaying a record answers what the record says. -/
theorem Mutation.replyOf_replay (m : Mutation) (recorded : Outcome Bytes) (w : World) :
    replyOf (liftValid (m.call.replay recorded) w) = m.replayed recorded := by
  unfold Mutation.replayed
  cases m.call.replay recorded <;> rfl

/-- No call gets past a mutation id that is no UUID. -/
theorem Mutation.run_of_invalid {e : ShimError}
    (hid : validateMutationId m.mutationId = .error e) (fate : Fate) (w : World) :
    m.run fate w = .error (.shim e) w := by
  have hid : liftValid (validateMutationId m.call.mutationId) w = .error (.shim e) w := by
    rw [show m.call.mutationId = m.mutationId from rfl, hid]
    rfl
  exact run_bind_error hid

/-- **What a client knows is on record**: the outcome that will be replayed is the reply it
got. -/
theorem Mutation.Ran.decided_recorded (hran : m.Ran fate w r)
    (hid : validateMutationId m.mutationId = .ok ()) (hdecided : (replyOf r).Decided) :
    ∃ recorded, (worldAfter r).journal.Recorded m.mutationId recorded ∧
      replyOf r = m.replayed recorded := by
  cases hran with
  | invalid hinvalid =>
    rw [hid] at hinvalid
    cases hinvalid
  | intentFault hfault => exact absurd hdecided (not_decided_of_engineError rfl)
  | killedAfterIntent hcrash => exact absurd hdecided (not_decided_of_not_shim (by simp))
  | outcomeUnread hcode hfault => exact absurd hdecided (not_decided_of_engineError hcode)
  -- it came from the record,
  | @replayed row recorded hrow hparse =>
    refine ⟨recorded, ⟨row, ?_, hparse⟩, m.replyOf_replay recorded _⟩
    have hworld : worldAfter (liftValid (m.call.replay recorded) (m.journaled fate w))
        = m.journaled fate w := by
      cases m.call.replay recorded <;> rfl
    rw [hworld, Mutation.resolved_journaled]
    exact hrow
  | @refused e happlies hvalid hcode =>
    cases e with
    | shim s =>
      rw [decided_shim, ShimError.Verdict, hcode s rfl] at hdecided
      cases hdecided
    | queueFull => exact absurd hdecided (not_decided_of_not_shim (by simp))
    | workerStopped => exact absurd hdecided (not_decided_of_not_shim (by simp))
    | other what => exact absurd hdecided (not_decided_of_not_shim (by simp))
    | killed => exact absurd hdecided (not_decided_of_not_shim (by simp))
  | verdictUnrecorded happlies hvalid hcode hfault he =>
    exact absurd hdecided (not_decided_of_engineError he)
  -- or it is a verdict, which was put there before it was thrown on,
  | @verdict s j happlies hvalid hcode hj =>
    refine ⟨m.call.failure s, ?_, rfl⟩
    exact (Journal.recorded_insertApplied hj).mpr (by rw [if_pos rfl])
  | pendingFault happlies hvalid hfault => exact absurd hdecided (not_decided_of_engineError rfl)
  | killedAfterPending happlies hvalid hpending hcrash =>
    exact absurd hdecided (not_decided_of_not_shim (by simp))
  | threwBefore hreach hfinal => exact absurd hdecided (not_decided_of_not_shim (by simp))
  | threwAfter hreach hfinal => exact absurd hdecided (not_decided_of_not_shim (by simp))
  | killedAfterApply hreach hfinal hcrash =>
    exact absurd hdecided (not_decided_of_not_shim (by simp))
  | outcomeFault hreach hfinal halive hfault he =>
    exact absurd hdecided (not_decided_of_engineError he)
  | killedAfterOutcome hreach hfinal hfault hj hcrash =>
    exact absurd hdecided (not_decided_of_not_shim (by simp))
  -- or a success, recorded before the call returned
  | @returned edit j hreach hfinal halive hfault hj =>
    refine ⟨m.call.success edit.response, ?_, ?_⟩
    · exact (Journal.recorded_insertApplied hj).mpr (by rw [if_pos rfl])
    · have hparse : m.call.codec.parse (m.call.codec.serialize edit.response)
          = some edit.response := m.call.codec.parse_serialize _
      simp [Mutation.replayed, MutatingCall.replay, MutatingCall.success, hparse, replyOf]

/-- A call that meets an outcome on record changes nothing but the journal. -/
theorem Mutation.step_store_of_recorded {d : Daemon} (hreads : m.ReadsOutcome fate)
    {recorded : Outcome Bytes} (hrecorded : d.world.journal.Recorded m.mutationId recorded) :
    (d.step (.mutate m fate)).world.store = d.world.store := by
  simp only [Daemon.step]
  split
  · rw [Mutation.run_of_recorded hreads hrecorded]
    cases m.call.replay recorded <;> rfl
  · rfl

end Calls

/-! ### The daemon

A record is never overwritten, so what one decided call has left there is what every later call
finds. -/

section Daemon

variable [Wire] [Engine] {d : Daemon} {m : Mutation} {fate : Fate}

/-- What is on record stays. -/
theorem Daemon.Down.recorded_run (hdown : d.Down) {id : String} {recorded : Outcome Bytes}
    (h : d.world.journal.Recorded id recorded) (events : List Event) :
    (d.run events).world.journal.Recorded id recorded := by
  obtain ⟨row, hrow, hparse⟩ := h
  exact ⟨row, hdown.resolved_run hrow events, hparse⟩

/-- What a client knows stays on record. -/
theorem Daemon.Down.recorded_after (hdown : d.Down) (hserving : d.serving = true)
    (hid : validateMutationId m.mutationId = .ok ())
    (hdecided : (replyOf (m.run fate d.world)).Decided) :
    ∃ recorded, replyOf (m.run fate d.world) = m.replayed recorded ∧
      ∀ events, ((d.step (.mutate m fate)).run events).world.journal.Recorded m.mutationId
        recorded := by
  obtain ⟨recorded, hrecorded, hreply⟩ := (m.ran fate d.world).decided_recorded hid hdecided
  have hjournal : (d.step (.mutate m fate)).world.journal
      = (worldAfter (m.run fate d.world)).journal := by
    simp only [Daemon.step, hserving, if_true]
    rcases afterTask_world (m.run fate d.world) with h | h
    · rw [h]
    · rw [h]; rfl
  exact ⟨recorded, hreply, (hdown.step _).recorded_run (hjournal ▸ hrecorded)⟩

/-- A call after a decided one, and what it takes to be answered from the record. -/
theorem Daemon.Down.answered_again (hdown : d.Down) (hserving : d.serving = true)
    (hdecided : (replyOf (m.run fate d.world)).Decided) (fate' : Fate) (events : List Event) :
    let d' := (d.step (.mutate m fate)).run events
    ((replyOf (m.run fate' d'.world)).Decided →
        replyOf (m.run fate' d'.world) = replyOf (m.run fate d.world)) ∧
      (m.ReadsOutcome fate' → replyOf (m.run fate' d'.world) = replyOf (m.run fate d.world) ∧
        (d'.step (.mutate m fate')).world.store = d'.world.store) := by
  intro d'
  cases hid : validateMutationId m.mutationId with
  | error e =>
    refine ⟨fun _ => ?_, fun hreads => ?_⟩
    · rw [Mutation.run_of_invalid hid, Mutation.run_of_invalid hid]
      rfl
    · rw [hreads.id_valid] at hid
      cases hid
  | ok u =>
    obtain ⟨recorded, hreply, hstays⟩ := hdown.recorded_after hserving hid hdecided
    have hrecorded : d'.world.journal.Recorded m.mutationId recorded := hstays events
    constructor
    · intro hdecided'
      obtain ⟨recorded', hrecorded', hreply'⟩ :=
        (m.ran fate' d'.world).decided_recorded hid hdecided'
      -- The second reply is the record it leaves, which is the one it met.
      obtain ⟨row, hrow, hparse⟩ := hrecorded
      have hrecorded : (worldAfter (m.run fate' d'.world)).journal.Recorded m.mutationId recorded :=
        ⟨row, (m.ran fate' d'.world).resolved_of_some hrow, hparse⟩
      rw [hreply', hrecorded'.unique hrecorded, hreply]
    · intro hreads
      refine ⟨?_, Mutation.step_store_of_recorded hreads hrecorded⟩
      rw [Mutation.run_of_recorded hreads hrecorded, m.replyOf_replay, hreply]

end Daemon

/-! ### Clients

Clients see the daemon through the queue. Every answer belongs to a turn in the serial order, and
turns come one before the other. -/

section Clients

variable [Wire] [Engine] [DayTimes] [Balances] {ι : Type u} [DecidableEq ι]
  (traffic : Traffic ι) (maxDepth : ℕ)

/-- At some time of the run the call has had this answer. -/
def Server.Answered (s : Server ι) (events : List (Server.Event ι)) (call : ι)
    (answer : RpcAnswer) : Prop :=
  ∃ es, es <+: events ∧ (s.run traffic maxDepth es).worker.runs call = .returned answer

variable {traffic maxDepth}

/-- Whoever is answered has had a turn. -/
theorem Server.Answered.turn {config : Config} {b₀ : Book} {events : List (Server.Event ι)}
    {call : ι} {answer : RpcAnswer}
    (h : (Server.fresh maxDepth config b₀).Answered traffic maxDepth events call answer) :
    Turn traffic (Daemon.fresh config b₀)
      ((Server.fresh maxDepth config b₀).serial traffic maxDepth events) call answer := by
  obtain ⟨es, ⟨rest, rfl⟩, hreturned⟩ := h
  rw [Server.serial_append]
  exact ((linearized (s := Server.fresh maxDepth config b₀)
    (EngineWorker.create_coherent maxDepth) es).answered call answer rfl hreturned).append _

/-- One call has its turn before another one. -/
def Precedes (traffic : Traffic ι) (d : Daemon) (i : ι) (a : RpcAnswer) (j : ι) (b : RpcAnswer) :
    Prop :=
  ∃ before between, (Machine.run (Daemon.perform traffic) d before).serving = true ∧
    a = (traffic.rpc i).answer (traffic.fate i)
      (Machine.run (Daemon.perform traffic) d before).world ∧
    b = (traffic.rpc j).answer (traffic.fate j)
      (Machine.run (Daemon.perform traffic) d (before ++ .serve i :: between)).world

omit [DecidableEq ι] in
/-- Of two turns in one order, one comes before the other, or they are one. -/
theorem Turn.order {d : Daemon} {ops : List (Op ι)} {i j : ι} {a b : RpcAnswer}
    (h : Turn traffic d ops i a) (h' : Turn traffic d ops j b) :
    (i = j ∧ a = b) ∨ Precedes traffic d i a j b ∨ Precedes traffic d j b i a := by
  obtain ⟨before, after, rfl, hserving, ha⟩ := h
  obtain ⟨before', after', heq, hserving', hb⟩ := h'
  rcases List.append_eq_append_iff.mp heq with ⟨between, hbefore, hafter⟩ |
    ⟨between, hbefore, hafter⟩
  -- the two turns are one, or the first is in front
  · cases between with
    | nil =>
      rw [List.append_nil] at hbefore
      obtain ⟨hop, -⟩ := List.cons.inj hafter
      cases hop
      exact Or.inl ⟨rfl, by rw [ha, hb, hbefore]⟩
    | cons o between =>
      obtain ⟨rfl, -⟩ := List.cons.inj hafter
      exact Or.inr (Or.inl ⟨before, between, hserving, ha, by rw [hb, hbefore]⟩)
  · cases between with
    | nil =>
      rw [List.append_nil] at hbefore
      obtain ⟨hop, -⟩ := List.cons.inj hafter
      cases hop
      exact Or.inl ⟨rfl, by rw [ha, hb, hbefore]⟩
    | cons o between =>
      obtain ⟨rfl, -⟩ := List.cons.inj hafter
      exact Or.inr (Or.inr ⟨before', between, hserving', hb, by rw [ha, hbefore]⟩)

variable {config : Config} {b₀ : Book} {i j : ι} {m : Mutation} {r r' : Reply m.Response}

omit [DecidableEq ι] in
/-- An answer is the reply of the task. -/
theorem Rpc.reply_of_answer {fate : RpcFate} {w : World} {rpc rpc' : Rpc}
    {reply : Reply rpc'.Response} (hrpc : rpc = rpc')
    (h : (⟨rpc', reply⟩ : RpcAnswer) = rpc.answer fate w) : reply = replyOf (rpc'.run fate w) := by
  subst hrpc
  cases h
  rfl

omit [DecidableEq ι] in
/-- The answer of a mutating call is its reply. -/
theorem Rpc.answer_mutate {fate : RpcFate} {w : World} {rpc : Rpc} (hrpc : rpc = .mutate m)
    (h : (⟨.mutate m, r⟩ : RpcAnswer) = rpc.answer fate w) :
    r = replyOf (m.run fate.mutation w) := reply_of_answer hrpc h

omit [DecidableEq ι] in
/-- A daemon on its way, behind the turn of a mutating RPC. -/
theorem Daemon.run_serve (hi : traffic.rpc i = .mutate m) (before between : List (Op ι)) :
    Machine.run (perform traffic) (fresh config b₀) (before ++ .serve i :: between)
      = ((Machine.run (perform traffic) (fresh config b₀) before).step
          (.mutate m (traffic.fate i).mutation)).run (Op.events traffic between) := by
  rw [Machine.run_append, Machine.run_cons, run_events, perform_eq]
  simp only [Op.event, hi, Rpc.event, Option.elim_some]

omit [DecidableEq ι] in
/-- A daemon whose process is not running is down at any time of a run. -/
theorem Daemon.down_perform (ops : List (Op ι)) :
    (Machine.run (perform traffic) (fresh config b₀) ops).Down := by
  rw [run_events]
  exact (Sound.run config b₀ _).down

omit [DecidableEq ι] in
/-- A call whose turn comes after a decided one. -/
theorem Precedes.answered_again
    (h : Precedes traffic (Daemon.fresh config b₀) i ⟨.mutate m, r⟩ j ⟨.mutate m, r'⟩)
    (hi : traffic.rpc i = .mutate m) (hj : traffic.rpc j = .mutate m) (hdecided : r.Decided) :
    (r'.Decided → r' = r) ∧ (m.ReadsOutcome (traffic.fate j).mutation → r' = r) := by
  obtain ⟨before, between, hserving, ha, hb⟩ := h
  have hr := Rpc.answer_mutate hi ha
  have hr' := Rpc.answer_mutate hj hb
  rw [Daemon.run_serve hi] at hr'
  obtain ⟨hagain, hreads⟩ := (Daemon.down_perform before).answered_again hserving (hr ▸ hdecided)
    (traffic.fate j).mutation (Op.events traffic between)
  rw [hr', hr]
  exact ⟨hagain, fun h => (hreads h).1⟩

omit [DecidableEq ι] in
/-- Turns in a later stretch come later. -/
theorem Turn.precedes {d : Daemon} {ops ops' : List (Op ι)} {a b : RpcAnswer}
    (h : Turn traffic d ops i a)
    (h' : Turn traffic (Machine.run (Daemon.perform traffic) d ops) ops' j b) :
    Precedes traffic d i a j b := by
  obtain ⟨before, after, rfl, hserving, ha⟩ := h
  obtain ⟨before', after', rfl, -, hb⟩ := h'
  refine ⟨before, after ++ before', hserving, ha, ?_⟩
  rw [hb, ← Machine.run_append, List.append_assoc, List.cons_append]

omit [DecidableEq ι] in
/-- **What a client knows** at the end of a serial order: its mutation is on record with the
reply it got, or it has no valid id and was turned away. -/
theorem Turn.recorded {ops : List (Op ι)} {i : ι} {m : Mutation} {r : Reply m.Response}
    (h : Turn traffic (Daemon.fresh config b₀) ops i ⟨.mutate m, r⟩)
    (hi : traffic.rpc i = .mutate m) (hdecided : r.Decided) :
    (∃ recorded, r = m.replayed recorded ∧
        (Machine.run (Daemon.perform traffic) (Daemon.fresh config b₀) ops).world.journal.Recorded
          m.mutationId recorded) ∨
      (validateMutationId m.mutationId ≠ .ok () ∧ r.isOk = false) := by
  obtain ⟨before, after, rfl, hserving, ha⟩ := h
  have hr := Rpc.answer_mutate hi ha
  cases hid : validateMutationId m.mutationId with
  | ok u =>
    obtain ⟨recorded, hreply, hstays⟩ :=
      (Daemon.down_perform before).recorded_after hserving hid (hr ▸ hdecided)
    refine Or.inl ⟨recorded, hr.trans hreply, ?_⟩
    rw [Daemon.run_serve hi]
    exact hstays _
  | error e =>
    refine Or.inr ⟨nofun, ?_⟩
    rw [hr, Mutation.run_of_invalid hid]
    rfl

variable (traffic maxDepth) in
/-- What the answer `r` to a mutating RPC is worth, given in the run `events`. -/
structure Stands (s₀ : Server ι) (events : List (Server.Event ι)) (m : Mutation)
    (r : Reply m.Response) : Prop where
  /-- Whoever has sent the same request, and knows what became of it, knows the same. -/
  agreed : ∀ j r', traffic.rpc j = .mutate m →
    s₀.Answered traffic maxDepth events j ⟨.mutate m, r'⟩ → r'.Decided → r' = r
  /-- Whoever sends it from now on, and is not stopped before the journal is read, is answered
  the same. -/
  again : ∀ later j r', traffic.rpc j = .mutate m → m.ReadsOutcome (traffic.fate j).mutation →
    (s₀.run traffic maxDepth events).worker.runs j = .notCalled →
    ((s₀.run traffic maxDepth events).run traffic maxDepth later).worker.runs j
      = .returned ⟨.mutate m, r'⟩ → r' = r
  /-- It changes nothing any more. -/
  unchanged : ∀ later j before after, traffic.rpc j = .mutate m →
    m.ReadsOutcome (traffic.fate j).mutation →
    (s₀.run traffic maxDepth events).serial traffic maxDepth later = before ++ .serve j :: after →
    (Machine.run (Daemon.perform traffic) (s₀.run traffic maxDepth events).daemon
        (before ++ [.serve j])).world.store
      = (Machine.run (Daemon.perform traffic) (s₀.run traffic maxDepth events).daemon
        before).world.store

/-- **An answer once given is given again**, whoever asks, however many processes later. -/
theorem answer_stands {events : List (Server.Event ι)} (hi : traffic.rpc i = .mutate m)
    (hanswered : (Server.fresh maxDepth config b₀).Answered traffic maxDepth events i
      ⟨.mutate m, r⟩)
    (hdecided : r.Decided) :
    Stands traffic maxDepth (Server.fresh maxDepth config b₀) events m r := by
  have hturn := hanswered.turn
  have hdaemon : ((Server.fresh maxDepth config b₀).run traffic maxDepth events).daemon
      = Machine.run (Daemon.perform traffic) (Daemon.fresh config b₀)
          ((Server.fresh maxDepth config b₀).serial traffic maxDepth events) :=
    Server.run_daemon _ events
  have hcoherent : ((Server.fresh maxDepth config b₀).run traffic maxDepth events).worker.Coherent :=
    Server.run_coherent (EngineWorker.create_coherent maxDepth) events
  refine ⟨fun j r' hj hanswered' hdecided' => ?_, fun later j r' hj hreads hcall hreturned => ?_,
    fun later j before after hj hreads hserial => ?_⟩
  -- of the two turns one came first, and the other was answered from its record
  · rcases hturn.order hanswered'.turn with ⟨-, heq⟩ | hprecedes | hprecedes
    · cases heq
      rfl
    · exact (hprecedes.answered_again hi hj hdecided).1 hdecided'
    · exact ((hprecedes.answered_again hj hi hdecided').1 hdecided).symm
  · have hlater := (linearized hcoherent later).answered j _ hcall hreturned
    rw [hdaemon] at hlater
    exact ((hturn.precedes hlater).answered_again hi hj hdecided).2 hreads
  · obtain ⟨front, back, hops, hserving, ha⟩ := hturn
    have hr := Rpc.answer_mutate hi ha
    have hstep : ∀ ops, Machine.run (Daemon.perform traffic)
        ((Server.fresh maxDepth config b₀).run traffic maxDepth events).daemon ops
        = ((Machine.run (Daemon.perform traffic) (Daemon.fresh config b₀) front).step
            (.mutate m (traffic.fate i).mutation)).run (Op.events traffic (back ++ ops)) := by
      intro ops
      rw [hdaemon, ← Machine.run_append, hops, List.append_assoc, List.cons_append]
      exact Daemon.run_serve hi front (back ++ ops)
    have hcall : Op.events traffic [.serve j] = [.mutate m (traffic.fate j).mutation] := by
      simp [Op.events, Op.event, hj, Rpc.event]
    rw [hstep, hstep, ← List.append_assoc, Op.events_append, hcall, Daemon.run, Machine.run_concat]
    exact (((Daemon.down_perform front).answered_again hserving (hr ▸ hdecided) _
      (Op.events traffic (back ++ before))).2 hreads).2

end Clients

section Resent

open Reference

attribute [local instance] Reference.engine Reference.wire Reference.dayTimes Reference.balances

/-- One post, sent by two clients. -/
def twoPosts : Traffic (Fin 2) := ⟨fun _ => .mutate (post '1' 100), fun _ => calmRpc 16⟩

/-- What the first of them is answered holds for the second. -/
theorem answer_stands_twoPosts :
    Stands twoPosts 256 (Server.fresh 256 config book)
      (.start (starts []) :: Server.roundTrip (0 : Fin 2)) (post '1' 100)
      (replyOf ((post '1' 100).run (calm 16) started.world)) := by
  have halive : (started.serve (twoPosts.rpc 0) (twoPosts.fate 0)).serving = true := by
    decide +kernel
  have hreturned : ((startedServer twoPosts).run twoPosts 256 (Server.roundTrip 0)).worker.runs
      = Function.update (startedServer twoPosts).worker.runs 0
          (.returned ((twoPosts.rpc 0).answer (twoPosts.fate 0)
            (startedServer twoPosts).daemon.world)) :=
    ((startedServer_resting twoPosts).roundTrip rfl halive).2.2
  refine answer_stands (i := 0) rfl ⟨_, List.prefix_rfl, ?_⟩ ?_
  · have hrun : ((Server.fresh 256 config book).run twoPosts 256
        (.start (starts []) :: Server.roundTrip (0 : Fin 2)))
        = (startedServer twoPosts).run twoPosts 256 (Server.roundTrip 0) := rfl
    rw [hrun, hreturned, Function.update_self]
    rfl
  · have hok : (replyOf ((post '1' 100).run (calm 16) started.world)).isOk = true := by
      decide +kernel
    cases hreply : replyOf ((post '1' 100).run (calm 16) started.world) with
    | ok response => trivial
    | error status => rw [hreply] at hok; cases hok
    | lost => rw [hreply] at hok; cases hok

end Resent

end Daichod
