import Daichod.History
import Daichod.Properties.ExactlyOnce

/-!
# Daichod.Properties.Replay

**Replay is stable** (`replay_stable`). In any run, with any faults, crashes, restarts and even
other books put in place: once an outcome is on record for a mutation, by its own call or by
recovery, it stays as it is, and every later call of the mutation changes nothing at all. It
fails in the journal, dies before it has read it, or returns what an earlier call of the request
had come to when it was executed. That call need not be the first one: an execution whose outcome
could not be recorded leaves the next one to be executed too.
-/

namespace Daichod

section Replay

variable [Wire] [Engine] {m : Mutation} {fate : Fate} {w : World} {row : Applied}

/-- What a call of the mutation came to when it was executed: the response it had ready for the
engine's last step, or the verdict that it threw. -/
inductive Mutation.CameTo (m : Mutation) (fate : Fate) (w : World) :
    Except ShimError m.Response → Prop
  | success {edit : Edit m.Response} (happlies : m.Applies fate w)
      (hvalid : m.validated fate w = .ok edit) : CameTo m fate w (.ok edit.response)
  | failure {s : ShimError} (happlies : m.Applies fate w)
      (hvalid : m.validated fate w = .error (.shim s))
      (hthrown : m.run fate w = .error (.shim s) (worldAfter (m.run fate w))) :
      CameTo m fate w (.error s)

/-- What is replayed from a computed outcome is what the call came to, the error rebuilt from
its detail included. -/
theorem Mutation.Computed.cameTo {recorded : Outcome Bytes} (h : m.Computed fate w recorded) :
    m.CameTo fate w (m.call.replay recorded) := by
  cases h with
  | @success edit _ happlies hvalid hok hresponse herror =>
    have hparse : m.call.codec.parse (m.codec.serialize edit.response) = some edit.response :=
      m.call.codec.parse_serialize _
    have hreplay : m.call.replay recorded = .ok edit.response := by
      simp [MutatingCall.replay, hok, hresponse, hparse]
    rw [hreplay]
    exact .success happlies hvalid
  | @failure s _ happlies hvalid hverdict hthrown hok herror =>
    have hreplay : m.call.replay recorded = .error s := by
      simp [MutatingCall.replay, hok, herror]
    rw [hreplay]
    exact .failure happlies hvalid hthrown

omit [Engine] in
/-- A request with an outcome has its row, so that step 1 changes nothing. -/
theorem Mutation.journaled_of_resolved (fate : Fate)
    (hrow : w.journal.resolved m.mutationId = some row) : m.journaled fate w = w := by
  obtain ⟨old, hold⟩ := Journal.intent_isSome_of_resolved hrow
  have hold : w.journal.intent (m.intentRow fate).mutationId = some old := hold
  rw [Mutation.journaled, Journal.insertIntent_of_some hold]
  rfl

/-- **A call that meets an outcome** changes nothing. -/
theorem Mutation.run_of_resolved (hid : validateMutationId m.mutationId = .ok ())
    {recorded : Outcome Bytes} (hrow : w.journal.resolved m.mutationId = some row)
    (hparse : Wire.outcome.parse row.outcome = some recorded) (fate : Fate) :
    (∃ e : ShimError, e.OfJournal ∧ m.run fate w = .error (.shim e) w) ∨
      (fate.crashAt = some .afterIntent ∧ m.run fate w = .error .killed w) ∨
      m.run fate w = liftValid (m.call.replay recorded) w := by
  have hsame := Mutation.journaled_of_resolved fate hrow
  have hlooked := m.lookedUp fate w
  rw [Mutation.run, MutatingCall.run_eq, run_bind]
  generalize m.call.lookUp fate w = found at hlooked
  cases hlooked with
  | invalid hinvalid =>
    rw [hid] at hinvalid
    cases hinvalid
  | @intentFault e hfault => exact Or.inl ⟨_, ⟨rfl, e.message, rfl⟩, rfl⟩
  | killedAfterIntent hcrash =>
    rw [hsame]
    exact Or.inr (Or.inl ⟨hcrash, rfl⟩)
  | @unread e he hunread =>
    rw [hsame]
    exact Or.inl ⟨e, he, rfl⟩
  | unresolved hreads hnone =>
    rw [hnone] at hrow
    cases hrow
  | resolved hreads hrow' hparse' =>
    -- It is the same row, and it reads the same.
    rw [hrow] at hrow'
    obtain rfl := Option.some.inj hrow'
    rw [hparse] at hparse'
    obtain rfl := Option.some.inj hparse'
    rw [hsame]
    exact Or.inr (Or.inr rfl)

/-- A later call of a mutation that came to `result`, in the world `w`. -/
structure Mutation.Replays (m : Mutation) (fate : Fate) (w : World)
    (result : Except ShimError m.Response) : Prop where
  ends : (∃ e : ShimError, e.OfJournal ∧ m.run fate w = .error (.shim e) w) ∨
    (fate.crashAt = some .afterIntent ∧ m.run fate w = .error .killed w) ∨
    m.run fate w = liftValid result w
  /-- With nothing in its way it is answered. -/
  answered : m.ReadsOutcome fate → m.run fate w = liftValid result w

/-- A call that applied had a valid id. -/
theorem Mutation.Computed.id_valid {recorded : Outcome Bytes} (h : m.Computed fate w recorded) :
    validateMutationId m.mutationId = .ok () := by
  cases h with
  | success happlies => exact happlies.id_valid
  | failure happlies => exact happlies.id_valid

/-- **A computed outcome replays** wherever it is on record. -/
theorem Mutation.Computed.replays {recorded : Outcome Bytes} (h : m.Computed fate w recorded)
    {w' : World} (hrow : w'.journal.resolved m.mutationId = some row)
    (hparse : Wire.outcome.parse row.outcome = some recorded) (fate' : Fate) :
    m.Replays fate' w' (m.call.replay recorded) := by
  refine ⟨Mutation.run_of_resolved h.id_valid hrow hparse fate', fun hreads => ?_⟩
  rw [Mutation.run_of_recorded hreads ⟨row, hrow, hparse⟩, Mutation.journaled_of_resolved _ hrow]

/-- **Replay is stable.** -/
theorem replay_stable {config : Config} {b₀ : Book} {before after : List Event}
    (hconsistent : Consistent (calls before ++ [(m, fate)]))
    (hrow : ((Daemon.fresh config b₀).run before).world.journal.resolved m.mutationId = some row) :
    ((Daemon.fresh config b₀).run (before ++ after)).world.journal.resolved m.mutationId
        = some row ∧
      ∃ fate₀ w₀ result, Called (Daemon.fresh config b₀) before m fate₀ w₀ ∧
        m.CameTo fate₀ w₀ result ∧
        m.Replays fate ((Daemon.fresh config b₀).run (before ++ after)).world result := by
  have hsound := Daemon.Sound.run config b₀ before
  have hrow' : ((Daemon.fresh config b₀).run (before ++ after)).world.journal.resolved
      m.mutationId = some row := by
    rw [Daemon.run, Machine.run_append]
    exact hsound.down.resolved_run hrow after
  obtain ⟨hmem, hid⟩ := Journal.resolved_eq_some.mp hrow
  obtain ⟨m₀, fate₀, w₀, recorded, hcalled, hid₀, hbytes, hcomputed⟩ :=
    hsound.journal.applied row hmem
  -- The outcome is that of a call under the same id, which was of the same request.
  have hsame : m₀ = m := by
    obtain ⟨es₁, ⟨rest, hes⟩, -⟩ := hcalled
    have hcall : (m₀, fate₀) ∈ calls before := by simp [← hes, calls]
    exact hconsistent (m₀, fate₀) (List.mem_append_left _ hcall) (m, fate)
      (List.mem_append_right _ (List.mem_singleton.mpr rfl)) (hid₀.trans hid)
  subst hsame
  have hparse : Wire.outcome.parse row.outcome = some recorded := by
    rw [hbytes, Wire.outcome.parse_serialize]
  exact ⟨hrow', fate₀, w₀, _, hcalled, hcomputed.cameTo, hcomputed.replays hrow' hparse fate⟩

end Replay

section Witness

open Reference

attribute [local instance] Reference.engine Reference.wire

/-- A post, served. -/
def servedPost : List Event := [.start (starts []), .mutate (post '1' 100) (calm 16)]

/-- The process is killed, and the next one is started. -/
def restarted : List Event := [.kill, .start (starts [])]

/-- The post is sent again to the next process. -/
theorem replay_stable_servedPost : ∃ fate₀ w₀ result,
    Called (Daemon.fresh config book) servedPost (post '1' 100) fate₀ w₀ ∧
      (post '1' 100).CameTo fate₀ w₀ result ∧
      (post '1' 100).run (calm 32) ((Daemon.fresh config book).run (servedPost ++ restarted)).world
        = liftValid result
          ((Daemon.fresh config book).run (servedPost ++ restarted)).world := by
  have hsome : (((Daemon.fresh config book).run servedPost).world.journal.resolved
      (post '1' 100).mutationId).isSome = true := by decide +kernel
  obtain ⟨row, hrow⟩ := Option.isSome_iff_exists.mp hsome
  have hconsistent : Consistent (calls servedPost ++ [(post '1' 100, calm 32)]) := by
    have hcalls : calls servedPost ++ [(post '1' 100, calm 32)]
        = [(post '1' 100, calm 16), (post '1' 100, calm 32)] := rfl
    rw [hcalls]
    intro c hc c' hc' _
    simp only [List.mem_cons, List.not_mem_nil, or_false] at hc hc'
    rcases hc with rfl | rfl <;> rcases hc' with rfl | rfl <;> rfl
  obtain ⟨-, fate₀, w₀, result, hcalled, hcameTo, hreplays⟩ := replay_stable hconsistent hrow
  exact ⟨fate₀, w₀, result, hcalled, hcameTo, hreplays.answered ⟨by decide +kernel, rfl, by decide,
    rfl⟩⟩

end Witness

end Daichod
