import Daichod.Reference
import Daichod.Rpc.Verdicts

/-!
# Daichod.Properties.ReadOnly

**A daemon started with `--read-only`.** The flag is looked at when the book is opened and
when it is closed and nowhere else: no handler asks for it, and what the engine reports
about a read-only book after a commit is not read (`Daichod.Properties.DeclinedStep`). So
no mutating call is ever answered with `READ_ONLY_BOOK` (`Mutation.Ran.ne_readOnlyBook`),
and a read-only daemon keeps its promise exactly as long as it serves none.

## Proof shape

The journal invariant `Judged` says that what is on record as a failure is a verdict. With it,
each of the ways a call can end is looked at once for its error code
(`Mutation.Ran.ne_readOnlyBook`), and none of them is `READ_ONLY_BOOK`. So a promise to reject can
only be kept by serving nothing.
-/

namespace Daichod

/-! ### Failures on record

Of failures only verdicts are recorded, and a start records successes only. -/

namespace Journal

variable [Wire] {j j' : Journal} {id : String} {outcome : Outcome Bytes}

/-- Every failure on record is a verdict on its request. -/
def Judged (j : Journal) : Prop :=
  ∀ id outcome, j.Recorded id outcome → outcome.ok = false →
    ∃ s : ShimError, s.Verdict ∧ outcome.error = some s.toDetail

/-- Judged is a matter of the outcomes on record, -/
theorem Judged.congr (h : j.Judged) (hsame : ∀ id, j'.resolved id = j.resolved id) :
    j'.Judged := by
  intro id outcome hrecorded
  exact h id outcome ((recorded_congr hsame).mp hrecorded)

/-- and stays so when a success or a verdict is added, -/
theorem Judged.insertApplied {now : Int64} (h : j.Judged)
    (houtcome : outcome.ok = false → ∃ s : ShimError, s.Verdict ∧ outcome.error = some s.toDetail)
    (hj : j.insertApplied (outcomeRow id outcome now) = some j') : j'.Judged := by
  intro id' outcome' hrecorded hok
  rw [recorded_insertApplied hj] at hrecorded
  by_cases hid : id = id'
  · rw [if_pos hid] at hrecorded
    subst hrecorded
    exact houtcome hok
  · rw [if_neg hid] at hrecorded
    exact h id' outcome' hrecorded hok

/-- or when a start settles what is pending. -/
theorem Judged.reconciled [Engine] {book : Book} {now : Int64} {entries : List PendingEntry}
    (h : j.Judged) (hrec : Reconciled book now entries j j') : j'.Judged := by
  induction hrec with
  | nil j => exact h
  | applied hverdict hj hrest ih => exact ih (h.insertApplied (fun hok => by cases hok) hj)
  | cleared hverdict hrest ih => exact ih (h.congr fun _ => resolved_updatePending ..)

end Journal

section ReadOnly

variable [Wire] [Engine] {m : Mutation} {fate : Fate} {w : World}

/-- What a call records is a success or a verdict. -/
theorem Mutation.Ran.judged {r : EStateM.Result Exn World m.Response} (h : m.Ran fate w r)
    (hj : w.journal.Judged) : (worldAfter r).journal.Judged := by
  rcases h.resolved with hsame | ⟨j, outcome, hsame, houtcome, hinsert⟩
  · exact hj.congr hsame
  · refine (hj.congr hsame).insertApplied (fun hok => ?_) hinsert
    cases houtcome with
    | success response => cases hok
    | failure hcode => exact ⟨_, hcode, rfl⟩

/-- **No call is answered with `READ_ONLY_BOOK`**: nothing in `RunMutation` or a handler
throws it, and it is never on record. -/
theorem Mutation.Ran.ne_readOnlyBook {s : ShimError} {w' : World}
    (h : m.Ran fate w (.error (.shim s) w')) (hj : w.journal.Judged) :
    s.code ≠ .readOnlyBook := by
  have verdict : ∀ {e : ShimError}, e.Verdict → e.code ≠ .readOnlyBook := by
    intro e he hcode
    rw [ShimError.Verdict, hcode] at he
    cases he
  have engineError : ∀ {e : ShimError}, e.code = .engineError → e.code ≠ .readOnlyBook := by
    intro e he hcode
    rw [hcode] at he
    cases he
  generalize hr : (EStateM.Result.error (.shim s) w' : EStateM.Result Exn World m.Response) = r at h
  cases h with
  | invalid hid =>
    cases hr
    refine verdict ?_
    unfold validateMutationId at hid
    split at hid
    · cases hid
    · cases hid
      rfl
  | intentFault hfault => cases hr; exact engineError rfl
  | killedAfterIntent hcrash => cases hr
  | outcomeUnread hcode hfault => cases hr; exact engineError hcode
  -- a replayed failure is one on record, so a verdict
  | @replayed row recorded hrow hparse =>
    cases hok : recorded.ok with
    | false =>
      obtain ⟨s', hs', herror⟩ := hj m.mutationId recorded ⟨row, hrow, hparse⟩ hok
      have hreplay : m.call.replay recorded = .error s' := by
        rw [MutatingCall.replay, hok, herror]
        rfl
      rw [hreplay] at hr
      cases hr
      exact verdict hs'
    | true =>
      cases hparsed : m.call.codec.parse (recorded.response.getD Wire.noBytes) with
      | some response =>
        have hreplay : m.call.replay recorded = .ok response := by
          simp [MutatingCall.replay, hok, hparsed]
        rw [hreplay] at hr
        cases hr
      | none =>
        have hreplay : ∃ e : ShimError, e.code = .engineError ∧
            m.call.replay recorded = .error e := by
          simp [MutatingCall.replay, hok, hparsed]
        obtain ⟨e, he, hreplay⟩ := hreplay
        rw [hreplay] at hr
        cases hr
        exact engineError he
  -- validation throws verdicts, or that no book is open
  | refused happlies hvalid hcode =>
    cases hr
    rcases Mutation.validated_error hvalid with hverdict | ⟨-, hs⟩
    · exact verdict hverdict
    · cases hs
      simp
  | verdictUnrecorded happlies hvalid hcode hfault he => cases hr; exact engineError he
  | verdict happlies hvalid hcode hj' => cases hr; exact verdict hcode
  | pendingFault happlies hvalid hfault => cases hr; exact engineError rfl
  | killedAfterPending happlies hvalid hpending hcrash => cases hr
  | threwBefore hreach hfinal => cases hr
  | threwAfter hreach hfinal => cases hr
  | killedAfterApply hreach hfinal hcrash => cases hr
  | outcomeFault hreach hfinal halive hfault he => cases hr; exact engineError he
  | killedAfterOutcome hreach hfinal hfault hj' hcrash => cases hr
  | returned hreach hfinal halive hfault hj' => cases hr

/-! ### Read-only daemons

The property is about runs of a read-only daemon over whatever earlier runs have left, pending
records included. -/

/-- The daemon, as the next process finds it that is started with `--read-only`. -/
def Daemon.readOnly (d : Daemon) : Daemon :=
  { d with world := { d.world with config := { d.world.config with readOnly := true } } }

/-- The request fails with `READ_ONLY_BOOK`, before its edit and off the record. -/
structure Mutation.Rejected (m : Mutation) (fate : Fate) (w : World) : Prop where
  status : ∃ message context, replyOf (m.run fate w)
    = .error (packStatus (grpcCodeFor .readOnlyBook) .readOnlyBook message context)
  untouched : (worldAfter (m.run fate w)).store = w.store
  unrecorded : ∀ id, (worldAfter (m.run fate w)).journal.resolved id = w.journal.resolved id

/-- The event is a mutating RPC, and it is served. -/
def Served (d : Daemon) (e : Event) : Prop := d.serving = true ∧ ∃ m fate, e = .mutate m fate

/-- What a read-only daemon promises about an event; `j` is the journal of its first start,
which can hold pending records of the writable daemon before it. -/
structure NeverAccepts (j : Journal) (d : Daemon) (e : Event) : Prop where
  rejects : ∀ m fate, e = .mutate m fate → d.serving = true → m.Rejected fate d.world
  unwritten : ∀ id, (d.step e).world.journal.RecordedOk id →
    d.world.journal.RecordedOk id ∨ ∃ row, j.Unresolved row ∧ row.mutationId = id

/-- What holds of a daemon's journal in all of its runs. -/
structure Daemon.Judged (d : Daemon) : Prop where
  journal : d.world.journal.Judged
  down : d.Down

/-- **One event** records nothing but successes and verdicts. -/
theorem Daemon.Judged.step {d : Daemon} (h : d.Judged) (e : Event) : (d.step e).Judged := by
  refine ⟨?_, h.down.step e⟩
  rcases h.down.step_journal e with hsame | ⟨m, fate, rfl, hserving, hcall⟩ |
    ⟨fate, o, settled, rest, rfl, -, -, hrec⟩
  · rw [hsame]
    exact h.journal
  · rw [hcall]
    exact (m.ran fate d.world).judged h.journal
  · exact h.journal.reconciled hrec

/-- No run records anything else. -/
theorem Daemon.Judged.run (config : Config) (b₀ : Book) (events : List Event) :
    ((Daemon.fresh config b₀).run events).Judged := by
  refine Machine.run_invariant_history (I := fun _ d => Daemon.Judged d) ?_ fun _ e h => h.step e
  refine ⟨?_, fun _ => ⟨EditStore.ofTable_quiet _, rfl⟩⟩
  intro id outcome hrecorded
  obtain ⟨row, hrow, _⟩ := hrecorded
  cases hrow

/-- A served call breaks the promise, whatever it is and whatever comes of it. -/
theorem not_neverAccepts_of_served {d : Daemon} {e : Event} {j : Journal} (hd : d.Judged)
    (hserved : Served d e) : ¬NeverAccepts j d e := by
  intro h
  obtain ⟨hserving, m, fate, rfl⟩ := hserved
  obtain ⟨message, context, hreply⟩ := (h.rejects m fate rfl hserving).status
  have hran := m.ran fate d.world
  cases hrun : m.run fate d.world with
  | ok response w' => rw [hrun] at hreply; cases hreply
  | error x w' =>
    rw [hrun] at hreply hran
    cases x with
    | shim s =>
      refine hran.ne_readOnlyBook hd.journal ?_
      simp only [replyOf, statusFromException, ShimError.toStatus, packStatus, Reply.error.injEq,
        Status.error.injEq, ErrorDetail.mk.injEq] at hreply
      exact hreply.2.2.1
    | queueFull => simp [replyOf, statusFromException, packStatus] at hreply
    | workerStopped => simp [replyOf, statusFromException, packStatus] at hreply
    | other what =>
      simp [replyOf, statusFromException, ShimError.toStatus, packStatus] at hreply
    | killed => simp [replyOf, statusFromException] at hreply

/-- An event other than a served call keeps it, given that every unresolved record is one
of the first start's. -/
theorem neverAccepts_of_not_served {d : Daemon} {e : Event} {j : Journal} (hd : d.Down)
    (hold : ∀ row, d.world.journal.Unresolved row → j.Unresolved row) (hserved : ¬Served d e) :
    NeverAccepts j d e ∧ ∀ row, (d.step e).world.journal.Unresolved row → j.Unresolved row := by
  have rejects : ∀ m fate, e = .mutate m fate → d.serving = true → m.Rejected fate d.world := by
    intro m fate he hserving
    exact absurd ⟨hserving, m, fate, he⟩ hserved
  rcases hd.step_journal e with hsame | ⟨m, fate, he, hserving, -⟩ |
    ⟨fate, o, settled, rest, -, -, hsplit, hrec⟩
  · refine ⟨⟨rejects, fun id hok => Or.inl (hsame ▸ hok)⟩, fun row hrow => hold row (hsame ▸ hrow)⟩
  · exact absurd ⟨hserving, m, fate, he⟩ hserved
  · refine ⟨⟨rejects, fun id hok => ?_⟩, fun row hrow => hold row (hrec.unresolved hrow)⟩
    rcases hrec.recordedOk hok with h | ⟨entry, hentry, hid⟩
    · exact Or.inl h
    · right
      have hmem : entry ∈ d.world.journal.listPendingUnresolved.map Journal.pendingEntry := by
        rw [hsplit]
        exact List.mem_append_left _ hentry
      obtain ⟨row, hrow, rfl⟩ := List.mem_map.mp hmem
      exact ⟨row, hold row (Journal.mem_listPendingUnresolved.mp hrow), hid⟩

/-- **A read-only daemon keeps its promise exactly as long as it serves no mutating RPC**,
whatever the daemon did before it was started with `--read-only`. -/
theorem neverAccepts_iff_none_served (config : Config) (b₀ : Book) (es events : List Event) :
    Machine.Along Daemon.step (NeverAccepts ((Daemon.fresh config b₀).run es).world.journal)
        ((Daemon.fresh config b₀).run es).readOnly events ↔
      Machine.Along Daemon.step (fun d e => ¬Served d e)
        ((Daemon.fresh config b₀).run es).readOnly events := by
  obtain ⟨hjournal, hdown⟩ := Daemon.Judged.run config b₀ es
  generalize (Daemon.fresh config b₀).run es = d at hjournal hdown ⊢
  constructor
  · intro h
    refine h.imp (I := Daemon.Judged) ⟨hjournal, hdown⟩ (fun d e hd _ => hd.step e) ?_
    intro d' e hd' hnever hserved
    exact not_neverAccepts_of_served hd' hserved hnever
  · intro h
    refine h.imp (I := fun d' => d'.Down ∧
      ∀ row, d'.world.journal.Unresolved row → d.world.journal.Unresolved row)
      ⟨hdown, fun row hrow => hrow⟩ ?_ ?_
    · intro d' e hinv hserved
      obtain ⟨hd', hold⟩ := hinv
      exact ⟨hd'.step e, (neverAccepts_of_not_served hd' hold hserved).2⟩
    · intro d' e hinv hserved
      obtain ⟨hd', hold⟩ := hinv
      exact (neverAccepts_of_not_served hd' hold hserved).1

end ReadOnly

section Post

open Reference

attribute [local instance] Reference.engine Reference.wire

/-- The error the engine reports for a commit to a read-only book. -/
def readOnlyBackend : SessionError := ⟨.readOnly, "The book is read-only"⟩

/-- A read-only daemon answers a post with OK and records it as done. -/
theorem readOnly_post_ok :
    let d := (Daemon.fresh config book).readOnly.step (.start (starts []))
    let fate := { calm 16 with finalStep := .declines readOnlyBackend }
    d.world.config.readOnly = true ∧ d.serving = true ∧
      (replyOf ((post '1' 100).run fate d.world)).isOk = true ∧
      (d.step (.mutate (post '1' 100) fate)).world.journal.RecordedOk (mutationId '1') ∧
      ¬Machine.Along Daemon.step (NeverAccepts Journal.empty) (Daemon.fresh config book).readOnly
        [.start (starts []), .mutate (post '1' 100) fate] := by
  intro d fate
  have hok : (replyOf ((post '1' 100).run fate d.world)).isOk = true := by decide +kernel
  refine ⟨by decide +kernel, by decide +kernel, hok, by decide +kernel, fun h => ?_⟩
  obtain ⟨message, context, hreply⟩ :=
    (h.2.1.rejects (post '1' 100) fate rfl (by decide +kernel)).status
  have hreply : replyOf ((post '1' 100).run fate d.world) = _ := hreply
  rw [hreply] at hok
  cases hok

end Post

end Daichod
