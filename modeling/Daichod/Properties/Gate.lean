import Daichod.Reference

/-!
# Daichod.Properties.Gate

**The start-up gate.** `Run` opens the book, checks it and reconciles the pending records
before it serves, so the book of a start is gated (`startUp_gated`). The `OpenBook` handler
only opens: after a `CloseBook` it puts a book in place, possibly another one, that nobody
has checked or reconciled. These two are all the ways to a session, so the book is gated
exactly as long as `OpenBook` never opens it (`gated_iff_not_reopened`).

## Proof shape

Two marks on the session say whether its book was checked and reconciled since it was opened; no
code reads them. A start sets both, opening clears both, and every other event leaves them
(`gated_step`).
-/

namespace Daichod

section Gate

variable [Wire] [Engine] {w : World} {d : Daemon}

/-- Whoever asks the session for the book gets one that was checked and reconciled since it
was opened. -/
def GatedBook (w : World) : Prop :=
  ∀ b w', Session.book w = .ok b w' →
    ∃ s, w.session = some s ∧ s.checked = true ∧ s.reconciled = true

omit [Engine] in
/-- The gate is about the marks of the session. -/
theorem gatedBook_iff :
    GatedBook w ↔ ∀ s, w.session = some s → s.checked = true ∧ s.reconciled = true := by
  unfold GatedBook
  rw [Session.run_book]
  cases hs : w.session with
  | none =>
    simp
  | some s =>
    constructor
    · intro h s' hs'
      obtain ⟨s'', hs'', hgated⟩ := h w.book w (by simp)
      obtain rfl := Option.some.inj (hs'.symm.trans hs'')
      exact hgated
    · intro h b w' _
      exact ⟨s, rfl, h s rfl⟩

omit [Engine] in
/-- With no session there is no book to be gated. -/
theorem gatedBook_of_none (h : w.session = none) : GatedBook w := by
  rw [gatedBook_iff]
  intro s hs
  rw [h] at hs
  cases hs

/-- The gate survives the loss of all but the marks of the session. -/
theorem GatedBook.ran {m : Mutation} {fate : Fate} (h : GatedBook w) :
    GatedBook (worldAfter (m.run fate w)) := by
  rw [gatedBook_iff] at h ⊢
  intro s hs
  rcases (m.ran fate w).session with hsame | ⟨error, herror⟩
  · exact h s (hsame ▸ hs)
  · rw [herror] at hs
    obtain ⟨s', hs', rfl⟩ := Option.map_eq_some_iff.mp hs
    exact h s' hs'

/-! ### A start

A start ends well only if all its steps did, and each step that ends well has set its mark. -/

/-- Checks that pass mark the session as checked. -/
theorem runStartupChecks_checked {listing : Session.SplitListing} {u : Unit} {w' : World}
    (h : Session.runStartupChecks listing w = .ok u w') :
    w'.session = w.session.map ({ · with checked := true }) := by
  unfold Session.runStartupChecks at h
  obtain ⟨b, w₁, hbook, h⟩ := run_bind_eq_ok h
  obtain ⟨u₁, w₂, hchecks, h⟩ := run_bind_eq_ok h
  rw [Session.run_book] at hbook
  split at hbook
  · cases hbook
  · cases hbook
    cases hverdict : Session.startupChecks listing with
    | error e => rw [hverdict] at hchecks; cases hchecks
    | ok u₂ =>
      rw [hverdict] at hchecks
      cases hchecks
      cases h
      rfl

/-- A reconciliation that returns marks it as reconciled. -/
theorem reconcileBook_reconciled {fate : ReconcileFate} {u : Unit} {w' : World}
    (h : reconcileBook fate w = .ok u w') :
    w'.session = w.session.map ({ · with reconciled := true }) := by
  unfold reconcileBook at h
  obtain ⟨b, w₁, hbook, hrest⟩ := run_bind_eq_ok h
  obtain ⟨n, w₂, hreconcile, hmark⟩ := run_bind_eq_ok hrest
  rw [Session.run_book] at hbook
  split at hbook
  · cases hbook
  · cases hbook
    obtain ⟨-, -, j, -, -, hworld, -⟩ := reconcilePendingMutations_ran fate w.book w
    rw [hreconcile] at hworld
    have hw₂ : w₂ = w.setJournal j := hworld
    cases hmark
    rw [hw₂]
    rfl

/-- **A start gates the book.** -/
theorem startUp_gated {fate : StartFate} {u : Unit} {w' : World}
    (h : startUp fate w = .ok u w') : GatedBook w' := by
  unfold startUp at h
  obtain ⟨-, w₁, -, h₁⟩ := run_bind_eq_ok h
  obtain ⟨-, w₂, -, h₂⟩ := run_bind_eq_ok h₁
  obtain ⟨_, w₃, hchecked, h₃⟩ := run_bind_eq_ok h₂
  obtain ⟨_, w₄, hreconciled, h₄⟩ := run_bind_eq_ok h₃
  obtain ⟨rows, w₅, hlist, h₅⟩ := run_bind_eq_ok h₄
  have hsame := Journal.indeterminate_world fate.listFault w₄
  rw [hlist] at hsame
  cases h₅
  have hw' : w' = w₄ := hsame
  rw [gatedBook_iff, hw', reconcileBook_reconciled hreconciled, runStartupChecks_checked hchecked]
  intro s hs
  obtain ⟨s₁, hs₁, rfl⟩ := Option.map_eq_some_iff.mp hs
  obtain ⟨s₂, -, rfl⟩ := Option.map_eq_some_iff.mp hs₁
  exact ⟨rfl, rfl⟩

/-! ### Runs

One event at a time: only an `OpenBook` that opens the book takes the marks away. -/

/-- An `OpenBook` that opens the book. -/
def Reopens (d : Daemon) (e : Event) : Prop :=
  d.serving = true ∧ d.world.session = none ∧
    ∃ fate, e = .openBook fate ∧ Session.Opens fate d.world.config

/-- Opening a closed book leaves it ungated. -/
theorem not_gatedBook_of_reopens {e : Event} (h : Reopens d e) :
    (d.step e).serving = true ∧ ¬GatedBook (d.step e).world := by
  obtain ⟨hserving, hnone, fate, rfl, hopens⟩ := h
  rcases Session.open_cases fate d.world with ⟨hsome, -⟩ | ⟨-, hnot, -⟩ | ⟨-, -, hrun⟩
  · rw [hnone] at hsome
    cases hsome
  · exact absurd hopens hnot
  · have hstep : d.step (.openBook fate) = ⟨{ d.world.load fate.loadOrder with
        session := some { error := none, checked := false, reconciled := false } }, true⟩ := by
      simp only [Daemon.step, hserving, if_true, openBook]
      rw [run_bind_ok hrun, Session.run_book]
      rfl
    rw [hstep]
    refine ⟨rfl, fun hgated => ?_⟩
    obtain ⟨hchecked, -⟩ := gatedBook_iff.mp hgated _ rfl
    cases hchecked

omit [Engine] in
/-- Any other `OpenBook` leaves the session as it is. -/
theorem openBook_session {fate : OpenFate} (h : w.session = none → ¬Session.Opens fate w.config) :
    (worldAfter (openBook fate w)).session = w.session := by
  unfold openBook
  rcases Session.open_cases fate w with ⟨-, hrun⟩ | ⟨-, -, e, hrun⟩ | ⟨hnone, hopens, -⟩
  · rw [run_bind_ok hrun, Session.run_book]
    split <;> rfl
  · rw [run_bind_error hrun]
    rfl
  · exact absurd hopens (h hnone)

/-- **One event** other than a reopening keeps the book gated. -/
theorem gated_step {e : Event} (h : d.serving = true → GatedBook d.world) (hreopens : ¬Reopens d e)
    (hserving' : (d.step e).serving = true) : GatedBook (d.step e).world := by
  have task : ∀ {α : Type} {r : EStateM.Result Exn World α}, GatedBook (worldAfter r) →
      GatedBook (Daemon.afterTask r).world := by
    intro α r hr
    cases r with
    | ok a w => exact hr
    | error x w =>
      cases x with
      | killed => exact gatedBook_of_none World.die_session
      | _ => exact hr
  have sameSession : ∀ {w' : World}, w'.session = d.world.session → GatedBook d.world →
      GatedBook w' := by
    intro w' hsame hgated
    rw [gatedBook_iff, hsame]
    exact gatedBook_iff.mp hgated
  cases hserving : d.serving with
  | true =>
    replace h := h hserving
    cases e with
    | start fate => simpa only [Daemon.step, hserving, if_true] using h
    | mutate m fate =>
      simp only [Daemon.step, hserving, if_true]
      exact task h.ran
    | openBook fate =>
      simp only [Daemon.step, hserving, if_true]
      refine task (sameSession (openBook_session fun hnone hopens => ?_) h)
      exact hreopens ⟨hserving, hnone, fate, rfl, hopens⟩
    | closeBook fate =>
      simp only [Daemon.step, hserving, if_true]
      refine task ?_
      rcases Session.close_cases fate d.world with ⟨-, hrun⟩ | ⟨-, -, hworld⟩ | ⟨-, -, -, hrun⟩
      · rw [hrun]
        exact h
      · rw [hworld]
        exact gatedBook_of_none rfl
      · rw [hrun]
        exact gatedBook_of_none rfl
    | terminate fate => simp [Daemon.step, hserving] at hserving'
    | kill => simp [Daemon.step] at hserving'
    | restore book =>
      simp only [Daemon.step]
      split
      · exact sameSession rfl h
      · exact h
  | false =>
    -- Only a start brings a process up.
    cases e with
    | start fate =>
      simp only [Daemon.step, hserving, Bool.false_eq_true, if_false] at hserving' ⊢
      cases hup : startUp fate d.world with
      | ok u w' => exact startUp_gated hup
      | error x w' => rw [hup] at hserving'; cases hserving'
    | kill => simp [Daemon.step] at hserving'
    | restore book =>
      simp only [Daemon.step] at hserving'
      split at hserving'
      · rw [hserving] at hserving'; cases hserving'
      · rw [hserving] at hserving'; cases hserving'
    | _ => simp [Daemon.step, hserving] at hserving'

/-- **The book is gated exactly as long as `OpenBook` opens none**: in every state of every
run, a serving daemon hands out no book but a gated one, if and only if no `OpenBook` of
the run opened a closed book. -/
theorem gated_iff_not_reopened (config : Config) (b₀ : Book) (events : List Event) :
    (∀ es, es <+: events → ((Daemon.fresh config b₀).run es).serving = true →
      GatedBook ((Daemon.fresh config b₀).run es).world) ↔
    Machine.Along Daemon.step (fun d e => ¬Reopens d e) (Daemon.fresh config b₀) events := by
  constructor
  · intro h
    rw [Machine.along_iff_forall]
    intro es e hes hreopens
    obtain ⟨hserving, hungated⟩ := not_gatedBook_of_reopens hreopens
    have hrun : (Daemon.fresh config b₀).run (es ++ [e])
        = ((Daemon.fresh config b₀).run es).step e := Machine.run_concat
    rw [← hrun] at hserving hungated
    exact hungated (h (es ++ [e]) hes hserving)
  · intro h es hprefix
    obtain ⟨rest, hes⟩ := hprefix
    rw [← hes, Machine.along_append] at h
    refine h.1.invariant (I := fun d => d.serving = true → GatedBook d.world) ?_ ?_
    · intro hserving
      cases hserving
    · intro d e hgated hreopens
      exact gated_step hgated hreopens

end Gate

section Restore

open Reference

attribute [local instance] Reference.engine Reference.wire

/-- A cent that comes from nowhere. -/
def lostCent : Split where
  guid := 5
  account := 2
  value := ⟨1, 100⟩
  amount := ⟨1, 100⟩
  memo := ""
  action := ""
  reconcile := 'n'
  destroying := false

/-- A transaction of one split. -/
def imbalanced : Transaction where
  currency := some usd.name
  postDate := none
  enterTime := 0
  num := ""
  description := ""
  splits := [lostCent]
  readOnly := false
  destroying := false

/-- A book that no start accepts. -/
def imbalancedBook : Book := book.setEntities (book.entities.insert (.transaction 4) imbalanced)

example : (Session.startupChecks [((4, imbalanced), lostCent)]).isOk = false := by decide +kernel

/-- The daemon, after such a book was put in place and opened. -/
def restored : Daemon :=
  started.run [.closeBook ⟨none⟩, .restore imbalancedBook, .openBook opens]

/-- It serves the book that it would not have started on. -/
theorem restored_serves_imbalanced :
    restored.serving = true ∧ restored.world.book = imbalancedBook ∧
      (replyOf ((post '1' 100).run (calm 16) restored.world)).isOk = true ∧
      ¬GatedBook restored.world := by
  refine ⟨by decide +kernel, by decide +kernel, by decide +kernel, ?_⟩
  rw [gatedBook_iff]
  intro h
  have hsession : restored.world.session = some ⟨none, false, false⟩ := by decide +kernel
  obtain ⟨hchecked, -⟩ := h _ hsession
  cases hchecked

end Restore

end Daichod
