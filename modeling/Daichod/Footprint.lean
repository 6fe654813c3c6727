import Daichod.Books
import Daichod.Rpc.Results

/-!
# Daichod.Footprint

Which objects a mutation may change (`Mutation.Touches`), read off the request: the object it
names or creates, for an account also the transactions that its commodity rounds, for a price
the other prices of the day. Every other object is framed: the mutation leaves it as it is
(`plan_frame`), and any stretch of an orderly run that does not touch it leaves it as it is up
to the order of its splits, which a load of the book decides anew (`Along.untouched`).
-/

namespace Daichod

section Footprint

variable [Engine]

/-- An account, or a transaction with a split in it. -/
def TouchesAccount (b : Book) (g : Guid) (ref : EntityRef) : Prop :=
  ref = .account g ∨ ref ∈ splitTransactions b.entities g

instance (b : Book) (g : Guid) (ref : EntityRef) : Decidable (TouchesAccount b g ref) :=
  inferInstanceAs (Decidable (_ ∨ _))

/-- The text names an object that the reference is one of the objects of. -/
def Named (text : String) (P : Guid → Prop) : Prop := ∃ g ∈ parseGuid text, P g

instance (text : String) (P : Guid → Prop) [DecidablePred P] : Decidable (Named text P) :=
  inferInstanceAs (Decidable (∃ g ∈ parseGuid text, P g))

/-- The mutation may change the object. -/
def Mutation.Touches (fate : Fate) (b : Book) (ref : EntityRef) : Mutation → Prop
  | .createAccount _ => TouchesAccount b (fate.newGuid 0) ref
  | .updateAccount request => Named request.account.guid (TouchesAccount b · ref)
  | .deleteAccount request => Named request.guid (ref = .account ·)
  | .setReconcileInfo request => Named request.accountGuid (ref = .account ·)
  | .postTransaction _ => ref = .transaction (fate.newGuid 0)
  | .updateTransaction request => Named request.transaction.guid (ref = .transaction ·)
  | .deleteTransaction request => Named request.guid (ref = .transaction ·)
  | .addPrice _ => ∃ g, ref = .price g

instance (ref : EntityRef) : Decidable (∃ g, ref = .price g) :=
  match ref with
  | .account _ => isFalse nofun
  | .transaction _ => isFalse nofun
  | .price g => isTrue ⟨g, rfl⟩

instance (fate : Fate) (b : Book) (ref : EntityRef) :
    (m : Mutation) → Decidable (m.Touches fate b ref)
  | .createAccount _ => inferInstanceAs (Decidable (TouchesAccount ..))
  | .updateAccount _ => inferInstanceAs (Decidable (Named ..))
  | .deleteAccount _ => inferInstanceAs (Decidable (Named ..))
  | .setReconcileInfo _ => inferInstanceAs (Decidable (Named ..))
  | .postTransaction _ => inferInstanceAs (Decidable (_ = _))
  | .updateTransaction _ => inferInstanceAs (Decidable (Named ..))
  | .deleteTransaction _ => inferInstanceAs (Decidable (Named ..))
  | .addPrice _ => inferInstanceAs (Decidable (∃ g, ref = .price g))

/-! ### The frame of an edit

A plan ends in one of three kinds of edit, and each writes around one object: an edit in place at
its target, a destruction at the one it destroys, and a price at the prices. What is left is to
see that the change inside such an edit stays there as well, which takes a look only at the
setters of an account, for the commodity's setter rounds the splits of transactions. -/

section Frame

variable {Response : Type} {fate : Fate} {b : Book} {ref target : EntityRef}

omit [Engine] in
/-- An edit of one object in place leaves what its change leaves, but for that object. -/
theorem Edit.after_inPlace_lookup {joins : Finmap Entity → Finset EntityRef}
    {change : Finmap Entity → Finmap Entity} {response : Response} (hne : ref ≠ target) :
    ((inPlace target joins change response).after b).entities.lookup ref
      = (change b.entities).lookup ref := by
  rw [after_inPlace]
  exact lookup_settle_ne hne

omit [Engine] in
/-- Nor does destroying an object change another one, but through the change before it. -/
theorem Edit.after_destroy_lookup {change : Finmap Entity → Finmap Entity} (hne : ref ≠ target) :
    ((destroy target change).after b).entities.lookup ref = (change b.entities).lookup ref := by
  rw [after_destroy]
  exact lookup_settle_ne hne

omit [Engine] in
/-- Setting an account leaves alone what it does not touch. -/
theorem lookup_setAccount_of_not_touches {t : Finmap Entity} {g parent : Guid}
    {spec : Shim.Account} {type : GNCAccountType} {commodity : Commodity}
    (hne : ref ≠ .account g) (hsplit : ref ∉ splitTransactions t g) :
    (setAccount g spec type commodity parent t).lookup ref = t.lookup ref := by
  refine lookup_setAccount_of_not_mem fun hmem => ?_
  rcases Finset.mem_insert.mp hmem with h | h
  · exact hne h
  · unfold setCommodityJoins at h
    split at h
    · cases h
    · -- The transactions with a split in the account are those of before.
      refine hsplit ?_
      cases ref with
      | account g' => simp [splitTransactions] at h
      | price g' => simp [splitTransactions] at h
      | transaction g' =>
        rw [mem_splitTransactions] at h ⊢
        rwa [lookup_editAccount_ne _ (by simp)] at h

/-- A text that names an object outside a set is outside. -/
theorem not_of_not_named {text : String} {g : Guid} {P : Guid → Prop}
    (hg : Engine.stringToGuid (cStr text) = some g) (hnot : ¬Named text P) : ¬P g :=
  fun hP => hnot ⟨g, hg, hP⟩

/-- **Frame rule.** A mutation leaves the objects it does not touch as they are. -/
theorem plan_frame [Wire] {m : Mutation} {edit : Edit m.Response}
    (h : m.plan fate b = .ok edit) (hapart : ¬m.Touches fate b ref) :
    (edit.after b).entities.lookup ref = b.entities.lookup ref := by
  -- Request by request: the plan's inversion gives the edit, the footprint that its target is
  -- another object.
  cases m with
  | createAccount request =>
    obtain ⟨parent, type, commodity, -, -, -, rfl⟩ := plan_createAccount_ok h
    obtain ⟨hne, hsplit⟩ := not_or.mp hapart
    rw [createAccountEdit, Edit.after_inPlace_lookup hne, lookup_setAccount_of_not_touches hne,
      Finmap.lookup_insert_of_ne _ hne]
    -- The new account adds no transaction.
    cases ref with
    | account g => simp [splitTransactions]
    | price g => simp [splitTransactions]
    | transaction g =>
      rw [mem_splitTransactions] at hsplit ⊢
      rwa [Finmap.lookup_insert_of_ne _ hne]
  | updateAccount request =>
    obtain ⟨g, type, commodity, parent, hfind, -, -, -, -, -, rfl⟩ := plan_updateAccount_ok h
    obtain ⟨hne, hsplit⟩ := not_or.mp (not_of_not_named (findAccount_ok hfind).1 hapart)
    rw [updateAccountEdit, Edit.after_inPlace_lookup hne,
      lookup_setAccount_of_not_touches hne hsplit]
  | deleteAccount request =>
    obtain ⟨g, hfind, -, -, rfl⟩ := plan_deleteAccount_ok h
    have hne := not_of_not_named (findAccount_ok hfind).1 hapart
    rw [deleteAccountEdit, Edit.after_destroy_lookup hne, lookup_editAccount_ne _ hne]
  | setReconcileInfo request =>
    obtain ⟨g, lastDate, date, hfind, -, -, rfl⟩ := plan_setReconcileInfo_ok h
    have hne := not_of_not_named (findAccount_ok hfind).1 hapart
    rw [setReconcileInfoEdit, Edit.after_inPlace_lookup hne, lookup_editAccount_ne _ hne]
  | postTransaction request =>
    obtain ⟨plan, -, rfl⟩ := plan_postTransaction_ok h
    have hne : ref ≠ .transaction (fate.newGuid 0) := hapart
    rw [postTransactionEdit, Edit.after_inPlace_lookup hne, lookup_editTransaction_ne _ hne,
      Finmap.lookup_insert_of_ne _ hne]
  | updateTransaction request =>
    obtain ⟨g, plan, hfind, -, rfl⟩ := plan_updateTransaction_ok h
    have hne := not_of_not_named (findTransaction_ok hfind).1 hapart
    rw [updateTransactionEdit, Edit.after_inPlace_lookup hne, lookup_editTransaction_ne _ hne]
  | deleteTransaction request =>
    obtain ⟨g, hfind, rfl⟩ := plan_deleteTransaction_ok h
    have hne := not_of_not_named (findTransaction_ok hfind).1 hapart
    rw [deleteTransactionEdit, Edit.after_destroy_lookup hne, lookup_editTransaction_ne _ hne]
  | addPrice request =>
    obtain ⟨_, _, _, _, _, -, -, -, -, -, -, rfl⟩ := plan_addPrice_ok h
    have hne : ∀ g, ref ≠ .price g := not_exists.mp hapart
    -- A price can replace one of the same day, whichever that is, so a request for a price touches
    -- all prices.
    rw [Edit.after_price]
    show (gncPricedbAddPrice _ _).lookup ref = _
    rw [lookup_gncPricedbAddPrice_ne hne, Finmap.lookup_insert_of_ne _ (hne _)]

end Frame

/-! ### Runs that leave objects alone

The frame rule, carried along a run by the events' own case distinction: an event of an orderly
run keeps the book, loads it, or applies an edit, and an edit of a mutation that does not touch
the objects is framed. Loads list the splits anew, so that along them the objects are the same up
to that order only. -/

section Runs

variable [Wire] {S : EntityRef → Prop}

/-- The event is orderly, and no mutation that touches one of the objects. -/
def Daemon.Apart (S : EntityRef → Prop) (d : Daemon) (e : Event) : Prop :=
  e.Orderly ∧ ∀ m fate, e = .mutate m fate → ∀ ref, S ref → ¬m.Touches fate d.world.book ref

/-- **One event**: it loads the book, or leaves the objects as they are. -/
theorem Daemon.Apart.step {d : Daemon} {e : Event} {b : Book} (h : d.Apart S e)
    (hholds : d.world.Holds b) :
    (∃ o, e.loadOrder = some o ∧ (d.step e).world.Holds (b.relist o)) ∨
      ∃ b', (d.step e).world.Holds b' ∧
        (b'.rootAccount, b'.commodities) = (b.rootAccount, b.commodities) ∧
        ∀ ref, S ref → b'.entities.lookup ref = b.entities.lookup ref := by
  obtain ⟨horderly, htouches⟩ := h
  rcases Daemon.step_holds hholds horderly with hstays | hloaded | ⟨m, fate, edit, rfl, hvalid, hafter⟩
  · exact Or.inr ⟨b, hstays, rfl, fun _ _ => rfl⟩
  · exact Or.inl hloaded
  · have hplan := (Mutation.validated_ok hvalid).2.2
    have hnot := htouches m fate rfl
    rw [hholds.book] at hplan hnot
    exact Or.inr ⟨edit.after b, hafter, rfl, fun ref href => plan_frame hplan (hnot ref href)⟩

/-- **A stretch of a run** that does not touch the objects leaves them as they are, in memory
and in the database, up to the order of their splits. -/
theorem Along.untouched {d : Daemon} {b : Book} {events : List Event} (hholds : d.world.Holds b)
    (hapart : Machine.Along Daemon.step (Daemon.Apart S) d events) :
    ∃ b', (d.run events).world.Holds b' ∧ SameOn S b b' := by
  refine hapart.invariant (I := fun d => ∃ b', d.world.Holds b' ∧ SameOn S b b')
    ⟨b, hholds, rfl, fun ref _ => .refl ref _⟩ ?_
  rintro d e ⟨b', hb', hsame⟩ hapart
  -- A load relists the objects, anything else leaves them as they are.
  rcases hapart.step hb' with ⟨o, -, hloaded⟩ | ⟨b'', hb'', hheader, hobjects⟩
  · exact ⟨b'.relist o, hloaded, hsame.trans ((Book.relisted_relist o b').sameOn S)⟩
  · refine ⟨b'', hb'', hheader.trans hsame.header, fun ref href => ?_⟩
    rw [hobjects ref href]
    exact hsame.objects ref href

end Runs

end Footprint

end Daichod
