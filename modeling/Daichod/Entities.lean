import Daichod.Memory

/-!
# Daichod.Entities

Properties of single entities over whole runs. A property that the planned edits establish
and nothing else breaks (`Entity.Steady`) holds of every entity in every state of every run,
in memory and in the database, whatever is left open, declined or killed in it
(`Entity.Steady.run`): edits put entities into the store, and all else moves them between its
two copies.

## Proof shape

There are three ways for an entity to get into the store: an edit writes it, a load lists its
splits anew, and another file brings it. `Entity.Kept` asks that the engine's own changes to an
entity keep the property (marking it destroyed, settling it, reordering its splits), and
`Entity.Steady` adds what the plans of the mutations write. Everything else copies whole entities
between the two copies of the store, which `EditStore.All` gets through. The invariant speaks of
the entities one by one, so it needs no assumption on how a call ends: an edit left open half way
has put proper entities into memory.
-/

namespace Daichod

variable [Engine]

/-- A property of transactions and prices that every change but a plan keeps. -/
structure Entity.Kept (P : ∀ ref, Entity ref → Prop) : Prop where
  account : ∀ g a, P (.account g) a
  destroyed : ∀ g (t : Transaction), P (.transaction g) t → P (.transaction g) t.destroy
  settled : ∀ g (t : Transaction), P (.transaction g) t →
    P (.transaction g) { t with splits := t.liveSplits }
  rerounded : ∀ g (t : Transaction) account (commodity : Commodity), P (.transaction g) t →
    P (.transaction g) (t.reround account commodity.fraction)
  priced : ∀ g commodity currency date value source, 0 < value.denom.toInt →
    P (.price g) (newPrice commodity currency date value source)
  listed : ∀ g (p : Price), P (.price g) p → P (.price g) { p with inDb := true }
  relisted : ∀ g (t r : Transaction), t.Relisted r → P (.transaction g) t → P (.transaction g) r

/-- A property that plans keep as well: a planned edit gives it to what it makes, and all later
changes of it keep it. -/
structure Entity.Steady (P : ∀ ref, Entity ref → Prop) : Prop extends Entity.Kept P where
  planned : ∀ now book spec existing plan, planTransaction now book spec existing = .ok plan →
    ∀ newGuid g t, t = Transaction.blank ∨ P (.transaction g) t →
      P (.transaction g) (applyPlan newGuid book plan t)

/-- The transaction that a request spells out. -/
def Mutation.transactionSpec : Mutation → Option Shim.Transaction
  | .postTransaction request => some request.transaction
  | .updateTransaction request => some request.transaction
  | _ => none

namespace Entity.Kept

variable {P : ∀ ref, Entity ref → Prop} (hP : Entity.Kept P) {t : Finmap Entity}
  {s s' : EditStore Entity} {ref : EntityRef}
include hP

/-! ### Changes of a table

Every function that an edit is made of, and every load, takes a table whose entities have the
property to another one. For accounts nothing is asked, so that only what the setters of an
account do to transactions, and what a price does to the prices of its day, needs the fields of
`Kept`. -/

/-- Settling a transaction rewrites it in place. -/
theorem settle (h : t.All P) (ref : EntityRef) : (Daichod.settle ref t).All P := by
  refine h.assign fun e he => ?_
  obtain ⟨e₀, he₀, hsettle⟩ := Option.mem_bind_iff.mp he
  have hold := h ref e₀ he₀
  cases ref with
  | account g => exact hP.account g e
  | transaction g =>
    simp only [Entity.settle, Option.mem_def] at hsettle
    split at hsettle
    · cases hsettle
    · cases hsettle
      exact hP.settled g _ hold
  | price g =>
    cases hsettle
    exact hold

/-- What is done to an account keeps the property of it. -/
theorem editAccount (h : t.All P) (guid : Guid) (f : Account → Account) :
    (editAccount guid f t).All P := by
  unfold Daichod.editAccount
  split
  · exact h.insert (hP.account _ _)
  · exact h

/-- The setter of the commodity also rewrites the splits of the account. -/
theorem setCommodity (h : t.All P) (guid : Guid) (commodity : Commodity) :
    (setCommodity guid commodity t).All P := by
  unfold Daichod.setCommodity
  split
  · exact h
  · refine (hP.editAccount h guid _).mapVals fun ref e he => ?_
    cases ref with
    | account g => exact he
    | transaction g => exact hP.rerounded g e guid commodity he
    | price g => exact he

/-- All setters of an account, one after the other. -/
theorem setAccount (h : t.All P) (guid : Guid) (spec : Shim.Account) (type : GNCAccountType)
    (commodity : Commodity) (parent : Guid) : (setAccount guid spec type commodity parent t).All P :=
  hP.editAccount (hP.setCommodity (hP.editAccount h guid _) guid commodity) guid _

omit [Engine] hP in
/-- Changing a transaction asks that the change keeps the property. -/
theorem editTransaction (h : t.All P) {guid : Guid} {f : Transaction → Transaction}
    (hf : ∀ tx : Transaction, P (.transaction guid) tx → P (.transaction guid) (f tx)) :
    (editTransaction guid f t).All P := by
  unfold Daichod.editTransaction
  split
  · next tx htx => exact h.insert (hf tx (h (.transaction guid) tx htx))
  · exact h

/-- Adding a price can destroy one that it replaces. -/
theorem gncPricedbAddPrice (h : t.All P) (guid : Guid) : (gncPricedbAddPrice guid t).All P := by
  unfold Daichod.gncPricedbAddPrice
  cases hprice : (t.lookup (.price guid) : Option Price) with
  | none => exact h
  | some price =>
    dsimp only
    split
    · exact h.erase
    · exact (Finmap.All.empty.overlay h _).insert (hP.listed guid price (h _ price hprice))

/-- A load, in whatever order of the splits. -/
theorem relist (h : t.All P) (o : LoadOrder) : (t.mapVals o.entity).All P := by
  refine h.mapVals fun ref e he => ?_
  cases ref with
  | account g => exact he
  | transaction g => exact hP.relisted g e _ (o.transaction_relisted g e) he
  | price g => exact he

/-- What the engine reads of the same book. -/
theorem of_relisted {b b' : Book} (h : b.entities.All P) (hlisted : b.Relisted b') :
    b'.entities.All P := by
  obtain ⟨o, rfl⟩ := Book.relisted_iff.mp hlisted
  exact hP.relist h o

/-- What is loaded is what was stored, in some order. -/
theorem load (h : s.All P) (o : LoadOrder) : (s.load o.entity).All P :=
  .ofTable (hP.relist h.durable o)

/-! ### Where an edit can end -/

/-- Leaving an edit moves values between the copies only. -/
theorem decrementEditlevel (h : s.All P) (ref : EntityRef) :
    (decrementEditlevel ref s).All P := by
  unfold Daichod.decrementEditlevel
  dsimp only
  split
  · exact h.close
  · exact h.close.write fun hworking => hP.settle hworking ref

/-- An edit that changes objects in place, however far it gets. -/
theorem ends_inPlace {Response : Type} {joins : Finmap Entity → Finset EntityRef}
    {change : Finmap Entity → Finmap Entity} {response : Response}
    (h : (Edit.inPlace ref joins change response).Ends s s') (hs : s.All P)
    (hchange : (change s.working).All P) : s'.All P := by
  have hopening : ((Edit.inPlace ref joins change response).opening s).All P := by
    refine (hs.beginEdit.join _).write fun _ => ?_
    rw [EditStore.join_working]
    exact hchange
  cases h with
  | opened => exact hopening
  | marked => exact hopening
  | committed => exact (hP.decrementEditlevel hopening ref).flush
  | rolledBack => exact (hP.decrementEditlevel hopening ref).revert

/-- An edit that destroys its object, however far it gets. -/
theorem ends_destroy {change : Finmap Entity → Finmap Entity}
    (h : (Edit.destroy ref change).Ends s s') (hs : s.All P) (hchange : (change s.working).All P) :
    s'.All P := by
  have hmarking : ((Edit.destroy ref change).marking s).All P := hs.beginEdit.write fun _ => hchange
  cases h with
  | opened => exact hs
  | marked => exact hmarking
  | committed => exact (hP.decrementEditlevel hmarking ref).flush
  | rolledBack => exact (hP.decrementEditlevel hmarking ref).revert

/-- An edit that adds a price, however far it gets. -/
theorem ends_price {guid : Guid} {p : Price} (h : (Edit.price guid p).Ends s s') (hs : s.All P)
    (hp : P (.price guid) p) : s'.All P := by
  have hopening : ((Edit.price guid p).opening s).All P :=
    hs.beginEdit.write fun hworking => hworking.insert hp
  cases h with
  | opened => exact hopening
  | marked => exact hopening
  | committed => exact (hopening.close.write fun h => hP.gncPricedbAddPrice h guid).flush
  | rolledBack => exact hopening.close.revert

/-- **One edit**, wherever it ends, if the property is what its plan gives to the transaction it
is about. -/
theorem ends [Wire] {m : Mutation} {fate : Fate} {book : Book} {edit : Edit m.Response}
    (hplan : m.plan fate book = .ok edit) (hbook : book.entities = s.working)
    (hplanned : ∀ spec existing plan g, m.transactionSpec = some spec →
      (∀ t, existing = some t → book.transaction g = some t) →
      planTransaction fate.gncTime book spec existing = .ok plan →
      P (.transaction g) (applyPlan fate.newGuid book plan (existing.getD .blank)))
    (h : edit.Ends s s') (hs : s.All P) : s'.All P := by
  -- Each plan says which entities its edit writes, and that they were checked.
  cases m with
  | createAccount request =>
    obtain ⟨_, _, _, -, -, -, rfl⟩ := plan_createAccount_ok hplan
    unfold createAccountEdit at h
    exact hP.ends_inPlace h hs (hP.setAccount (hs.working.insert (hP.account _ _)) _ _ _ _ _)
  | updateAccount request =>
    obtain ⟨_, _, _, _, -, -, -, -, -, -, rfl⟩ := plan_updateAccount_ok hplan
    unfold updateAccountEdit at h
    exact hP.ends_inPlace h hs (hP.setAccount hs.working _ _ _ _ _)
  | deleteAccount request =>
    obtain ⟨_, -, -, -, rfl⟩ := plan_deleteAccount_ok hplan
    exact hP.ends_destroy h hs (hP.editAccount hs.working _ _)
  | setReconcileInfo request =>
    obtain ⟨_, _, _, -, -, -, rfl⟩ := plan_setReconcileInfo_ok hplan
    unfold setReconcileInfoEdit at h
    exact hP.ends_inPlace h hs (hP.editAccount hs.working _ _)
  | postTransaction request =>
    obtain ⟨plan, haccepted, rfl⟩ := plan_postTransaction_ok hplan
    unfold postTransactionEdit at h
    refine hP.ends_inPlace h hs ?_
    rw [editTransaction_of_lookup (Finmap.lookup_insert _), Finmap.insert_insert]
    refine hs.working.insert (hplanned _ none _ _ rfl (fun t ht => ?_) haccepted)
    cases ht
  | updateTransaction request =>
    obtain ⟨g, plan, hg, haccepted, rfl⟩ := plan_updateTransaction_ok hplan
    obtain ⟨-, t, ht⟩ := findTransaction_ok hg
    have hlookup : s.working.lookup (.transaction g) = some t := hbook ▸ ht
    unfold updateTransactionEdit at h
    refine hP.ends_inPlace h hs ?_
    rw [editTransaction_of_lookup hlookup]
    rw [ht] at haccepted
    refine hs.working.insert (hplanned _ (some t) _ g rfl (fun t' ht' => ?_) haccepted)
    rw [← Option.some.inj ht']
    exact ht
  | deleteTransaction request =>
    obtain ⟨_, -, rfl⟩ := plan_deleteTransaction_ok hplan
    exact hP.ends_destroy h hs (editTransaction hs.working (hP.destroyed _))
  | addPrice request =>
    obtain ⟨_, _, _, _, _, -, -, -, -, -, hvalue, rfl⟩ := plan_addPrice_ok hplan
    exact hP.ends_price h hs (hP.priced _ _ _ _ _ _ (numericFromProto_ok hvalue).2)

/-- What one edit makes of a book. -/
theorem after [Wire] {m : Mutation} {fate : Fate} {book : Book} {edit : Edit m.Response}
    (hplan : m.plan fate book = .ok edit)
    (hplanned : ∀ spec existing plan g, m.transactionSpec = some spec →
      (∀ t, existing = some t → book.transaction g = some t) →
      planTransaction fate.gncTime book spec existing = .ok plan →
      P (.transaction g) (applyPlan fate.newGuid book plan (existing.getD .blank)))
    (h : book.entities.All P) : (edit.after book).entities.All P :=
  (hP.ends hplan rfl hplanned .committed (.ofTable h)).durable

end Entity.Kept

/-- **One edit** of a steady property. -/
theorem Entity.Steady.ends [Wire] {P : ∀ ref, Entity ref → Prop} (hP : Entity.Steady P)
    {s s' : EditStore Entity} {m : Mutation} {fate : Fate} {book : Book} {edit : Edit m.Response}
    (hplan : m.plan fate book = .ok edit) (hbook : book.entities = s.working)
    (h : edit.Ends s s') (hs : s.All P) : s'.All P := by
  refine hP.toKept.ends hplan hbook (fun spec existing plan g _ hexisting haccepted => ?_) h hs
  refine hP.planned _ _ _ _ _ haccepted _ g _ ?_
  cases existing with
  | none => exact Or.inl rfl
  | some t =>
    refine Or.inr (hs.working (.transaction g) t ?_)
    rw [← hbook]
    exact hexisting t rfl

/-! ### Runs -/

section Runs

variable [Wire] {P : ∀ ref, Entity ref → Prop} {w : World}

omit [Engine] in
/-- What a crash leaves was durable before. -/
theorem World.die_all (h : w.store.All P) : w.die.store.All P := h.reload

omit [Engine] in
/-- A process that dies in its task leaves the durable copy. -/
theorem Daemon.afterTask_all {α : Type} {r : EStateM.Result Exn World α}
    (h : (worldAfter r).store.All P) : (Daemon.afterTask r).world.store.All P := by
  rcases Daemon.afterTask_world r with hworld | hworld
  · rw [hworld]
    exact h
  · rw [hworld]
    exact World.die_all h

/-- Opening the book loads it at most. -/
theorem openBook_all (hP : Entity.Kept P) (h : w.store.All P) (fate : OpenFate) :
    (worldAfter (Daichod.openBook fate w)).store.All P := by
  rw [openBook_world]
  obtain ⟨s, hworld | hworld⟩ := Session.open_world fate w
  · rw [hworld]; exact h
  · rw [hworld]; exact hP.load h fate.loadOrder

omit [Engine] in
/-- Closing it saves at most what is in memory. -/
theorem Session.close_all (h : w.store.All P) (fate : CloseFate) :
    (worldAfter (Session.close fate w)).store.All P := by
  rcases Session.close_cases fate w with ⟨-, hrun⟩ | ⟨-, -, hworld⟩ | ⟨-, -, -, hrun⟩
  · rw [hrun]; exact h
  · rw [hworld]; exact h
  · rw [hrun]; exact h.save

/-- **One event.** -/
theorem Entity.Steady.step (hP : Entity.Steady P) {d : Daemon} (hdown : d.Down)
    (h : d.world.store.All P) (e : Event)
    (hrestored : ∀ book, e = .restore book → book.entities.All P) :
    (d.step e).world.store.All P := by
  -- Only a call writes entities of its own. The other events load, save or forget what there is.
  cases hserving : d.serving with
  | true =>
    cases e with
    | start fate => simpa only [Daemon.step, hserving, if_true] using h
    | mutate m fate =>
      simp only [Daemon.step, hserving, if_true]
      refine Daemon.afterTask_all ?_
      rcases (m.ran fate d.world).ends.2 with hstore | ⟨edit, hvalid, hends⟩
      · rw [hstore]
        exact h
      · exact hP.ends (Mutation.validated_ok hvalid).2.2 rfl hends h
    | openBook fate =>
      simp only [Daemon.step, hserving, if_true]
      exact Daemon.afterTask_all (openBook_all hP.toKept h fate)
    | closeBook fate =>
      simp only [Daemon.step, hserving, if_true]
      exact Daemon.afterTask_all (Session.close_all h fate)
    | terminate fate =>
      simp only [Daemon.step, hserving, if_true]
      exact World.die_all (Session.close_all h fate)
    | kill => exact World.die_all h
    | restore book =>
      simp only [Daemon.step]
      split
      · exact .ofTable (hrestored book rfl)
      · exact h
  | false =>
    cases e with
    | start fate =>
      simp only [Daemon.step, hserving, Bool.false_eq_true, if_false]
      obtain ⟨o, -, s, _, _, j, -, -, hworld, -⟩ := startUp_settles (hdown hserving).1 fate
      have hup : (worldAfter (startUp fate d.world)).store.All P := by
        rw [hworld]
        exact hP.load h o
      cases hrun : startUp fate d.world with
      | ok u w' => rw [hrun] at hup; exact hup
      | error e w' => rw [hrun] at hup; exact World.die_all hup
    | kill => exact World.die_all h
    | restore book =>
      simp only [Daemon.step]
      split
      · exact .ofTable (hrestored book rfl)
      · exact h
    | mutate m fate => simpa only [Daemon.step, hserving, Bool.false_eq_true, if_false] using h
    | openBook fate => simpa only [Daemon.step, hserving, Bool.false_eq_true, if_false] using h
    | closeBook fate => simpa only [Daemon.step, hserving, Bool.false_eq_true, if_false] using h
    | terminate fate => simpa only [Daemon.step, hserving, Bool.false_eq_true, if_false] using h

/-- **Invariant rule for entities**: a steady property that the books put in place have holds
of every entity in every state of every run. -/
theorem Entity.Steady.run (hP : Entity.Steady P) {config : Config} {b₀ : Book}
    {events : List Event} (hinit : b₀.entities.All P)
    (hrestored : ∀ book, Event.restore book ∈ events → book.entities.All P) :
    ((Daemon.fresh config b₀).run events).world.store.All P := by
  have halong : Machine.Along Daemon.step (fun _ e => ∀ book, e = .restore book →
      book.entities.All P) (Daemon.fresh config b₀) events := by
    refine Machine.along_of_forall.mpr fun e he book hbook => ?_
    rw [hbook] at he
    exact hrestored book he
  refine (halong.invariant (I := fun d => d.Down ∧ d.world.store.All P)
    ⟨fun _ => ⟨EditStore.ofTable_quiet _, rfl⟩, .ofTable hinit⟩ ?_).2
  rintro d e ⟨hdown, h⟩ hrestore
  exact ⟨hdown.step e, hP.step hdown h e hrestore⟩

end Runs

end Daichod
