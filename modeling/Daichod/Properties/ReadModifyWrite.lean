import Daichod.Properties.AccountUpdate
import Daichod.Properties.FullReplacement
import Daichod.Revision

/-!
# Daichod.Properties.ReadModifyWrite

**Get then update** (`getThenUpdate_iff`): what `UpdateTransaction` does with the message that
`GetTransaction` answered. Every field of the message comes back as it was, except one. An
enter time of 0 is the time 0 in what `GetTransaction` answers, and "now" in what
`UpdateTransaction` reads, so a transaction entered at time 0 moves to the time of the update.

That every other value reads back is a fact about stored values: no text has a NUL, every
reconcile flag is one the engine sets, every currency is named as the commodity table names
it. `Records.run` has them of all transactions, in every state of a tended run.

## Proof shape

`Transaction.Stored` collects what is true of every stored transaction and what the reading back
needs: texts without a NUL, a currency named in the canonical way, flags that the engine sets. It
is a property of single entities that every planned change of a transaction establishes.

The message of such a transaction, sent back, plans the transaction itself: every split is named
by its GUID and keeps its place (`planTransaction_resent`), no setter changes anything where the
stored amounts need no rounding, and what remains is the header. There every field reads back but
an enter time of 0.
-/

namespace Daichod

/-! ### What is stored

A mutation's setters cut every text at its first NUL, take the currency from the commodity table
and the flag from a fixed few; so whatever texts, names and flags a request has, what comes to be
stored has been through the setters once already, and going through them again changes nothing.
The invariant `Records` has this of every transaction in memory, with `Tree` beside it, which
says what the store is like when an edit begins. -/

section Stored

variable [Engine]

/-- A commodity that is found under its own name. -/
def CommodityName.Canonical (name : CommodityName) : Prop :=
  (⟨Engine.mapNamespace (cStr name.space), cStr name.mnemonic⟩ : CommodityName) = name

omit [Engine] in
/-- A split as the setters leave it. -/
structure Split.Stored (s : Split) : Prop where
  memo : cStr s.memo = s.memo
  action : cStr s.action = s.action
  flag : SettableFlag s.reconcile

/-- A transaction as the setters leave it. -/
structure Transaction.Stored (t : Transaction) : Prop where
  currency : ∀ name, t.currency = some name → name.Canonical
  num : cStr t.num = t.num
  description : cStr t.description = t.description
  splits : ∀ s ∈ t.splits, s.Stored

omit [Engine] in
/-- A C string has no NUL to be cut at. -/
theorem cStr_cStr (text : String) : cStr (cStr text) = cStr text := by
  refine cStr_eq_self fun hnul => ?_
  rw [cStr, String.toList_ofList] at hnul
  simpa using List.mem_takeWhile_imp hnul

/-- A commodity that is found is one of the table. -/
theorem findCommodity_mem {b : Book} {id : Shim.CommodityId} {context : String} {c : Commodity}
    (h : findCommodity b id context = .ok c) : c ∈ b.commodities ∧
      c.name = ⟨Engine.mapNamespace (cStr id.space), cStr id.mnemonic⟩ := by
  unfold findCommodity at h
  split at h
  · next hc =>
    obtain rfl := Except.ok.inj h
    exact ⟨List.mem_of_find?_eq_some hc, by simpa using List.find?_some hc⟩
  · cases h

/-- The currency was given, and found. -/
theorem planCurrency_ok {b : Book} {spec : Shim.Transaction} {c : Commodity}
    (h : planCurrency b spec = .ok c) :
    ∃ id, spec.currency = some id ∧ findCommodity b id "transaction.currency" = .ok c := by
  unfold planCurrency at h
  split at h
  · cases h
  · next id hid => exact ⟨id, hid, h⟩

/-- A new transaction. -/
theorem blank_stored : Transaction.blank.Stored where
  currency name h := by cases h
  num := by decide
  description := by decide
  splits s hs := by cases hs

/-- Every revision of stored transactions is stored. -/
theorem Revision.stored {fate : Fate} {b : Book} {g : Guid} {t : Transaction}
    (hnamed : ∀ c ∈ b.commodities, c.name.Canonical)
    (hstored : ∀ t, b.transaction g = some t → t.Stored) (h : Revision fate b g t) :
    t.Stored := by
  cases h with
  | kept ht => exact hstored t ht
  | @planned t₀ spec existing plan ht hplan =>
    have hold : t₀.Stored := by
      rcases ht with rfl | ht
      · exact blank_stored
      · exact hstored t₀ ht
    have hheader : SameHeader (plan.setHeader t₀) (applyPlan fate.newGuid b plan t₀) :=
      applyPlan_header plan t₀
    obtain ⟨hcurrency, -⟩ := planTransaction_ok hplan
    obtain ⟨id, -, hfind⟩ := planCurrency_ok hcurrency
    -- By the fields: each was checked or cut by the plan, or is as it was.
    refine ⟨fun name hname => ?_, ?_, ?_, ?_⟩
    · rw [hheader.currency] at hname
      obtain rfl := Option.some.inj hname
      exact hnamed _ (findCommodity_mem hfind).1
    · rw [hheader.num]
      exact cStr_cStr _
    · rw [hheader.description]
      exact cStr_cStr _
    · refine applyPlan_forall (P := Split.Stored)
        (fun _ _ _ hs => ⟨hs.memo, hs.action, hs.flag⟩) (fun _ hs => ⟨hs.memo, hs.action, hs.flag⟩)
        (fun p hp => SplitPlan.gives_of_set fun _ s => ?_) hold.splits
      exact ⟨cStr_cStr _, cStr_cStr _, planTransaction_settable hplan p hp⟩
  | @destroyed t₀ ht =>
    have hold := hstored t₀ ht
    unfold Transaction.destroy
    split
    · exact hold
    · exact ⟨hold.currency, hold.num, hold.description, hold.splits⟩
  | @rerounded t₀ account fraction ht =>
    have hold := hstored t₀ ht
    refine ⟨hold.currency, hold.num, hold.description, fun s hs => ?_⟩
    obtain ⟨s₀, hs₀, rfl⟩ := List.mem_map.mp hs
    split
    · exact ⟨(hold.splits s₀ hs₀).memo, (hold.splits s₀ hs₀).action, (hold.splits s₀ hs₀).flag⟩
    · exact hold.splits s₀ hs₀

/-- Settling leaves it as it is or removes it. -/
theorem Transaction.Stored.settle {g : Guid} {t t' : Transaction} (h : t.Stored)
    (hsettle : Entity.settle (.transaction g) t = some t') : t'.Stored := by
  simp only [Entity.settle] at hsettle
  split at hsettle
  · cases hsettle
  · cases hsettle
    exact ⟨h.currency, h.num, h.description, fun s hs => h.splits s (List.mem_filter.mp hs).1⟩

/-- In whatever order its splits are loaded. -/
theorem Transaction.Stored.relisted {t r : Transaction} (h : t.Stored) (hlisted : t.Relisted r) :
    r.Stored := by
  obtain ⟨hcurrency, -, -, hnum, hdescription, -, -⟩ := hlisted.header
  refine ⟨?_, ?_, ?_, fun s hs => h.splits s (hlisted.splits.mem_iff.mp hs)⟩
  · rw [hcurrency]
    exact h.currency
  · rw [hnum]
    exact h.num
  · rw [hdescription]
    exact h.description

variable [Wire]

/-- The transactions in the memory of a run. -/
structure Records (b₀ : Book) (s : EditStore Entity) : Prop extends Tree b₀ s where
  stored : ∀ (g : Guid) (t : Transaction), s.working.lookup (.transaction g) = some t → t.Stored
  live : ∀ (g : Guid) (t : Transaction), s.working.lookup (.transaction g) = some t →
    ¬Editing (.transaction g) s → t.destroying = false

omit [Wire] in
/-- A load when no edit is open. -/
theorem Records.load {b₀ : Book} {s : EditStore Entity} (h : Records b₀ s) (hquiet : s.Quiet)
    (o : LoadOrder) : Records b₀ (s.load o.entity) := by
  refine ⟨h.toTree.load hquiet o, fun g r hr => ?_, fun g r hr _ => ?_⟩
  · obtain ⟨t, ht, hlisted⟩ := Book.exists_of_load hquiet hr
    exact (h.stored g t ht).relisted hlisted
  · obtain ⟨t, ht, hlisted⟩ := Book.exists_of_load hquiet hr
    refine hlisted.header.destroying.trans (h.live g t ht ?_)
    -- No edit is open on a quiet store.
    rintro ⟨scope, hscope, -⟩
    rw [hquiet.scopes_nil] at hscope
    cases hscope

/-- **Every stored transaction, in every state of a tended run.** -/
theorem Records.run {config : Config} {b₀ : Book} {events : List Event}
    (hrooted : b₀.Rooted) (hrest : AtRest b₀.entities)
    (hnamed : ∀ c ∈ b₀.commodities, c.name.Canonical)
    (hstored : ∀ g t, b₀.transaction g = some t → t.Stored)
    (htended : Machine.Along Daemon.step Daemon.Tended (Daemon.fresh config b₀) events) :
    let w := ((Daemon.fresh config b₀).run events).world
    Records b₀ w.store ∧ w.book = b₀.setEntities w.store.working := by
  have hlive : ∀ g a, b₀.account g = some a → a.destroying = false :=
    fun g a ha => hrest (.account g) a ha
  have hinit : Records b₀ (EditStore.ofTable b₀.entities) :=
    ⟨Tree.init hrooted hlive, hstored, fun g t ht _ => (hrest (.transaction g) t ht).live⟩
  refine Along.store (I := Records b₀) htended hinit (fun s o hquiet h => h.load hquiet o)
    (fun m fate s h hkilled => h.rooted.plan_ends m fate _ hkilled rfl) ?_
  intro m fate s s' edit h hfresh hplan hends
  refine ⟨h.toTree.edit hfresh hplan hends, fun g t ht => ?_, fun g t ht => ?_⟩
  · obtain ⟨t₀, hrevision, hleft⟩ := (Mutation.revised h.clean hplan hends ht).revision
    have ht₀ : t₀.Stored :=
      Revision.stored (b := b₀.setEntities s.working) hnamed (h.stored g) hrevision
    rcases hleft with rfl | hsettle
    · exact ht₀
    · exact ht₀.settle hsettle
  · exact (Mutation.revised h.clean hplan hends ht).live (h.live g)

end Stored

/-! ### What a resent message plans

Each live split is planned as a change of itself. -/

section Resent

variable [Engine] {b : Book} {t : Transaction} {plan : TransactionPlan} {now : Int64} {g : Guid}
  {newGuid : ℕ → Guid}

omit [Engine] in
/-- The amount is at the fraction it is stored in. -/
def AtFraction (fraction : Option Int64) (v : GncNumeric) : Prop :=
  ∀ f, fraction = some f → v.denom = f

/-- Every amount of the transaction is at the fraction it is stored in. -/
structure Transaction.AtFractions (b : Book) (t : Transaction) : Prop where
  value : ∀ s ∈ t.splits, AtFraction (t.valueFraction b) s.value
  amount : ∀ s ∈ t.splits, AtFraction (amountFraction b s.account) s.amount

omit [Engine] in
/-- The plan of a split that is set to what it is. -/
structure Resent (s : Split) (p : SplitPlan) : Prop where
  existing : p.existing = some s.guid
  account : p.account = s.account
  value : p.value = s.value
  quantity : p.quantity = s.amount
  memo : p.memo = s.memo
  action : p.action = s.action
  reconcile : p.reconcile = s.reconcile

omit [Engine] in
/-- An amount at its fraction is stored as it is, rounded or refused. -/
theorem storeAmount_of_atFraction {name : Option CommodityName} {v : GncNumeric}
    (h : AtFraction (name.bind b.fraction) v) : storeAmount (name.bind b.fraction) v v = v := by
  cases hfraction : name.bind b.fraction with
  | none => rfl
  | some f =>
    obtain ⟨name, -, hname⟩ := Option.bind_eq_some_iff.mp hfraction
    have hpos : 0 < f.toInt := Book.fraction_pos hname
    have hdenom : v.denom = f := h f hfraction
    have hcheck : v.check = true := GncNumeric.check_of_pos (by rw [hdenom]; exact hpos)
    show storeRounded f v v = v
    by_cases hrefused : Refused f v
    · exact storeRounded_of_refused hcheck hrefused
    · rw [storeRounded_of_not_refused hpos hcheck hrefused, hdenom, roundHalfUp_mul hpos,
        Int64.ofInt_toInt, ← hdenom]

omit [Engine] in
/-- The setters change nothing of a split that is resent. -/
theorem Resent.set_eq {s : Split} {p : SplitPlan} (h : Resent s p) (hs : s.Stored)
    (hvalue : AtFraction (t.valueFraction b) s.value)
    (hamount : AtFraction (amountFraction b s.account) s.amount) :
    p.set b (t.valueFraction b) s = s := by
  have hvalue : storeAmount (t.valueFraction b) s.value s.value = s.value :=
    storeAmount_of_atFraction hvalue
  have hamount : storeAmount (amountFraction b s.account) s.amount s.amount = s.amount := by
    rw [amountFraction_eq] at hamount ⊢
    exact storeAmount_of_atFraction hamount
  simp only [SplitPlan.set, Split.setAccount, Split.setValue, Split.setAmount, Split.setMemo,
    Split.setAction, Split.setReconcile, h.account, h.value, h.quantity, h.memo, h.action,
    h.reconcile, hs.memo, hs.action, hvalue, hamount]

omit [Engine] in
/-- A stored state is never shown as unspecified. -/
theorem reconcileStateToProto_ne_unspecified {flag : Char} (h : SettableFlag flag) :
    reconcileStateToProto flag ≠ .unspecified := by
  rcases h with rfl | rfl | rfl | rfl | rfl <;> decide

/-- One round of `PlanTransaction`'s loop, on a split of the message. -/
theorem planSplit_resent (hprints : ∀ g, Engine.guidToString g ≠ "") {claimed : List String}
    {field : String} {s : Split} {p : SplitPlan} (hs : s.Stored)
    (h : planSplit b (some t.splits) claimed field (splitToProto s) = .ok p) : Resent s p := by
  obtain ⟨hexisting, haccount, hvalue, hquantity, hmemo, haction, hreconcile⟩ := planSplit_ok h
  refine ⟨?_, ?_, (numericFromProto_ok hvalue).1, (numericFromProto_ok hquantity).1, hmemo,
    haction, ?_⟩
  -- A printed GUID is not empty, so the split is looked up, and found by the GUID it was printed
  -- from.
  · rcases findExisting_ok hexisting with ⟨hempty, -⟩ | ⟨-, -, split, -, hsome, hguid⟩
    · exact absurd (String.isEmpty_iff.mp hempty) (hprints s.guid)
    · rw [hsome, Engine.guidToString_injective hguid]
  · have hread := (findAccount_ok haccount).1
    have haccount : (splitToProto s).accountGuid = Engine.guidToString s.account := rfl
    rw [haccount, Engine.cStr_guidToString, Engine.stringToGuid_guidToString] at hread
    exact (Option.some.inj hread).symm
  · have hstate := reconcileStateToProto_planReconcile hreconcile
    have hread : reconcileStateToProto p.reconcile = reconcileStateToProto s.reconcile :=
      hstate.trans (if_neg (reconcileStateToProto_ne_unspecified hs.flag))
    exact reconcileStateToProto_inj_of_settable hs.flag hread

/-- **The plan of a resent message** names every live split, in order. -/
theorem planTransaction_resent (hprints : ∀ g, Engine.guidToString g ≠ "") (ht : t.Stored)
    (h : planTransaction now b (transactionToProto g t) (some t) = .ok plan) :
    List.Forall₂ Resent t.liveSplits plan.splits := by
  obtain ⟨-, -, -, -, claimed, sum, hsplits, -⟩ := planTransaction_ok h
  -- The loop's plans stand in the order of the message's splits, which is that of the live splits.
  have hall : List.Forall₂ (fun requested p => ∀ s : Split, s.Stored → requested = splitToProto s →
      Resent s p) (t.liveSplits.map splitToProto) plan.splits :=
    planSplits_forall (fun claimed field requested p hp s hs heq =>
      planSplit_resent hprints hs (heq ▸ hp)) hsplits
  rw [List.forall₂_map_left_iff] at hall
  have hstored : ∀ s ∈ t.liveSplits, s.Stored := fun s hs => ht.splits s (List.mem_filter.mp hs).1
  exact ((List.forall₂_and_left _ _).mpr ⟨hstored, hall⟩).imp fun s p h => h.2 s h.1 rfl

/-! ### Applying it

Three steps could change the splits, and none does: the currency is the one already set, every
live split is claimed and so not dropped, and each split plan sets a split to what it is. Splits
that are marked destroyed but linger until the commit are not in the message, and stay marked. -/

omit [Engine] in
/-- All of them are claimed, so none is dropped. -/
theorem claims_resent {splits : List Split} {plans : List SplitPlan}
    (h : List.Forall₂ Resent splits plans) : claims plans = splits.map Split.guid := by
  induction h with
  | nil => rfl
  | cons hresent _ ih =>
    rw [List.map_cons, ← ih]
    exact List.filterMap_cons_some hresent.existing

omit [Engine] in
/-- A change of splits that marks none and leaves the live ones as they are. -/
theorem liveSplits_map {splits : List Split} {f : Split → Split}
    (hmarks : ∀ s ∈ splits, (f s).destroying = s.destroying)
    (hsame : ∀ s ∈ splits, s.destroying = false → f s = s) :
    (splits.map f).filter (!·.destroying) = splits.filter (!·.destroying) := by
  induction splits with
  | nil => rfl
  | cons s splits ih =>
    have hrest := ih (fun s hs => hmarks s (List.mem_cons_of_mem _ hs))
      fun s hs => hsame s (List.mem_cons_of_mem _ hs)
    have hmark := hmarks s List.mem_cons_self
    cases hlive : s.destroying with
    | true =>
      rw [List.map_cons, List.filter_cons_of_neg (by simp [hmark, hlive]), hrest,
        List.filter_cons_of_neg (by simp [hlive])]
    | false =>
      rw [List.map_cons, hsame s List.mem_cons_self hlive, List.filter_cons_of_pos (by simp [hlive]),
        hrest, List.filter_cons_of_pos (by simp [hlive])]

/-- **The splits of a resent message** are those of the transaction, whatever lingers beside
them. -/
theorem applyPlan_liveSplits (hprints : ∀ g, Engine.guidToString g ≠ "") (ht : t.Stored)
    (hamounts : t.AtFractions b) (hcurrency : t.currency = some plan.currency.name)
    (h : planTransaction now b (transactionToProto g t) (some t) = .ok plan) :
    (applyPlan newGuid b plan t).liveSplits = t.liveSplits := by
  have hresent := planTransaction_resent hprints ht h
  have hclaims := claims_resent hresent
  have haccepted : plan.Accepted b (transactionToProto g t) t := planTransaction_accepted h
  -- No live split shares its GUID with another: a GUID that comes twice is rejected.
  have hnodup : (t.liveSplits.map Split.guid).Nodup := hclaims ▸ haccepted.distinct
  have hheader : (plan.setHeader t).splits = t.splits := by
    have hsplits : (plan.setHeader t).splits = (t.setCurrency plan.currency).splits := rfl
    rw [hsplits, Transaction.setCurrency]
    exact if_pos (Or.inr hcurrency)
  have hdropped : (plan.doomed.foldl (fun t split => t.destroySplit split)
      (plan.setHeader t)).liveSplits = t.liveSplits := by
    have hreadOnly : (plan.setHeader t).readOnly = t.readOnly := rfl
    rw [Transaction.liveSplits, destroySplits_splits, hheader, hreadOnly]
    have hkeep : ∀ s ∈ t.splits,
        (dropped t.readOnly plan.doomed s).destroying = s.destroying := by
      intro s hs
      cases hlive : s.destroying with
      | true => simp [dropped, hlive]
      | false =>
        have hclaimed : s.guid ∈ claims plan.splits := by
          rw [hclaims]
          exact List.mem_map_of_mem (List.mem_filter.mpr ⟨hs, by simp [hlive]⟩)
        have hnot : s.guid ∉ plan.doomed := fun hmem => (haccepted.doomed s hs).mp hmem hclaimed
        simp [dropped, hlive, hnot]
    exact liveSplits_map hkeep fun s hs _ => dropped_eq_self (hkeep s hs)
  -- Round by round: the live splits and the fraction of their values are those of before.
  refine (applySplitPlans_induction
    (P := fun t' => t'.liveSplits = t.liveSplits ∧ t'.valueFraction b = t.valueFraction b)
    (fun t' guid p hp ht' => ?_) ⟨hdropped, ?_⟩ 0).1
  · obtain ⟨s, hs, hp⟩ := exists_of_forall₂_right hresent hp
    refine ⟨?_, (applySplitPlan_fraction guid p).trans ht'.2⟩
    rw [applySplitPlan, hp.existing, ← ht'.1]
    refine liveSplits_map (fun s' _ => ?_) fun s' hs' hlive => ?_
    · split <;> rfl
    · split
      · next hguid =>
        have hmem : s' ∈ t.liveSplits := by
          rw [← ht'.1]
          exact List.mem_filter.mpr ⟨hs', by simp [hlive]⟩
        obtain rfl := List.inj_on_of_nodup_map hnodup hmem hs hguid
        have hin : s' ∈ t.splits := (List.mem_filter.mp hmem).1
        rw [ht'.2]
        exact hp.set_eq (ht.splits s' hin) (hamounts.value s' hin) (hamounts.amount s' hin)
      · rfl
  · rw [Transaction.valueFraction, (destroySplits_header _ _).currency, Transaction.valueFraction,
      hcurrency]
    rfl

/-- The header of a resent message. -/
theorem planTransaction_header (ht : t.Stored)
    (h : planTransaction now b (transactionToProto g t) (some t) = .ok plan) :
    t.currency = some plan.currency.name ∧ t.postDate = some plan.postDate ∧
      plan.postDate.valid = true ∧
      plan.enterTime = (if t.enterTime ≠ 0 then t.enterTime else now) ∧
      plan.num = t.num ∧ plan.description = t.description := by
  obtain ⟨hcurrency, -, hdate, -, claimed, sum, -, -, -, henter, hnum, hdescription⟩ :=
    planTransaction_ok h
  refine ⟨?_, ?_, planTransaction_date_valid h, henter, hnum, hdescription⟩
  · obtain ⟨id, hid, hfind⟩ := planCurrency_ok hcurrency
    obtain ⟨name, hname, rfl⟩ := Option.map_eq_some_iff.mp hid
    have hcanonical : _ = name := ht.currency name hname
    rw [(findCommodity_mem hfind).2, hname]
    exact congrArg some hcanonical.symm
  -- The date that is read is the one the message shows, and the message shows valid dates only.
  · unfold planPostDate at hdate
    split at hdate
    · cases hdate
    · next date hsome =>
      obtain ⟨d, hd, hproto⟩ := Option.map_eq_some_iff.mp hsome
      obtain ⟨hstored, -⟩ := Option.filter_eq_some_iff.mp hd
      have hread := dateToProto_of_dateFromProto hdate
      rw [← hproto] at hread
      rw [hstored, dateToProto_injective hread]

/-- **The message of a transaction whose message is resent**: the enter time is the plan's. -/
theorem toProto_resent (hprints : ∀ g, Engine.guidToString g ≠ "") (ht : t.Stored)
    (hamounts : t.AtFractions b)
    (h : planTransaction now b (transactionToProto g t) (some t) = .ok plan) :
    transactionToProto g (applyPlan newGuid b plan t)
      = { transactionToProto g t with enterTimeUtc := if t.enterTime ≠ 0 then t.enterTime else now } := by
  obtain ⟨hcurrency, hdate, -, henter, hnum, hdescription⟩ := planTransaction_header ht h
  -- the splits are as they were; what remains is the header, field by field
  have hsplits : (applyPlan newGuid b plan t).liveSplits = t.liveSplits :=
    applyPlan_liveSplits hprints ht hamounts hcurrency h
  have hheader : SameHeader (plan.setHeader t) (applyPlan newGuid b plan t) :=
    applyPlan_header plan t
  have hnum' : (applyPlan newGuid b plan t).num = t.num := by
    rw [hheader.num]
    exact (congrArg cStr hnum).trans ht.num
  have hdescription' : (applyPlan newGuid b plan t).description = t.description := by
    rw [hheader.description]
    exact (congrArg cStr hdescription).trans ht.description
  have hcurrency' : (applyPlan newGuid b plan t).currency = t.currency := by
    rw [hheader.currency, hcurrency]
    rfl
  have hdate' : (applyPlan newGuid b plan t).postDate = t.postDate := by
    rw [hheader.postDate, hdate]
    rfl
  -- the one field that is read differently than it was shown
  have henter' : (applyPlan newGuid b plan t).enterTime
      = if t.enterTime ≠ 0 then t.enterTime else now := by
    rw [hheader.enterTime, ← henter]
    rfl
  rw [transactionToProto, hsplits, hnum', hdescription', hcurrency', hdate', henter']
  rfl

end Resent

/-! ### Get, then update, then get

What the client reads afterwards is what it had read, except for the enter time. -/

section ReadModifyWrite

variable [Engine] [Wire] {w w' : World} {guid : String} {message : Shim.Transaction}

/-- From `w` to `w'`, the transaction reads as before and nothing else has changed. -/
structure SameReading (w w' : World) (guid : String) (message : Shim.Transaction) : Prop where
  reads : getTransaction guid w' = .ok message w'
  header : w'.header = w.header
  others : ∀ g, findTransaction w.book guid "guid" = .ok g → ∀ ref ≠ EntityRef.transaction g,
    w'.book.entities.lookup ref = w.book.entities.lookup ref

/-- The message answered comes back unless the transaction is moved in time: it is when the
call performs its update of a transaction entered at time 0, and it is not that time now. -/
def ComesBack (request : Shim.UpdateTransactionRequest) (fate : Fate) (w : World) : Prop :=
  ∀ g, findTransaction w.book request.transaction.guid "transaction.guid" = .ok g →
    Performs (.updateTransaction request) fate w (.transaction g) →
      request.transaction.enterTimeUtc ≠ 0 ∨ fate.gncTime = 0

omit [Wire] in
/-- The GUID in the message is found. -/
theorem findTransaction_of_some {b : Book} {g : Guid} {t : Transaction} {context : String}
    (hread : Engine.stringToGuid (cStr guid) = some g) (h : b.transaction g = some t) :
    findTransaction b guid context = .ok g := by
  unfold findTransaction stringToGuid
  rw [hread]
  simp only [bind, Except.bind, h]

omit [Wire] in
/-- The message skips what the end of the edit drops. -/
theorem toProto_settle {g : Guid} {t t' : Transaction}
    (h : Entity.settle (.transaction g) t = some t') :
    transactionToProto g t' = transactionToProto g t := by
  simp only [Entity.settle] at h
  split at h
  · cases h
  · cases h
    simp only [transactionToProto, Transaction.liveSplits, List.filter_filter, Bool.and_self]

variable {b₀ : Book} {request : Shim.UpdateTransactionRequest} {fate : Fate}
  {response : Shim.Transaction}

/-- The call, in any memory that a tended run can leave. -/
theorem Records.sameReading_iff (hrecords : Records b₀ w.store)
    (hprints : ∀ g, Engine.guidToString g ≠ "")
    (hamounts : ∀ g t, w.book.transaction g = some t → t.AtFractions w.book)
    (hget : getTransaction guid w = .ok request.transaction w)
    (hrun : (Mutation.updateTransaction request).run fate w = .ok response w') :
    SameReading w w' guid request.transaction ↔ ComesBack request fate w := by
  obtain ⟨hsession, g, t, hg, ht, hmessage, -⟩ := getTransaction_iff.mp hget
  have hfound : findTransaction w.book request.transaction.guid "transaction.guid" = .ok g := by
    rw [hmessage]
    refine findTransaction_of_some ?_ ht
    show Engine.stringToGuid (cStr (Engine.guidToString g)) = some g
    rw [Engine.cStr_guidToString, Engine.stringToGuid_guidToString]
  have hback : ComesBack request fate w ↔
      (Performs (.updateTransaction request) fate w (.transaction g) →
        request.transaction.enterTimeUtc ≠ 0 ∨ fate.gncTime = 0) := by
    constructor
    · exact fun h => h g hfound
    · intro h g' hg'
      obtain rfl := Except.ok.inj (hfound.symm.trans hg')
      exact h
  rw [hback]
  have hran := (Mutation.updateTransaction request).ran fate w
  rw [hrun] at hran
  rcases hran.of_ok with ⟨rfl, row, -, hrow, -⟩ | ⟨hnew, edit, j, hreach, hfinal, -, rfl⟩
  · -- A replay leaves the book alone.
    have hnot : ¬Performs (.updateTransaction request) fate w (.transaction g) := by
      intro hperforms
      rw [hperforms.1] at hrow
      cases hrow
    refine iff_of_true ⟨getTransaction_iff.mpr ⟨hsession, g, t, hg, ht, hmessage, rfl⟩, rfl, ?_⟩
      fun hperforms => absurd hperforms hnot
    exact fun _ _ _ _ => rfl
  · obtain ⟨g', plan, hg', hplan, rfl⟩ :=
      plan_updateTransaction_ok (Mutation.validated_ok hreach.valid).2.2
    obtain rfl := Except.ok.inj (hfound.symm.trans hg')
    have ht₀ : w.store.working.lookup (.transaction g) = some t := ht
    rw [ht, hmessage] at hplan
    have hproto : transactionToProto g (applyPlan fate.newGuid w.book plan t) = _ :=
      toProto_resent hprints (hrecords.stored g t ht) (hamounts g t ht) hplan
    have hchange : (editTransaction g (applyPlan fate.newGuid w.book plan)
        w.store.working).lookup (.transaction g)
          = some (applyPlan fate.newGuid w.book plan t) := by
      rw [editTransaction_of_lookup ht₀, Finmap.lookup_insert]
    -- What the engine's last step leaves, entity by entity.
    set finished := Edit.finished (m := .updateTransaction request)
      (updateTransactionEdit fate.newGuid g w.book plan) fate w with hfinished
    have hlookup : ∀ k, finished.book.entities.lookup k
        = if fate.finalStep = .commits ∨ k ∈ w.store.held then
            (if Editing (.transaction g) w.store then
              editTransaction g (applyPlan fate.newGuid w.book plan) w.store.working
            else settle (.transaction g)
              (editTransaction g (applyPlan fate.newGuid w.book plan) w.store.working)).lookup k
          else w.store.working.lookup k :=
      fun k => Edit.finished_lookup hrecords.clean hfinal k
    have hothers : ∀ ref ≠ EntityRef.transaction g,
        finished.book.entities.lookup ref = w.book.entities.lookup ref := by
      intro ref hne
      rw [hlookup]
      split
      · split
        · exact lookup_editTransaction_ne _ hne
        · exact (lookup_settle_ne hne).trans (lookup_editTransaction_ne _ hne)
      · rfl
    have hsame : SameReading w (finished.setJournal j) guid request.transaction ↔
        getTransaction guid (finished.setJournal j)
          = .ok request.transaction (finished.setJournal j) := by
      refine ⟨SameReading.reads, fun h => ⟨h, Edit.finished_header, fun g' hg'' => ?_⟩⟩
      obtain rfl := Except.ok.inj (hg.symm.trans hg'')
      exact hothers
    have hreads : ∀ t', finished.book.transaction g = some t' →
        (SameReading w (finished.setJournal j) guid request.transaction ↔
          transactionToProto g t = transactionToProto g t') := by
      intro t' ht'
      have hfind : findTransaction finished.book guid "guid" = .ok g :=
        findTransaction_of_some (findTransaction_ok hg).1 ht'
      rw [hsame, getTransaction_iff, ← hmessage]
      constructor
      · rintro ⟨-, g', t'', hg'', ht'', heq, -⟩
        obtain rfl := Except.ok.inj (hfind.symm.trans hg'')
        obtain rfl := Option.some.inj (ht'.symm.trans ht'')
        exact heq
      · exact fun heq => ⟨Edit.finished_session.trans hsession, g, t', hfind, ht', heq, rfl⟩
    by_cases hperforms : Performs (.updateTransaction request) fate w (.transaction g)
    · obtain ⟨t', ht', hread⟩ : ∃ t', finished.book.transaction g = some t' ∧
          transactionToProto g t'
            = transactionToProto g (applyPlan fate.newGuid w.book plan t) := by
        have hleft := (hlookup (.transaction g)).trans (if_pos hperforms.2)
        by_cases hediting : Editing (.transaction g) w.store
        · rw [if_pos hediting, hchange] at hleft
          exact ⟨_, hleft, rfl⟩
        · have hlive : (applyPlan fate.newGuid w.book plan t).destroying = false :=
            (applyPlan_header plan t).destroying.trans (hrecords.live g t ht hediting)
          have hsettle : Entity.settle (.transaction g) (applyPlan fate.newGuid w.book plan t)
              = some { applyPlan fate.newGuid w.book plan t with
                  splits := (applyPlan fate.newGuid w.book plan t).liveSplits } :=
            if_neg (ne_true_of_eq_false hlive)
          rw [if_neg hediting, lookup_settle_self, hchange] at hleft
          exact ⟨_, hleft.trans hsettle, toProto_settle hsettle⟩
      rw [hreads t' ht', hread, hproto, hmessage]
      have henter : (transactionToProto g t).enterTimeUtc = t.enterTime := rfl
      constructor
      · intro heq _
        by_cases h0 : t.enterTime = 0
        · right
          have hnow := congrArg Shim.Transaction.enterTimeUtc heq
          simp only [h0, ne_eq, not_true_eq_false, if_false] at hnow
          rw [← hnow, henter, h0]
        · exact Or.inl h0
      · intro h
        have htime : (if t.enterTime ≠ 0 then t.enterTime else fate.gncTime) = t.enterTime := by
          split
          · rfl
          · next h0 => exact ((h hperforms).resolve_left h0).trans (not_not.mp h0).symm
        rw [htime]
        rfl
    · have ht' : finished.book.transaction g = some t := by
        refine (hlookup (.transaction g)).trans ((if_neg fun h => hperforms ⟨hnew, h⟩).trans ht)
      exact iff_of_true ((hreads t ht').mpr rfl) fun h => absurd h hperforms

/-- **Get then update is the identity exactly when** the transaction is not moved in time: in
every state of every run, and at every later time. -/
theorem getThenUpdate_iff {config : Config} {events : List Event}
    (hrooted : b₀.Rooted) (hrest : AtRest b₀.entities)
    (hnamed : ∀ c ∈ b₀.commodities, c.name.Canonical)
    (hstored : ∀ g t, b₀.transaction g = some t → t.Stored)
    (htended : Machine.Along Daemon.step Daemon.Tended (Daemon.fresh config b₀) events)
    (hprints : ∀ g, Engine.guidToString g ≠ "")
    (hamounts : ∀ g t, ((Daemon.fresh config b₀).run events).world.book.transaction g = some t →
      t.AtFractions ((Daemon.fresh config b₀).run events).world.book)
    (hget : getTransaction guid ((Daemon.fresh config b₀).run events).world
      = .ok request.transaction ((Daemon.fresh config b₀).run events).world)
    (hrun : (Mutation.updateTransaction request).run fate
      ((Daemon.fresh config b₀).run events).world = .ok response w') :
    SameReading ((Daemon.fresh config b₀).run events).world w' guid request.transaction ↔
      ComesBack request fate ((Daemon.fresh config b₀).run events).world :=
  (Records.run hrooted hrest hnamed hstored htended).1.sameReading_iff hprints hamounts hget hrun

end ReadModifyWrite

section Imported

open Reference

attribute [local instance] Reference.engine Reference.wire

/-- A transaction another program entered. -/
def importedAt (enterTime : Int64) : Transaction := { receipt with enterTime }

/-- The small book with this transaction. -/
def imported (enterTime : Int64) : Book :=
  { book with entities := book.entities.insert (.transaction 16) (importedAt enterTime) }

/-- The listing of its splits. -/
def importedSplits (enterTime : Int64) : Session.SplitListing :=
  receipt.splits.map fun s => ((16, importedAt enterTime), s)

/-- The daemon with the imported book open. -/
def importedOpen (enterTime : Int64) : Daemon :=
  (Daemon.fresh config (imported enterTime)).run [.start (starts (importedSplits enterTime))]

/-- The message of the transaction, sent back as it was read. -/
def resend (enterTime : Int64) : Shim.UpdateTransactionRequest :=
  ⟨⟨mutationId '1'⟩, transactionToProto 16 (importedAt enterTime)⟩

/-- Surroundings of another day. -/
def nextDay : Fate := { calm 32 with gncTime := 1700000000 }

/-- The update of a transaction without an enter time is answered OK, and the transaction has
one. -/
theorem imported_moved :
    (importedOpen 0).serving = true ∧
    (replyOf (getTransaction (guidToString 16) (importedOpen 0).world)).isOk = true ∧
    ((importedOpen 0).world.book.transaction 16).map (transactionToProto 16)
      = some (resend 0).transaction ∧
    (replyOf ((Mutation.updateTransaction (resend 0)).run nextDay
      (importedOpen 0).world)).isOk = true ∧
    ((worldAfter ((Mutation.updateTransaction (resend 0)).run nextDay
      (importedOpen 0).world)).book.transaction 16).map (transactionToProto 16)
        = some { (resend 0).transaction with enterTimeUtc := 1700000000 } := by
  decide +kernel

/-- The book has one transaction. -/
theorem imported_transaction {enterTime : Int64} {g : ℕ} {t : Transaction}
    (h : (imported enterTime).transaction g = some t) : g = 16 ∧ t = importedAt enterTime := by
  by_cases hg : g = 16
  · subst hg
    rw [Book.transaction, imported, Finmap.lookup_insert] at h
    exact ⟨rfl, (Option.some.inj h).symm⟩
  · have hne : EntityRef.transaction g ≠ .transaction 16 := by simpa using hg
    have hnone : book.transaction g = none := by
      simp [Book.transaction, book, Finmap.lookup_insert_of_ne]
    rw [Book.transaction, imported, Finmap.lookup_insert_of_ne _ hne] at h
    rw [Book.transaction] at hnone
    rw [hnone] at h
    cases h

/-- Its accounts are a tree. -/
theorem imported_rooted (enterTime : Int64) : (imported enterTime).Rooted := by
  have haccount : ∀ g, (imported enterTime).account g = book.account g := fun g =>
    Finmap.lookup_insert_of_ne _ (by simp)
  refine book_rooted.congr rfl ?_ ?_ fun g t ht => ?_
  · funext g
    rw [Book.parentOf, Book.parentOf, haccount]
  · ext g
    simp only [Book.accountGuids, Set.mem_ofPred_eq, haccount]
  · obtain ⟨-, rfl⟩ := imported_transaction ht
    intro s hs
    rcases List.mem_pair.mp hs with rfl | rfl
    · show (book.account 2).isSome = true
      decide +kernel
    · show (book.account 3).isSome = true
      decide +kernel

/-- A transaction entered at time 7 reads back as it was. -/
theorem getThenUpdate_iff_imported :
    ∃ w', worldAfter ((Mutation.updateTransaction (resend 7)).run nextDay (importedOpen 7).world)
        = w' ∧
      SameReading (importedOpen 7).world w' (guidToString 16) (resend 7).transaction := by
  have hatRest : (importedAt 7).AtRest := ⟨rfl, receipt_atRest.splits⟩
  have hrest : AtRest (imported 7).entities := book_atRest.insert (.transaction 16) hatRest
  have husd : usd.name.Canonical := by
    show CommodityName.mk _ _ = _
    decide
  -- the book's one currency is named in the canonical way,
  have hnamed : ∀ c ∈ (imported 7).commodities, c.name.Canonical := by
    intro c hc
    rw [List.mem_singleton.mp hc]
    exact husd
  -- its one transaction is stored,
  have hstored : ∀ g t, (imported 7).transaction g = some t → t.Stored := by
    intro g t ht
    obtain ⟨-, rfl⟩ := imported_transaction ht
    refine ⟨fun name hname => ?_, by decide, by decide, fun s hs => ?_⟩
    · obtain rfl := Option.some.inj hname
      exact husd
    · rcases List.mem_pair.mp hs with rfl | rfl <;> exact ⟨by decide, by decide, Or.inl rfl⟩
  have htended : Machine.Along Daemon.step Daemon.Tended (Daemon.fresh config (imported 7))
      [.start (starts (importedSplits 7))] := ⟨trivial, trivial⟩
  have hbook : (importedOpen 7).world.book = imported 7 := by decide +kernel
  -- and its amounts are in cents
  have hamounts : ∀ g t, (importedOpen 7).world.book.transaction g = some t →
      t.AtFractions (importedOpen 7).world.book := by
    rw [hbook]
    intro g t ht
    obtain ⟨-, rfl⟩ := imported_transaction ht
    have hvalue : (importedAt 7).valueFraction (imported 7) = some 100 := by decide +kernel
    have hcash : amountFraction (imported 7) 2 = some 100 := by decide +kernel
    have hfood : amountFraction (imported 7) 3 = some 100 := by decide +kernel
    refine ⟨fun s hs f hf => ?_, fun s hs f hf => ?_⟩
    · rw [hvalue] at hf
      obtain rfl := Option.some.inj hf
      rcases List.mem_pair.mp hs with rfl | rfl <;> rfl
    · rcases List.mem_pair.mp hs with rfl | rfl
      · obtain rfl := Option.some.inj (hcash.symm.trans hf)
        rfl
      · obtain rfl := Option.some.inj (hfood.symm.trans hf)
        rfl
  have hget : getTransaction (guidToString 16) (importedOpen 7).world
      = .ok (resend 7).transaction (importedOpen 7).world :=
    getTransaction_iff.mpr ⟨by decide +kernel, 16, importedAt 7, by decide +kernel,
      by decide +kernel, rfl, rfl⟩
  have hok : (replyOf ((Mutation.updateTransaction (resend 7)).run nextDay
      (importedOpen 7).world)).isOk = true := by decide +kernel
  cases hrun : (Mutation.updateTransaction (resend 7)).run nextDay (importedOpen 7).world with
  | error e w' =>
    rw [hrun] at hok
    cases e <;> cases hok
  | ok response w' =>
    refine ⟨w', rfl, (getThenUpdate_iff (imported_rooted 7) hrest hnamed hstored
      htended guidToString_ne_empty hamounts hget hrun).mpr ?_⟩
    exact fun _ _ _ => Or.inl (by decide)

end Imported

end Daichod
