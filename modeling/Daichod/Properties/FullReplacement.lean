import Daichod.Reference
import Daichod.Rpc.Planned
import Daichod.Rpc.Results

/-!
# Daichod.Properties.FullReplacement

**Full replacement is exact.** After an accepted `UpdateTransaction` the transaction is what
the request says and nothing else: one split for each spec split, under the GUID named or a
fresh one, and none besides.

`ApplyPlan` works on a list in which the splits it drops linger until the commit, so the
list it leaves has the old order with the new splits behind it. `TransactionPlan.rows` lists
the same splits in the order of the request; `liveSplits_perm_rows` says that the two have
the same members, each once.

## Proof shape

The list that `ApplyPlan` leaves is described split by split (`liveSplits_applyPlan` in
`Rpc/Planned`): the splits that stay, each revised by its own round, and the new ones behind them.
Row by row the same splits are got from the plan, and a permutation leads from the one list to the
other; it exists because no two rounds target one GUID (`target_injective`). From there on
everything is about one row: that it meets its spec split (`row_meets`), which is read off the
setters and the checks of the plan.
-/

namespace Daichod

/-! ### Planned splits, in the order of the request

A row is what becomes of one split plan. The rows are the plans in order, so that row and spec
split can be told by their position. -/

section Rows

variable [Engine] {book : Book} {spec : Shim.Transaction} {t : Transaction}
  {plan : TransactionPlan} {newGuid : ℕ → Guid} {i : ℕ} {p : SplitPlan}

/-- What a round leaves in its split. -/
def SplitPlan.row (book : Book) (currency : Commodity) (newGuid : ℕ → Guid) (t : Transaction)
    (i : ℕ) (p : SplitPlan) : Split :=
  p.set book (some currency.fraction) (p.start newGuid t i)

/-- What all rounds leave, in the order of the request. -/
def TransactionPlan.rows (book : Book) (newGuid : ℕ → Guid) (plan : TransactionPlan)
    (t : Transaction) : List Split :=
  plan.splits.mapIdx fun i p => p.row book plan.currency newGuid (plan.setHeader t) i

/-- A row stems from one split of the plan, by its place. -/
theorem mem_rows {s : Split} :
    s ∈ plan.rows book newGuid t ↔ ∃ (i : ℕ) (p : SplitPlan), plan.splits[i]? = some p ∧
      s = p.row book plan.currency newGuid (plan.setHeader t) i := by
  rw [TransactionPlan.rows, List.mem_mapIdx]
  constructor
  · intro hmem
    obtain ⟨i, hi, hs⟩ := hmem
    exact ⟨i, _, List.getElem?_eq_getElem hi, hs.symm⟩
  · intro hmem
    obtain ⟨i, p, hi, hs⟩ := hmem
    obtain ⟨hlt, rfl⟩ := List.getElem?_eq_some_iff.mp hi
    exact ⟨i, hlt, hs.symm⟩

/-- Its GUID is the one that the round is about. -/
theorem row_guid (h : plan.Accepted book spec t) (hi : plan.splits[i]? = some p) :
    (p.row book plan.currency newGuid (plan.setHeader t) i).guid = p.target newGuid i := by
  show (p.start newGuid (plan.setHeader t) i).guid = _
  cases hg : p.existing with
  | none => simp [SplitPlan.start, SplitPlan.target, hg, Split.blank]
  | some g =>
    rw [(start_mem newGuid h hi hg).2, SplitPlan.target, hg]
    rfl

omit [Engine] in
/-- No two rounds are about one split. -/
theorem target_injective (h : plan.Accepted book spec t) (hguids : UniqueGuids newGuid t)
    {j : ℕ} {q : SplitPlan} (hi : plan.splits[i]? = some p) (hj : plan.splits[j]? = some q)
    (hlt : i < j) : p.target newGuid i ≠ q.target newGuid j := by
  have howned : ∀ {k : ℕ} {r : SplitPlan} {g : Guid}, plan.splits[k]? = some r →
      r.existing = some g → g ∈ t.splits.map Split.guid := fun hk hg => h.owned _ (mem_claims hk hg)
  -- Named splits are told apart by the plan's own check, new ones by the engine, and a new GUID is
  -- none of those in the transaction.
  unfold SplitPlan.target
  cases hp : p.existing with
  | none =>
    cases hq : q.existing with
    | none =>
      intro heq
      have := hguids.injective heq
      omega
    | some g' =>
      intro heq
      have heq : newGuid (i + 1) = g' := heq
      exact hguids.unused (i + 1) (heq ▸ howned hj hq)
  | some g =>
    cases hq : q.existing with
    | none =>
      intro heq
      have heq : g = newGuid (j + 1) := heq
      exact hguids.unused (j + 1) (heq ▸ howned hi hp)
    | some g' =>
      have hpairwise := List.pairwise_filterMap.mp h.distinct
      obtain ⟨hilt, rfl⟩ := List.getElem?_eq_some_iff.mp hi
      obtain ⟨hjlt, rfl⟩ := List.getElem?_eq_some_iff.mp hj
      exact List.pairwise_iff_getElem.mp hpairwise i j hilt hjlt hlt g hp g' hq

/-- No GUID is listed twice. -/
theorem rows_nodup (h : plan.Accepted book spec t) (hguids : UniqueGuids newGuid t) :
    ((plan.rows book newGuid t).map Split.guid).Nodup := by
  refine List.pairwise_iff_getElem.mpr fun i j hi hj hlt => ?_
  simp only [List.length_map, TransactionPlan.rows, List.length_mapIdx] at hi hj
  have hpi := List.getElem?_eq_getElem hi
  have hpj := List.getElem?_eq_getElem hj
  simp only [TransactionPlan.rows, List.getElem_map, List.getElem_mapIdx]
  rw [row_guid h hpi, row_guid h hpj]
  exact target_injective h hguids hpi hpj hlt

omit [Engine] in
/-- The new splits have GUIDs of their own. -/
theorem created_nodup {fraction : Option Int64} {plans : List SplitPlan}
    (hinjective : Function.Injective newGuid) (i : ℕ) :
    ((created book fraction newGuid i plans).map Split.guid).Nodup := by
  induction plans generalizing i with
  | nil => exact List.nodup_nil
  | cons plan plans ih =>
    unfold created
    cases plan.existing with
    | some g => exact ih (i + 1)
    | none =>
      refine List.nodup_cons.mpr ⟨fun hmem => ?_, ih (i + 1)⟩
      obtain ⟨s, hs, hguid⟩ := List.mem_map.mp hmem
      obtain ⟨k, p, -, -, rfl⟩ := mem_created.mp hs
      have := hinjective hguid
      omega

/-- A new currency destroys no split. -/
theorem setHeader_live (hlive : ∀ s ∈ t.splits, s.destroying = false) :
    ∀ s ∈ (plan.setHeader t).splits, s.destroying = false := by
  obtain ⟨rated, hsplits⟩ := setHeader_splits plan t
  intro s hs
  rw [hsplits] at hs
  obtain ⟨s₀, hs₀, rfl⟩ := List.mem_map.mp hs
  exact hlive s₀ hs₀

omit [Engine] in
/-- A split that is not dropped is left as it is. -/
theorem dropped_eq_self {readOnly : Bool} {doomed : List Guid} {s : Split}
    (h : (dropped readOnly doomed s).destroying = s.destroying) : dropped readOnly doomed s = s := by
  have hdropped : dropped readOnly doomed s
      = { s with destroying := (dropped readOnly doomed s).destroying } := rfl
  rw [hdropped, h]

omit [Engine] in
/-- A revision keeps the GUID. -/
theorem revised_guid (s : Split) : (plan.revised book t s).guid = s.guid := by
  unfold TransactionPlan.revised updated KeyedList.update
  split <;> rfl

/-- A plan keeps the GUIDs of a transaction's splits distinct. -/
theorem applyPlan_nodup (h : plan.Accepted book spec t) (hguids : UniqueGuids newGuid t) :
    ((applyPlan newGuid book plan t).splits.map Split.guid).Nodup := by
  rw [applyPlan_splits h hguids, List.map_append, List.map_map]
  have hold : ((plan.setHeader t).splits.map (Split.guid ∘ plan.revised book t))
      = t.splits.map Split.guid := by
    rw [← setHeader_guids plan t]
    exact List.map_congr_left fun s _ => revised_guid s
  rw [hold]
  refine List.nodup_append.mpr ⟨hguids.distinct, created_nodup hguids.injective 0, ?_⟩
  intro g hg g' hg' heq
  obtain ⟨s, hs, rfl⟩ := List.mem_map.mp hg'
  obtain ⟨k, p, -, -, rfl⟩ := mem_created.mp hs
  have heq : g = newGuid (0 + k + 1) := heq
  exact hguids.unused (0 + k + 1) (heq ▸ hg)

/-- Where nothing is left out, every split is named. -/
theorem claimed_of_no_doomed (h : plan.Accepted book spec t) (hdoomed : plan.doomed = [])
    {s : Split} (hs : s ∈ (plan.setHeader t).splits) : s.guid ∈ claims plan.splits := by
  have hguid : s.guid ∈ t.splits.map Split.guid :=
    setHeader_guids plan t ▸ List.mem_map_of_mem hs
  obtain ⟨s', hs', hguid'⟩ := List.mem_map.mp hguid
  by_contra hclaim
  have hmem := (h.doomed s' hs').mpr (hguid' ▸ hclaim)
  rw [hdoomed] at hmem
  cases hmem

/-- **One split for each round**, on a transaction whose splits are live and, where the plan
leaves some out, can be destroyed. -/
theorem liveSplits_perm_rows (h : plan.Accepted book spec t) (hguids : UniqueGuids newGuid t)
    (hlive : ∀ s ∈ t.splits, s.destroying = false) (hdestroys : t.readOnly = true → plan.doomed = []) :
    (applyPlan newGuid book plan t).liveSplits.Perm (plan.rows book newGuid t) := by
  have hnodup : (applyPlan newGuid book plan t).liveSplits.Nodup :=
    ((applyPlan_nodup h hguids).of_map _).filter _
  refine (List.perm_ext_iff_of_nodup hnodup ((rows_nodup h hguids).of_map _)).mpr fun s => ?_
  have hheaderLive : ∀ s ∈ (plan.setHeader t).splits, s.destroying = false := setHeader_live hlive
  -- A named split goes through its own round only, and is not dropped before.
  have hnamed : ∀ {i : ℕ} {p : SplitPlan} {g : Guid}, plan.splits[i]? = some p →
      p.existing = some g →
      plan.revised book t (p.start newGuid (plan.setHeader t) i)
        = p.row book plan.currency newGuid (plan.setHeader t) i := by
    intro i p g hi hg
    obtain ⟨hstart, hguid⟩ := start_mem newGuid h hi hg
    have hkept : (plan.revised book t (p.start newGuid (plan.setHeader t) i)).destroying = false :=
      (revised_live h hstart).mpr ⟨hheaderLive _ hstart, Or.inl (hguid ▸ mem_claims hi hg)⟩
    rw [revised_of_named h hi (hg.trans (congrArg some hguid.symm))] at hkept ⊢
    have hdropped := dropped_eq_self (hkept.trans (hheaderLive _ hstart).symm)
    rw [hdropped]
    rfl
  rw [liveSplits_applyPlan h hguids, List.mem_append, mem_rows]
  constructor
  · rintro (hs | hs)
    · obtain ⟨s₀, hs₀, rfl⟩ := List.mem_map.mp hs
      obtain ⟨hs₀, -, hclaim⟩ := (mem_staying h).mp hs₀
      have hclaim : s₀.guid ∈ claims plan.splits := by
        rcases hclaim with hclaim | hreadOnly
        · exact hclaim
        · exact claimed_of_no_doomed h (hdestroys hreadOnly) hs₀
      obtain ⟨p, hmem, hp⟩ := List.mem_filterMap.mp hclaim
      obtain ⟨i, hi⟩ := List.mem_iff_getElem?.mp hmem
      obtain ⟨hstart, hguid⟩ := start_mem newGuid h hi hp
      have hsame : s₀ = p.start newGuid (plan.setHeader t) i := by
        refine List.inj_on_of_nodup_map ?_ hs₀ hstart hguid.symm
        rw [setHeader_guids]
        exact hguids.distinct
      exact ⟨i, p, hi, by rw [hsame, hnamed hi hp]⟩
    · obtain ⟨k, p, hk, hp, rfl⟩ := mem_created.mp hs
      refine ⟨k, p, hk, ?_⟩
      rw [SplitPlan.row, SplitPlan.start, hp, zero_add]
  · rintro ⟨i, p, hi, rfl⟩
    cases hp : p.existing with
    | some g =>
      left
      obtain ⟨hstart, hguid⟩ := start_mem newGuid h hi hp
      rw [← hnamed hi hp]
      refine List.mem_map_of_mem ((mem_staying h).mpr ⟨hstart, hheaderLive _ hstart, Or.inl ?_⟩)
      exact hguid ▸ mem_claims hi hp
    | none =>
      right
      refine mem_created.mpr ⟨i, p, hi, hp, ?_⟩
      rw [SplitPlan.row, SplitPlan.start, hp, zero_add]

end Rows

/-! ### What a request asks for

`Asked spec plan` says of one spec split and its plan that the plan is what the request asks for,
with the defaults filled in. -/

section Asked

variable [Engine] {book : Book} {spec : Shim.Transaction} {existing : Option Transaction}
  {plan : TransactionPlan} {now : Int64}

/-- The split plan of a spec split. -/
structure Asked (requested : Shim.Split) (p : SplitPlan) : Prop where
  unnamed : requested.guid.isEmpty = true → p.existing = none
  named : requested.guid.isEmpty = false →
    ∃ g, p.existing = some g ∧ Engine.guidToString g = requested.guid
  account : Engine.stringToGuid (cStr requested.accountGuid) = some p.account
  memo : p.memo = requested.memo
  action : p.action = requested.action
  reconcile : reconcileStateToProto p.reconcile =
    if requested.reconcileState = .unspecified then .notReconciled else requested.reconcileState

omit [Engine] in
/-- A state that was accepted is shown as it was sent, and as "not reconciled" where none was. -/
theorem reconcileStateToProto_planReconcile {state : Shim.ReconcileState} {field : String}
    {flag : Char} (h : planReconcile state field = .ok flag) :
    reconcileStateToProto flag = if state = .unspecified then .notReconciled else state := by
  simp only [planReconcile] at h
  split at h
  · next hstate =>
    cases h
    rw [if_pos hstate]
    rfl
  · next hstate =>
    rw [if_neg hstate]
    exact reconcileStateToProto_of_fromProto h

/-- **An accepted plan** is what its request asks for, split by split. -/
theorem planTransaction_asked (h : planTransaction now book spec existing = .ok plan) :
    List.Forall₂ Asked spec.splits plan.splits := by
  obtain ⟨-, -, -, -, claimed, sum, hsplits, -⟩ := planTransaction_ok h
  refine planSplits_forall (fun claimed field requested p hp => ?_) hsplits
  obtain ⟨hexisting, haccount, -, -, hmemo, haction, hreconcile⟩ := planSplit_ok hp
  refine ⟨?_, ?_, (findAccount_ok haccount).1, hmemo, haction,
    reconcileStateToProto_planReconcile hreconcile⟩
  · intro hempty
    rcases findExisting_ok hexisting with ⟨-, hnone⟩ | ⟨hnamed, -⟩
    · exact hnone
    · rw [hempty] at hnamed
      cases hnamed
  · intro hnamed
    rcases findExisting_ok hexisting with ⟨hempty, -⟩ | ⟨-, -, split, -, hsome, hguid⟩
    · rw [hnamed] at hempty
      cases hempty
    · exact ⟨split.guid, hsome, hguid⟩

end Asked

/-! ### Full replacement

The header is read off the plan, the splits are the rows in another order, and each row meets the
spec split at its position. -/

section Replacement

variable [Engine]

/-- No text of the request holds a NUL. -/
structure Shim.Transaction.PlainTexts (spec : Shim.Transaction) : Prop where
  num : '\x00' ∉ spec.num.toList
  description : '\x00' ∉ spec.description.toList
  memo : ∀ requested ∈ spec.splits, '\x00' ∉ requested.memo.toList
  action : ∀ requested ∈ spec.splits, '\x00' ∉ requested.action.toList

/-- Every amount is a multiple of the smallest unit it is stored in. -/
def TransactionPlan.Representable (book : Book) (plan : TransactionPlan) : Prop :=
  ∀ p ∈ plan.splits, Daichod.Representable plan.currency.fraction p.value ∧
    ∀ f, amountFraction book p.account = some f → Daichod.Representable f p.quantity

/-- The engine flags the splits that the plan passes to `xaccSplitDestroy`. -/
def TransactionPlan.Destroys (plan : TransactionPlan) (t : Transaction) : Prop :=
  ∀ g ∈ plan.doomed, ∀ s ∈ (t.destroySplit g).splits, s.guid = g → s.destroying = true

/-- A split is what a spec split asks for: the split of `t` with its GUID, or a new one. -/
structure Meets (t : Transaction) (requested : Shim.Split) (s : Split) : Prop where
  named : requested.guid.isEmpty = false →
    s.guid ∈ t.splits.map Split.guid ∧ Engine.guidToString s.guid = requested.guid
  fresh : requested.guid.isEmpty = true → s.guid ∉ t.splits.map Split.guid
  account : Engine.stringToGuid (cStr requested.accountGuid) = some s.account
  value : s.value.toRat = requested.value.toRat
  quantity : s.amount.toRat = requested.quantity.toRat
  memo : s.memo = requested.memo
  action : s.action = requested.action
  reconcile : reconcileStateToProto s.reconcile =
    if requested.reconcileState = .unspecified then .notReconciled else requested.reconcileState
  live : s.destroying = false

/-- `t'` is the transaction that the request asks to have in place of `t`. -/
structure Replaced (book : Book) (spec : Shim.Transaction) (t t' : Transaction) : Prop where
  currency : ∃ id c, spec.currency = some id ∧ book.lookupCommodity id.space id.mnemonic = some c ∧
    t'.currency = some c.name
  postDate : t'.postDate.map dateToProto = spec.postDate
  enterTime : t'.enterTime = spec.enterTimeUtc
  num : t'.num = spec.num
  description : t'.description = spec.description
  /-- One split for each spec split, and no other. -/
  splits : ∃ rows : List Split, t'.splits.Perm rows ∧ List.Forall₂ (Meets t) spec.splits rows
  distinct : (t'.splits.map Split.guid).Nodup
  gone : ∀ s ∈ t.splits, Engine.guidToString s.guid ∉ spec.splits.map Shim.Split.guid →
    s.guid ∉ t'.splits.map Split.guid

variable {b : Book} {spec : Shim.Transaction} {t : Transaction} {plan : TransactionPlan}
  {newGuid : ℕ → Guid} {now : Int64}

omit [Engine] in
/-- An element on the right has its partner on the left. -/
theorem exists_of_forall₂_right {α β : Type} {R : α → β → Prop} {l : List α} {l' : List β}
    (h : List.Forall₂ R l l') {b : β} (hb : b ∈ l') : ∃ a ∈ l, R a b := by
  induction h with
  | nil => cases hb
  | cons hab _ ih =>
    rcases List.mem_cons.mp hb with rfl | hb
    · exact ⟨_, List.mem_cons_self, hab⟩
    · obtain ⟨a, ha, hR⟩ := ih hb
      exact ⟨a, List.mem_cons_of_mem _ ha, hR⟩

omit [Engine] in
/-- A setter that is given a multiple of its unit stores it. -/
theorem storeAmount_of_representable (name : Option CommodityName) {old v : GncNumeric}
    (hd : 0 < v.denom.toInt)
    (h : ∀ f, name.bind b.fraction = some f → Daichod.Representable f v) :
    (storeAmount (name.bind b.fraction) old v).toRat = v.toRat :=
  (storeAmount_exact_iff name hd).mpr fun f hf => Or.inl (h f hf)

/-- A round leaves what its spec split asks for. -/
theorem row_meets (h : plan.Accepted b spec t) (hguids : UniqueGuids newGuid t)
    (hlive : ∀ s ∈ t.splits, s.destroying = false) (hamounts : plan.Representable b)
    (htexts : spec.PlainTexts) {i : ℕ} {requested : Shim.Split} {p : SplitPlan}
    (hrequested : spec.splits[i]? = some requested) (hi : plan.splits[i]? = some p)
    (hasked : Asked requested p) :
    Meets t requested (p.row b plan.currency newGuid (plan.setHeader t) i) := by
  have hguid : (p.row b plan.currency newGuid (plan.setHeader t) i).guid = p.target newGuid i :=
    row_guid h hi
  obtain ⟨hvalue, hquantity⟩ := h.requested_eq hrequested hi
  obtain ⟨hvalueUnit, hquantityUnit⟩ := hamounts p (List.mem_of_getElem? hi)
  have hmem : requested ∈ spec.splits := List.mem_of_getElem? hrequested
  -- Account, memo, action and state are set as they were sent; the amounts are rounded to the
  -- fractions of the currency and of the account's commodity.
  refine ⟨fun hnamed => ?_, fun hempty => ?_, hasked.account, ?_, ?_, ?_, ?_, hasked.reconcile, ?_⟩
  · obtain ⟨g, hg, hname⟩ := hasked.named hnamed
    rw [hguid, SplitPlan.target, hg]
    exact ⟨h.owned g (mem_claims hi hg), hname⟩
  · rw [hguid, SplitPlan.target, hasked.unnamed hempty]
    exact hguids.unused (i + 1)
  · rw [← hvalue]
    show (storeAmount (some plan.currency.fraction) _ p.value).toRat = _
    rw [← h.fraction]
    refine storeAmount_of_representable (some plan.currency.name) (h.pos hi).1 fun f hf => ?_
    rw [Option.bind_some, h.fraction] at hf
    exact Option.some.inj hf ▸ hvalueUnit
  · rw [← hquantity]
    show (storeAmount (amountFraction b p.account) _ p.quantity).toRat = _
    rw [amountFraction_eq] at hquantityUnit ⊢
    exact storeAmount_of_representable _ (h.pos hi).2 hquantityUnit
  · show cStr p.memo = _
    rw [hasked.memo, cStr_eq_self (htexts.memo requested hmem)]
  · show cStr p.action = _
    rw [hasked.action, cStr_eq_self (htexts.action requested hmem)]
  · show (p.start newGuid (plan.setHeader t) i).destroying = false
    cases hg : p.existing with
    | none => simp [SplitPlan.start, hg, Split.blank]
    | some g => exact setHeader_live hlive _ (start_mem newGuid h hi hg).1

/-- All rounds do. -/
theorem rows_meet (hplan : planTransaction now b spec (some t) = .ok plan)
    (hguids : UniqueGuids newGuid t) (hlive : ∀ s ∈ t.splits, s.destroying = false)
    (hamounts : plan.Representable b) (htexts : spec.PlainTexts) :
    List.Forall₂ (Meets t) spec.splits (plan.rows b newGuid t) := by
  have haccepted : plan.Accepted b spec t := planTransaction_accepted hplan
  have hasked := planTransaction_asked hplan
  have hlength : spec.splits.length = plan.splits.length := hasked.length_eq
  have hrows : (plan.rows b newGuid t).length = plan.splits.length := by
    simp [TransactionPlan.rows]
  refine List.forall₂_iff_get.mpr ⟨hlength.trans hrows.symm, fun i hi _ => ?_⟩
  have hi' : i < plan.splits.length := hlength ▸ hi
  have hmeets := row_meets haccepted hguids hlive hamounts htexts (List.getElem?_eq_getElem hi)
    (List.getElem?_eq_getElem hi') ((List.forall₂_iff_get.mp hasked).2 i hi hi')
  simpa [TransactionPlan.rows] using hmeets

/-- A read-only transaction keeps its splits, so the plan leaves none out. -/
theorem TransactionPlan.Destroys.doomed_eq_nil (h : plan.Destroys t)
    (hplan : planTransaction now b spec (some t) = .ok plan)
    (hlive : ∀ s ∈ t.splits, s.destroying = false) (hreadOnly : t.readOnly = true) :
    plan.doomed = [] := by
  obtain ⟨-, -, -, -, claimed, sum, -, -, hdoomed, -⟩ := planTransaction_ok hplan
  refine List.eq_nil_iff_forall_not_mem.mpr fun g hg => ?_
  have hmem : g ∈ doomedSplits (some t.splits) claimed := by
    rw [hdoomed] at hg
    exact hg
  obtain ⟨s, hs, rfl⟩ := List.mem_map.mp hmem
  have hs : s ∈ t.splits := (List.mem_filter.mp hs).1
  have hkept : (t.destroySplit s.guid).splits = t.splits := by
    rw [Transaction.destroySplit, if_pos hreadOnly]
  have hflagged := h s.guid hg s (hkept ▸ hs) rfl
  rw [hlive s hs] at hflagged
  cases hflagged

/-- **What an accepted plan commits.** -/
theorem committed_replaced (hplan : planTransaction now b spec (some t) = .ok plan)
    (hguids : UniqueGuids newGuid t) (hrest : t.AtRest) (hdestroys : plan.Destroys t)
    (hamounts : plan.Representable b) (htexts : spec.PlainTexts) (henter : spec.enterTimeUtc ≠ 0) :
    Replaced b spec t (plan.committed newGuid b t) := by
  have haccepted : plan.Accepted b spec t := planTransaction_accepted hplan
  have hlive : ∀ s ∈ t.splits, s.destroying = false := fun s hs => (hrest.splits s hs).live
  have hheader : SameHeader (plan.setHeader t) (plan.committed newGuid b t) :=
    committed_header plan t
  have hperm : (plan.committed newGuid b t).splits.Perm (plan.rows b newGuid t) :=
    liveSplits_perm_rows haccepted hguids hlive (hdestroys.doomed_eq_nil hplan hlive)
  have hmeets := rows_meet hplan hguids hlive hamounts htexts
  obtain ⟨hcurrency, -, hdate, -, -, -, -, -, -, htime, hnum, hdescription⟩ :=
    planTransaction_ok hplan
  refine ⟨?_, ?_, ?_, ?_, ?_, ⟨_, hperm, hmeets⟩, ?_, ?_⟩
  -- the header, field by field: each is what the plan read from the request
  · simp only [planCurrency] at hcurrency
    split at hcurrency
    · cases hcurrency
    · next id hid =>
      simp only [findCommodity] at hcurrency
      split at hcurrency
      · next c hc =>
        cases hcurrency
        exact ⟨id, _, hid, hc, hheader.currency⟩
      · cases hcurrency
  · rw [hheader.postDate]
    show (some plan.postDate).map dateToProto = _
    simp only [planPostDate] at hdate
    split at hdate
    · cases hdate
    · next date hspec => rw [hspec, Option.map_some, dateToProto_of_dateFromProto hdate]
  · rw [hheader.enterTime]
    show plan.enterTime = _
    rw [htime, if_pos henter]
  · rw [hheader.num]
    show cStr plan.num = _
    rw [hnum, cStr_eq_self htexts.num]
  · rw [hheader.description]
    show cStr plan.description = _
    rw [hdescription, cStr_eq_self htexts.description]
  -- no GUID comes twice, as no two rows have one
  · exact (hperm.map Split.guid).nodup_iff.mpr (rows_nodup haccepted hguids)
  -- a row under an old split's GUID is a row that names it
  · intro s hs hunnamed hmem
    rw [(hperm.map Split.guid).mem_iff] at hmem
    obtain ⟨row, hrow, hguid⟩ := List.mem_map.mp hmem
    obtain ⟨requested, hrequested, hmeet⟩ := exists_of_forall₂_right hmeets hrow
    cases hempty : requested.guid.isEmpty with
    | true => exact hmeet.fresh hempty (hguid ▸ List.mem_map_of_mem hs)
    | false =>
      refine hunnamed (List.mem_map.mpr ⟨requested, hrequested, ?_⟩)
      rw [← hguid, (hmeet.named hempty).2]

variable [Wire] {request : Shim.UpdateTransactionRequest} {fate : Fate} {w : World} {g : Guid}
  {edit : Edit Shim.Transaction}

/-- The response a call has recorded as pending, if it is killed right behind that. -/
def pendingResponse (m : Mutation) (fate : Fate) (w : World) : Option Bytes :=
  ((worldAfter (m.run { fate with crashAt := some .afterPending } w)).journal.intent
    m.mutationId).bind Intent.pendingResponse

/-- What a validated call records. -/
theorem pendingResponse_of_reaches {m : Mutation} {edit : Edit m.Response}
    (hreach : m.Reaches fate w edit) :
    pendingResponse m fate w = some (m.codec.serialize edit.response) := by
  obtain ⟨i, hi⟩ := Mutation.intent_journaled m fate w
  rw [pendingResponse, Mutation.run_killedAfterPending hreach]
  show (((m.journaled fate w).journal.updatePending m.mutationId _).intent m.mutationId).bind _ = _
  rw [Journal.intent_updatePending, if_pos rfl, hi]
  rfl

/-- **An accepted update replaces its transaction**, in full and in nothing else, and its
response, recorded before the commit, is the transaction committed. -/
theorem update_replaces (hreach : (Mutation.updateTransaction request).Reaches fate w edit)
    (hcommits : fate.finalStep = .commits) (hquiet : w.store.Quiet)
    (hfind : findTransaction w.book request.transaction.guid "transaction.guid" = .ok g)
    (ht : w.book.transaction g = some t)
    (hplan : planTransaction fate.gncTime w.book request.transaction (some t) = .ok plan)
    (hguids : UniqueGuids fate.newGuid t) (hrest : t.AtRest) (hdestroys : plan.Destroys t)
    (hamounts : plan.Representable w.book) (htexts : request.transaction.PlainTexts)
    (henter : request.transaction.enterTimeUtc ≠ 0) :
    ∃ t', (worldAfter ((Mutation.updateTransaction request).run fate w)).book
        = w.book.setEntities (w.book.entities.insert (.transaction g) t') ∧
      Replaced w.book request.transaction t t' ∧
      (∀ response w', (Mutation.updateTransaction request).run fate w = .ok response w' →
        response = transactionToProto g t') ∧
      pendingResponse (Mutation.updateTransaction request) fate w
        = some (Wire.transaction.serialize (transactionToProto g t')) ∧
      (transactionToProto g t').splits = t'.splits.map splitToProto := by
  obtain ⟨g', plan', hfind', hplan', rfl⟩ :=
    plan_updateTransaction_ok (Mutation.validated_ok hreach.valid).2.2
  obtain rfl := Except.ok.inj (hfind'.symm.trans hfind)
  rw [ht] at hplan'
  obtain rfl := Except.ok.inj (hplan'.symm.trans hplan)
  have hresponse : (updateTransactionEdit fate.newGuid g' w.book plan').response
      = transactionToProto g' (plan'.committed fate.newGuid w.book t) :=
    response_updateTransactionEdit ht
  obtain ⟨hbook, hreply⟩ := Mutation.book_of_commits hreach hquiet hcommits
  refine ⟨plan'.committed fate.newGuid w.book t, ?_,
    committed_replaced hplan hguids hrest hdestroys hamounts htexts henter, ?_, ?_, ?_⟩
  · rw [hbook, after_updateTransactionEdit ht hrest.live]
  · intro response w' hrun
    rw [hreply response w' hrun, hresponse]
  · rw [pendingResponse_of_reaches hreach, hresponse]
    rfl
  · rw [transactionToProto, committed_liveSplits]

end Replacement

section Receipt

open Reference

attribute [local instance] Reference.engine Reference.wire

/-- The daemon behind a first post, which has GUID 16 and the splits 17 and 18. -/
def posted : World := (started.step (.mutate (post '1' 100) (calm 16))).world

/-- The transaction posted. -/
def receipt : Transaction where
  currency := some ⟨"CURRENCY", "USD"⟩
  postDate := some ⟨29, 2, 2024⟩
  enterTime := 0
  num := ""
  description := "Groceries"
  splits :=
    [{ Split.blank 17 2 with value := ⟨-100, 100⟩, amount := ⟨-100, 100⟩ },
      { Split.blank 18 3 with value := ⟨100, 100⟩, amount := ⟨100, 100⟩ }]
  readOnly := false
  destroying := false

/-- Keep the first split with another amount, and put a new one in place of the second. -/
def correction : Shim.Transaction :=
  { transaction (guidToString 16) [{ split 2 (-250) with guid := guidToString 17 }, split 3 250] with
    enterTimeUtc := 7 }

/-- The request that corrects the receipt. -/
def correct : Shim.UpdateTransactionRequest := ⟨⟨mutationId '2'⟩, correction⟩

/-- New GUIDs count up from 32, and those of the receipt are below. -/
theorem uniqueGuids_receipt : UniqueGuids (calm 32).newGuid receipt where
  injective i j h := Nat.add_left_cancel h
  unused i h := by
    have hlow : ∀ g ∈ receipt.splits.map Split.guid, g < 32 := by decide
    exact absurd (hlow _ h) (by simp [calm])
  distinct := by decide

/-- Whole cents need no rounding. -/
theorem representable_cents (amount : Int64) : Representable 100 ⟨amount, 100⟩ :=
  ⟨amount.toInt, fitsInt64_toInt amount, rfl⟩

/-- The correction gets to the engine's last step. -/
theorem exists_reaches_correct :
    ∃ edit, (Mutation.updateTransaction correct).Reaches (calm 32) posted edit := by
  have happlies : (Mutation.updateTransaction correct).Applies (calm 32) posted :=
    ⟨by decide +kernel, rfl, by decide, rfl, by decide +kernel⟩
  exact happlies.exists_reaches (by decide +kernel) rfl (by decide)

/-- The post before it is all committed. -/
theorem posted_quiet : posted.store.Quiet := ⟨by decide +kernel, by decide +kernel⟩

/-- The receipt is there as it was posted. -/
theorem posted_receipt : posted.book.transaction 16 = some receipt := by decide +kernel

/-- Nothing of it is being destroyed. -/
theorem receipt_atRest : receipt.AtRest := ⟨rfl, fun s hs => by
  rcases List.mem_pair.mp hs with rfl | rfl <;> exact ⟨rfl, Or.inl rfl⟩⟩

/-- The correction names it. -/
theorem find_receipt :
    findTransaction posted.book correct.transaction.guid "transaction.guid" = .ok 16 := by
  decide +kernel

/-- The correction replaces the receipt. -/
theorem update_replaces_receipt :
    ∃ t', (worldAfter ((Mutation.updateTransaction correct).run (calm 32) posted)).book
        = posted.book.setEntities (posted.book.entities.insert (.transaction 16) t') ∧
      Replaced posted.book correction receipt t' ∧
      (∀ response w', (Mutation.updateTransaction correct).run (calm 32) posted = .ok response w' →
        response = transactionToProto 16 t') ∧
      pendingResponse (Mutation.updateTransaction correct) (calm 32) posted
        = some (Wire.transaction.serialize (transactionToProto 16 t')) ∧
      (transactionToProto 16 t').splits = t'.splits.map splitToProto := by
  obtain ⟨edit, hreach⟩ := exists_reaches_correct
  -- what the planning comes to: the currency has cents, and split 18 is to go
  have hfractions : (planTransaction 0 posted.book correction (some receipt)).toOption.map
      (fun plan => (plan.currency.fraction, plan.doomed)) = some (100, [18]) := by
    decide +kernel
  -- and two splits are left, with their amounts
  have hrows : (planTransaction 0 posted.book correction (some receipt)).toOption.map
      (fun plan => plan.splits.map fun p =>
        (p.value, p.quantity, amountFraction posted.book p.account))
      = some [(⟨-250, 100⟩, ⟨-250, 100⟩, some 100), (⟨250, 100⟩, ⟨250, 100⟩, some 100)] := by
    decide +kernel
  cases hplan : planTransaction 0 posted.book correction (some receipt) with
  | error e => rw [hplan] at hrows; cases hrows
  | ok plan =>
    rw [hplan] at hfractions hrows
    obtain ⟨hfraction, hdoomed⟩ := Prod.mk.inj (Option.some.inj hfractions)
    have hsplits : plan.splits.map (fun p =>
        (p.value, p.quantity, amountFraction posted.book p.account))
        = [(⟨-250, 100⟩, ⟨-250, 100⟩, some 100), (⟨250, 100⟩, ⟨250, 100⟩, some 100)] :=
      Option.some.inj hrows
    have hdestroys : plan.Destroys receipt := by
      rw [TransactionPlan.Destroys, hdoomed]
      decide
    -- so that nothing is rounded
    have hamounts : plan.Representable posted.book := by
      intro p hp
      have hmem := hsplits ▸ List.mem_map_of_mem
        (f := fun p : SplitPlan => (p.value, p.quantity, amountFraction posted.book p.account)) hp
      rw [hfraction]
      rcases List.mem_pair.mp hmem with h | h <;>
        (simp only [Prod.mk.injEq] at h
         obtain ⟨hvalue, hquantity, hunit⟩ := h
         rw [hvalue, hquantity, hunit]
         exact ⟨representable_cents _, fun f hf => Option.some.inj hf ▸ representable_cents _⟩)
    have htexts : correction.PlainTexts :=
      ⟨by decide, by decide, by decide +kernel, by decide +kernel⟩
    exact update_replaces hreach rfl posted_quiet find_receipt posted_receipt hplan
      uniqueGuids_receipt receipt_atRest hdestroys hamounts htexts (by decide)

end Receipt

end Daichod
