import Daichod.Properties.AccountUpdate
import Daichod.Properties.FullReplacement

/-!
# Daichod.Properties.Texts

**Text as sent** (`textsAsSent_iff`). A protobuf string is counted, the engine's setters take
what `c_str` points to, which ends at the first NUL. Every text of an account or transaction
goes through such a setter and is read back for the response, so the response shows each text
up to its first NUL, and the request is answered OK. The check that an account has a name is
made on the counted string, and lets a name through that begins with a NUL.

The splits of a response stand in the engine's order. The one that answers a requested split
is told by its GUID: the one requested, or the one allocated for it.

## Proof shape

A setter stores `cStr` of a text and the response shows what is stored, so a text comes back
unchanged if and only if it has no NUL. For accounts that is three texts. For transactions it is
two and those of each split, and the work is to find the split that answers each requested one
(`texts_of_target`, `exists_of_shown`).
-/

namespace Daichod

section Texts

variable [Engine]

/-- The GUID of the split that answers the `i`-th requested split. -/
def answerGuid (fate : Fate) (i : ℕ) (requested : Shim.Split) : String :=
  if requested.guid.isEmpty then Engine.guidToString (fate.newGuid (i + 1)) else requested.guid

/-- The texts of an account are as sent, and it has a name. -/
structure AccountTexts (spec response : Shim.Account) : Prop where
  name : response.name = spec.name
  code : response.code = spec.code
  description : response.description = spec.description
  named : response.name ≠ ""

/-- The texts of a transaction and of its splits are as sent. -/
structure TransactionTexts (fate : Fate) (spec response : Shim.Transaction) : Prop where
  num : response.num = spec.num
  description : response.description = spec.description
  splits : ∀ i requested, spec.splits[i]? = some requested → ∀ row ∈ response.splits,
    row.guid = answerGuid fate i requested →
      row.memo = requested.memo ∧ row.action = requested.action

/-- The requested split is a new one, or one that the transaction shows. -/
def Shown (t : Transaction) (requested : Shim.Split) : Prop :=
  requested.guid.isEmpty = true ∨
    ∃ s ∈ t.splits, Engine.guidToString s.guid = requested.guid ∧ s.destroying = false

/-- No text that is shown in the response has a NUL in it. -/
structure PlainFor (t : Transaction) (spec : Shim.Transaction) : Prop where
  num : '\x00' ∉ spec.num.toList
  description : '\x00' ∉ spec.description.toList
  splits : ∀ requested ∈ spec.splits, Shown t requested →
    '\x00' ∉ requested.memo.toList ∧ '\x00' ∉ requested.action.toList

variable [Wire]

/-- Every text of the response is the request's. -/
def Mutation.TextsAsSent (fate : Fate) : (m : Mutation) → m.Response → Prop
  | .createAccount request, response => AccountTexts request.account response
  | .updateAccount request, response => AccountTexts request.account response
  | .postTransaction request, response => TransactionTexts fate request.transaction response
  | .updateTransaction request, response => TransactionTexts fate request.transaction response
  | .deleteAccount _, _ | .setReconcileInfo _, _ | .deleteTransaction _, _ | .addPrice _, _ => True

/-- No text of the request has a NUL in it. -/
def Mutation.PlainTexts (b : Book) : Mutation → Prop
  | .createAccount request => request.account.PlainTexts
  | .updateAccount request => request.account.PlainTexts
  | .postTransaction request => PlainFor .blank request.transaction
  | .updateTransaction request => ∀ g t,
      findTransaction b request.transaction.guid "transaction.guid" = .ok g →
        b.transaction g = some t → PlainFor t request.transaction
  | .deleteAccount _ | .setReconcileInfo _ | .deleteTransaction _ | .addPrice _ => True

section Accounts

variable {g : Guid} {table : Finmap Entity} {spec : Shim.Account} {type : GNCAccountType}
  {commodity : Commodity} {parent : Guid} {a : Account}

omit [Wire] in
/-- The response shows the account with its setters run. -/
theorem accountResponse_setAccount (h : table.lookup (.account g) = some a) :
    accountResponse g (setAccount g spec type commodity parent table)
      = accountToProto g (accountSet spec type commodity parent a) := by
  rw [accountResponse, lookup_setAccount_self _ _ _ _ h]
  rfl

omit [Wire] in
/-- It shows the texts as sent if they have no NUL; the name is not empty then. -/
theorem accountTexts_iff (hname : spec.name ≠ "") :
    AccountTexts spec (accountToProto g (accountSet spec type commodity parent a)) ↔
      spec.PlainTexts := by
  constructor
  · intro h
    exact ⟨cStr_eq_self_iff.mp h.name, cStr_eq_self_iff.mp h.code,
      cStr_eq_self_iff.mp h.description⟩
  · intro h
    have hstored : cStr spec.name = spec.name := cStr_eq_self h.name
    exact ⟨hstored, cStr_eq_self h.code, cStr_eq_self h.description,
      fun hempty => hname (hstored.symm.trans hempty)⟩

end Accounts

section Transactions

variable {b : Book} {spec : Shim.Transaction} {t : Transaction} {plan : TransactionPlan}
  {fate : Fate} {i : ℕ} {p : SplitPlan} {g : Guid}

omit [Engine] [Wire] in
/-- Lists that are related have related elements. -/
theorem exists_of_forall₂_getElem {α β : Type} {R : α → β → Prop} {l : List α} {l' : List β}
    (h : List.Forall₂ R l l') {a : α} (ha : l[i]? = some a) : ∃ b, l'[i]? = some b ∧ R a b := by
  induction h generalizing i with
  | nil => cases ha
  | cons hab _ ih =>
    cases i with
    | zero =>
      obtain rfl := Option.some.inj ha
      exact ⟨_, rfl, hab⟩
    | succ i => exact ih ha

omit [Wire] in
/-- The split of a split plan has the texts its setters leave, whatever splits there are. -/
theorem texts_of_target (h : plan.Accepted b spec t) (hguids : UniqueGuids fate.newGuid t)
    (hi : plan.splits[i]? = some p) {s : Split} (hs : s ∈ (applyPlan fate.newGuid b plan t).splits)
    (hguid : s.guid = p.target fate.newGuid i) : s.memo = cStr p.memo ∧ s.action = cStr p.action := by
  rw [applyPlan_splits h hguids, List.mem_append] at hs
  unfold SplitPlan.target at hguid
  -- The split is one of before, revised by its plan, or it was made for a plan without a GUID.
  rcases hs with hs | hs
  · obtain ⟨s₀, hs₀, rfl⟩ := List.mem_map.mp hs
    have hold : s₀.guid ∈ t.splits.map Split.guid :=
      setHeader_guids plan t ▸ List.mem_map_of_mem hs₀
    rw [revised_guid] at hguid
    rw [hguid] at hold
    cases hexisting : p.existing with
    | none =>
      rw [hexisting] at hold
      -- A new GUID is not among the transaction's.
      exact absurd hold (hguids.unused (i + 1))
    | some g =>
      rw [hexisting] at hguid
      rw [revised_of_named h hi (hexisting.trans (congrArg some hguid.symm))]
      exact ⟨rfl, rfl⟩
  · obtain ⟨k, q, hk, hq, rfl⟩ := mem_created.mp hs
    have hguid : fate.newGuid (0 + k + 1) = p.existing.getD (fate.newGuid (i + 1)) := hguid
    cases hexisting : p.existing with
    | none =>
      rw [hexisting] at hguid
      have hindex := hguids.injective hguid
      obtain rfl : k = i := by omega
      obtain rfl := Option.some.inj (hi.symm.trans hk)
      exact ⟨rfl, rfl⟩
    | some g =>
      rw [hexisting] at hguid
      have hmem := h.owned g (mem_claims hi hexisting)
      exact absurd (hguid ▸ hmem) (hguids.unused (0 + k + 1))

omit [Wire] in
/-- A split that is shown was shown before, unless it is new. -/
theorem shown_of_mem (h : plan.Accepted b spec t) (hguids : UniqueGuids fate.newGuid t)
    (hi : plan.splits[i]? = some p) (hg : p.existing = some g) {s : Split}
    (hs : s ∈ (applyPlan fate.newGuid b plan t).liveSplits) (hguid : s.guid = g) :
    ∃ s₀ ∈ t.splits, s₀.guid = g ∧ s₀.destroying = false := by
  rw [liveSplits_applyPlan h hguids, List.mem_append] at hs
  -- A split that stays was there before; one that is made has a new GUID, which is not `g`.
  rcases hs with hs | hs
  · obtain ⟨s₁, hs₁, rfl⟩ := List.mem_map.mp hs
    obtain ⟨hmem, hlive, -⟩ := (mem_staying h).mp hs₁
    rw [revised_guid] at hguid
    obtain ⟨rated, hsplits⟩ := setHeader_splits plan t
    rw [hsplits] at hmem
    obtain ⟨s₀, hs₀, rfl⟩ := List.mem_map.mp hmem
    exact ⟨s₀, hs₀, hguid, hlive⟩
  · obtain ⟨k, q, -, -, rfl⟩ := mem_created.mp hs
    have hguid : fate.newGuid (0 + k + 1) = g := hguid
    exact absurd (hguid ▸ h.owned g (mem_claims hi hg)) (hguids.unused (0 + k + 1))

omit [Wire] in
/-- A split plan has its split, if it is a new one or was shown before. -/
theorem exists_of_shown (h : plan.Accepted b spec t) (hguids : UniqueGuids fate.newGuid t)
    (hi : plan.splits[i]? = some p)
    (hshown : ∀ g, p.existing = some g → ∃ s ∈ t.splits, s.guid = g ∧ s.destroying = false) :
    ∃ s ∈ (applyPlan fate.newGuid b plan t).liveSplits, s.guid = p.target fate.newGuid i := by
  simp only [liveSplits_applyPlan h hguids, List.mem_append]
  cases hexisting : p.existing with
  | none =>
    refine ⟨_, Or.inr (mem_created.mpr ⟨i, p, hi, hexisting, rfl⟩), ?_⟩
    rw [SplitPlan.target, hexisting]
    exact congrArg (fun k => fate.newGuid (k + 1)) (Nat.zero_add i)
  | some g =>
    obtain ⟨s₀, hs₀, hguid, hlive⟩ := hshown g hexisting
    obtain ⟨rated, hsplits⟩ := setHeader_splits plan t
    have hmem : { s₀ with value := rated s₀ } ∈ (plan.setHeader t).splits := by
      rw [hsplits]
      exact List.mem_map_of_mem hs₀
    refine ⟨_, Or.inl (List.mem_map_of_mem ((mem_staying h).mpr ⟨hmem, hlive, Or.inl ?_⟩)), ?_⟩
    · exact hguid ▸ mem_claims hi hexisting
    · rw [revised_guid, SplitPlan.target, hexisting]
      exact hguid

omit [Wire] in
/-- The GUID of a requested split's answer is the target of its plan. -/
theorem answerGuid_eq {requested : Shim.Split} (h : Asked requested p) :
    answerGuid fate i requested = Engine.guidToString (p.target fate.newGuid i) := by
  unfold answerGuid SplitPlan.target
  split
  · next hempty =>
    rw [h.unnamed hempty]
    rfl
  · next hnamed =>
    obtain ⟨g, hg, hguid⟩ := h.named (by simpa using hnamed)
    rw [hg, ← hguid]
    rfl

omit [Wire] in
/-- Whether a requested split is shown is a matter of its plan. -/
theorem shown_iff {requested : Shim.Split} (h : Asked requested p) :
    Shown t requested ↔
      ∀ g, p.existing = some g → ∃ s ∈ t.splits, s.guid = g ∧ s.destroying = false := by
  unfold Shown
  cases hempty : requested.guid.isEmpty with
  | true =>
    rw [h.unnamed hempty]
    simp
  | false =>
    obtain ⟨g, hg, hguid⟩ := h.named hempty
    rw [hg, ← hguid]
    simp [Engine.guidToString_injective.eq_iff]

omit [Wire] in
/-- **The texts of a planned transaction.** -/
theorem transactionTexts_iff {now : Int64} {existing : Option Transaction}
    (h : planTransaction now b spec existing = .ok plan) (ht : existing.getD .blank = t)
    (hguids : UniqueGuids fate.newGuid t) :
    TransactionTexts fate spec (transactionToProto g (applyPlan fate.newGuid b plan t)) ↔
      PlainFor t spec := by
  have haccepted : plan.Accepted b spec t := ht ▸ planTransaction_accepted h
  have hasked := planTransaction_asked h
  obtain ⟨-, -, -, -, -, -, -, -, -, -, hnum, hdescription⟩ := planTransaction_ok h
  have hheader : SameHeader (plan.setHeader t) (applyPlan fate.newGuid b plan t) :=
    applyPlan_header plan t
  have hnum' : (applyPlan fate.newGuid b plan t).num = cStr spec.num :=
    hheader.num.trans (congrArg cStr hnum)
  have hdescription' : (applyPlan fate.newGuid b plan t).description = cStr spec.description :=
    hheader.description.trans (congrArg cStr hdescription)
  constructor
  -- From the response to the request: each requested split that is shown has its plan, and the plan
  -- its split.
  · intro htexts
    refine ⟨cStr_eq_self_iff.mp (hnum'.symm.trans htexts.num),
      cStr_eq_self_iff.mp (hdescription'.symm.trans htexts.description), ?_⟩
    intro requested hrequested hshown
    obtain ⟨i, hi⟩ := List.mem_iff_getElem?.mp hrequested
    obtain ⟨p, hp, hask⟩ := exists_of_forall₂_getElem hasked hi
    obtain ⟨s, hs, hguid⟩ := exists_of_shown haccepted hguids hp ((shown_iff hask).mp hshown)
    obtain ⟨hmemo, haction⟩ := htexts.splits i requested hi _ (List.mem_map_of_mem hs)
      ((congrArg Engine.guidToString hguid).trans (answerGuid_eq hask).symm)
    obtain ⟨hmemo', haction'⟩ :=
      texts_of_target haccepted hguids hp (List.mem_filter.mp hs).1 hguid
    rw [hask.memo] at hmemo'
    rw [hask.action] at haction'
    exact ⟨cStr_eq_self_iff.mp (hmemo'.symm.trans hmemo),
      cStr_eq_self_iff.mp (haction'.symm.trans haction)⟩
  -- From the request to the response: the split with the answer's GUID is the one its plan has set.
  · intro hplain
    refine ⟨hnum'.trans (cStr_eq_self hplain.num),
      hdescription'.trans (cStr_eq_self hplain.description), ?_⟩
    intro i requested hi row hrow hguid
    obtain ⟨p, hp, hask⟩ := exists_of_forall₂_getElem hasked hi
    obtain ⟨s, hs, rfl⟩ := List.mem_map.mp hrow
    rw [answerGuid_eq hask] at hguid
    have htarget : s.guid = p.target fate.newGuid i := Engine.guidToString_injective hguid
    obtain ⟨hmemo, haction⟩ :=
      texts_of_target haccepted hguids hp (List.mem_filter.mp hs).1 htarget
    have hshown : Shown t requested := (shown_iff hask).mpr fun g hg =>
      shown_of_mem haccepted hguids hp hg hs (by rw [htarget, SplitPlan.target, hg]; rfl)
    obtain ⟨hmemoPlain, hactionPlain⟩ := hplain.splits requested (List.mem_of_getElem? hi) hshown
    refine ⟨hmemo.trans ?_, haction.trans ?_⟩
    · rw [hask.memo, cStr_eq_self hmemoPlain]
    · rw [hask.action, cStr_eq_self hactionPlain]

end Transactions

/-- **The texts of a response are as sent exactly when** no text it shows was sent with a NUL
in it; and only then is it sure that an account has a name. -/
theorem textsAsSent_iff {m : Mutation} {fate : Fate} {w w' : World} {response : m.Response}
    (hguids : ∀ t, t = .blank ∨ (∃ g, w.book.transaction g = some t) → UniqueGuids fate.newGuid t)
    (hnew : w.journal.resolved m.mutationId = none)
    (hrun : m.run fate w = .ok response w') :
    m.TextsAsSent fate response ↔ m.PlainTexts w.book := by
  have hran := m.ran fate w
  rw [hrun] at hran
  -- An outcome answered from the journal is not new, so a plan was carried out.
  rcases hran.of_ok with ⟨-, row, -, hrow, -⟩ | ⟨-, edit, j, hreach, -, rfl, -⟩
  · rw [hnew] at hrow
    cases hrow
  obtain ⟨hpre, -, hplan⟩ := Mutation.validated_ok hreach.valid
  cases m with
  | createAccount request =>
    obtain ⟨parent, type, commodity, -, -, -, rfl⟩ := plan_createAccount_ok hplan
    obtain ⟨_, -, hpre⟩ := except_bind_ok hpre
    obtain ⟨_, hname, -⟩ := except_bind_ok hpre
    have hresponse : (createAccountEdit (fate.newGuid 0) w.book request.account type commodity
        parent).response = _ := accountResponse_setAccount (Finmap.lookup_insert _)
    rw [hresponse]
    exact accountTexts_iff fun hempty => by simp [hempty, ensure] at hname
  | updateAccount request =>
    obtain ⟨g, type, commodity, parent, hfind, -, -, -, -, -, rfl⟩ := plan_updateAccount_ok hplan
    obtain ⟨-, a, ha⟩ := findAccount_ok hfind
    obtain ⟨_, -, hname⟩ := except_bind_ok hpre
    have hresponse : (updateAccountEdit g w.book request.account type commodity parent).response
        = _ := accountResponse_setAccount ha
    rw [hresponse]
    exact accountTexts_iff fun hempty => by simp [hempty, ensure] at hname
  | postTransaction request =>
    obtain ⟨plan, hplanned, rfl⟩ := plan_postTransaction_ok hplan
    have hresponse : (postTransactionEdit fate.newGuid w.book plan).response
        = transactionToProto (fate.newGuid 0) (applyPlan fate.newGuid w.book plan .blank) := by
      show transactionResponse _ _ = _
      rw [transactionResponse]
      dsimp only
      rw [editTransaction_of_lookup (Finmap.lookup_insert _), Finmap.lookup_insert]
      rfl
    rw [hresponse]
    exact transactionTexts_iff hplanned rfl (hguids _ (Or.inl rfl))
  | updateTransaction request =>
    obtain ⟨g, plan, hfind, hplanned, rfl⟩ := plan_updateTransaction_ok hplan
    obtain ⟨-, t, ht⟩ := findTransaction_ok hfind
    have hresponse : (updateTransactionEdit fate.newGuid g w.book plan).response
        = transactionToProto g (applyPlan fate.newGuid w.book plan t) :=
      (response_updateTransactionEdit ht).trans toProto_committed
    rw [hresponse]
    rw [ht] at hplanned
    have hiff : TransactionTexts fate request.transaction
        (transactionToProto g (applyPlan fate.newGuid w.book plan t)) ↔
          PlainFor t request.transaction :=
      transactionTexts_iff hplanned rfl (hguids t (Or.inr ⟨g, ht⟩))
    refine hiff.trans ⟨fun h g' t' hg' ht' => ?_, fun h => h g t hfind ht⟩
    obtain rfl := Except.ok.inj (hfind.symm.trans hg')
    obtain rfl := Option.some.inj (ht.symm.trans ht')
    exact h
  -- The other four show no text that the request sets.
  | deleteAccount request => exact Iff.rfl
  | setReconcileInfo request => exact Iff.rfl
  | deleteTransaction request => exact Iff.rfl
  | addPrice request => exact Iff.rfl

end Texts

section Nameless

open Reference

attribute [local instance] Reference.engine Reference.wire

/-- `CreateAccount` of an account whose name begins with a NUL. -/
def createNameless : Mutation :=
  .createAccount ⟨⟨mutationId '1'⟩, ⟨"", some (guidToString 1), "\x00Rent", .expense,
    some ⟨"CURRENCY", "USD"⟩, "", "", false, false⟩⟩

/-- The text of a reply's account name. -/
def accountNameIn (r : EStateM.Result Exn World createNameless.Response) : Option String :=
  match r with
  | .ok response _ => some (response : Shim.Account).name
  | .error _ _ => none

/-- The account is created, without a name. -/
theorem nameless_created :
    (replyOf (createNameless.run (calm 16) started.world)).isOk = true ∧
    accountNameIn (createNameless.run (calm 16) started.world) = some "" ∧
    ((worldAfter (createNameless.run (calm 16) started.world)).book.account 16).map Account.name
      = some "" := by
  decide +kernel

/-- A receipt's texts come back as they were sent. -/
theorem textsAsSent_iff_receipt :
    ∃ response w', (post '1' 100).run (calm 16) started.world = .ok response w' ∧
      (post '1' 100).TextsAsSent (calm 16) response := by
  have hguids : ∀ t, t = .blank ∨ (∃ g, started.world.book.transaction g = some t) →
      UniqueGuids (calm 16).newGuid t := by
    rintro t (rfl | ⟨g, ht⟩)
    · exact ⟨fun i j h => Nat.add_left_cancel h, fun i h => List.not_mem_nil h, List.nodup_nil⟩
    · have hnone : book.transaction g = none := by
        simp [Book.transaction, book, Finmap.lookup_insert_of_ne]
      rw [started_book, hnone] at ht
      cases ht
  have hok : (replyOf ((post '1' 100).run (calm 16) started.world)).isOk = true := by
    decide +kernel
  cases hrun : (post '1' 100).run (calm 16) started.world with
  | error e w' =>
    rw [hrun] at hok
    cases e <;> cases hok
  | ok response w' =>
    refine ⟨response, w', rfl, (textsAsSent_iff hguids (by decide +kernel) hrun).mpr ?_⟩
    refine ⟨by decide, by decide, fun requested hrequested _ => ?_⟩
    rcases List.mem_pair.mp hrequested with rfl | rfl <;> exact ⟨by decide, by decide⟩

end Nameless

end Daichod
