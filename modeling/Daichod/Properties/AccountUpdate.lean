import Daichod.Properties.AccountTree

/-!
# Daichod.Properties.AccountUpdate

**What `UpdateAccount` touches** (`updateAccount_touches_iff`). The contract lists the mutable
fields of an account: name, type, parent, code, description, placeholder, hidden. The handler
sets these, and the commodity as well, which no check compares with the account's. An update
that asks for another commodity is answered OK, and rounds every split of the account to the
new fraction.

An answer is also OK when nothing is performed: a replay, or a commit the engine declines.
What the answer promises then holds of accounts that are as requested already.
-/

namespace Daichod

section Update

variable [Engine]

/-- No text of the account has a NUL in it. -/
structure Shim.Account.PlainTexts (spec : Shim.Account) : Prop where
  name : '\x00' ∉ spec.name.toList
  code : '\x00' ∉ spec.code.toList
  description : '\x00' ∉ spec.description.toList

/-- The account is as requested in the mutable fields. -/
structure Account.DescribedBy (a : Account) (spec : Shim.Account) : Prop where
  name : a.name = spec.name
  type : accountTypeToProto a.type = spec.type
  parent : ∃ p, Engine.stringToGuid (cStr (spec.parentGuid.getD "")) = some p ∧ a.parent = some p
  code : a.code = spec.code
  description : a.description = spec.description
  placeholder : a.placeholder = spec.placeholder
  hidden : a.hidden = spec.hidden

/-- The commodity requested is the account's. -/
def SameCommodity (b : Book) (spec : Shim.Account) (a : Account) : Prop :=
  ∃ c, findCommodityField b spec.commodity "account.commodity" = .ok c ∧ a.commodity = some c.name

/-- From `b` to `b'`, account `g` is updated as requested and nothing else is touched. -/
structure TouchesOnly (b b' : Book) (spec : Shim.Account) (g : Guid) (a a' : Account) : Prop where
  header : (b'.rootAccount, b'.commodities) = (b.rootAccount, b.commodities)
  others : ∀ ref ≠ EntityRef.account g, b'.entities.lookup ref = b.entities.lookup ref
  requested : SameCommodity b spec a
  commodity : a'.commodity = a.commodity
  reconcileLastDate : a'.reconcileLastDate = a.reconcileLastDate
  destroying : a'.destroying = a.destroying
  described : a'.DescribedBy spec

section Set

variable {b : Book} {spec : Shim.Account} {type : GNCAccountType} {commodity : Commodity}
  {parent g : Guid} {a : Account} {s : EditStore Entity}

omit [Engine] in
/-- An account type reads back as it was requested. -/
theorem accountTypeToProto_of_fromProto {t : Shim.AccountType} {context : String}
    (h : accountTypeFromProto t context = .ok type) : accountTypeToProto type = t := by
  cases t <;> simp only [accountTypeFromProto, reduceCtorEq, Except.ok.injEq] at h <;>
    subst h <;> rfl

/-- The setters leave the account as requested, but for what lies behind a NUL. -/
theorem accountSet_describedBy_iff
    (htype : accountTypeFromProto spec.type "account.type" = .ok type)
    (hparent : Engine.stringToGuid (cStr (spec.parentGuid.getD "")) = some parent) :
    (accountSet spec type commodity parent a).DescribedBy spec ↔ spec.PlainTexts := by
  constructor
  · intro h
    exact ⟨cStr_eq_self_iff.mp h.name, cStr_eq_self_iff.mp h.code,
      cStr_eq_self_iff.mp h.description⟩
  · intro h
    exact {
      name := cStr_eq_self h.name
      type := accountTypeToProto_of_fromProto htype
      parent := ⟨parent, hparent, rfl⟩
      code := cStr_eq_self h.code
      description := cStr_eq_self h.description
      placeholder := rfl
      hidden := rfl }

end Set

variable [Wire]

/-- What an update answered OK is to be for the account it names: sent with the account's
commodity, and without a NUL in its texts if it performs anything. -/
structure Honoured (request : Shim.UpdateAccountRequest) (fate : Fate) (w : World) (g : Guid)
    (a : Account) : Prop where
  commodity : SameCommodity w.book request.account a
  performed : Performs (.updateAccount request) fate w (.account g) → request.account.PlainTexts
  unperformed : ¬Performs (.updateAccount request) fate w (.account g) → a.DescribedBy request.account

variable {request : Shim.UpdateAccountRequest} {fate : Fate} {response : Shim.Account} {b₀ : Book}

/-- The call, in any memory that a tended run can leave. -/
theorem Tree.touches_iff {w w' : World} (htree : Tree b₀ w.store)
    (hrun : (Mutation.updateAccount request).run fate w = .ok response w') {g : Guid}
    {a : Account} (hg : findAccount w.book request.account.guid "account.guid" = .ok g)
    (ha : w.book.account g = some a) :
    (∃ a', w'.book.account g = some a' ∧ TouchesOnly w.book w'.book request.account g a a') ↔
      Honoured request fate w g a := by
  have hran := (Mutation.updateAccount request).ran fate w
  rw [hrun] at hran
  rcases hran.of_ok with ⟨rfl, row, -, hrow, -⟩ | ⟨hnew, edit, j, hreach, hfinal, -, rfl⟩
  · -- A replay leaves the book alone.
    have hnot : ¬Performs (.updateAccount request) fate w (.account g) := by
      intro hperforms
      rw [hperforms.1] at hrow
      cases hrow
    constructor
    · rintro ⟨a', ha', h⟩
      have heq : a' = a := Option.some.inj (ha'.symm.trans ha)
      exact ⟨h.requested, fun hperforms => absurd hperforms hnot, fun _ => heq ▸ h.described⟩
    · intro h
      exact ⟨a, ha, rfl, fun _ _ => rfl, h.commodity, rfl, rfl, rfl, h.unperformed hnot⟩
  · obtain ⟨g', type, c, p, hg', hroot, htype, hc, hp, -, rfl⟩ :=
      plan_updateAccount_ok (Mutation.validated_ok hreach.valid).2.2
    obtain rfl := Except.ok.inj (hg.symm.trans hg')
    obtain ⟨hparent, -⟩ := findAccount_ok hp
    have ha : w.store.working.lookup (.account g) = some a := ha
    -- What the engine's last step leaves, entity by entity.
    have hsettled : (if Editing (.account g) w.store then
          setAccount g request.account type c p w.store.working
        else settle (.account g) (setAccount g request.account type c p w.store.working))
        = setAccount g request.account type c p w.store.working := by
      split
      · rfl
      · next hnot =>
        refine settle_eq_self fun e he => ?_
        rw [lookup_setAccount_self _ _ _ _ ha] at he
        obtain rfl := Option.some.inj he
        exact (htree.live ha hnot :)
    set finished := Edit.finished (m := .updateAccount request)
      (updateAccountEdit g w.book request.account type c p) fate w with hfinished
    have hlookup : ∀ k, finished.book.entities.lookup k
        = if fate.finalStep = .commits ∨ k ∈ w.store.held then
            (setAccount g request.account type c p w.store.working).lookup k
          else w.store.working.lookup k := by
      intro k
      rw [← hsettled]
      exact Edit.finished_lookup htree.clean hfinal k
    have hheader : (finished.book.rootAccount, finished.book.commodities)
        = (w.book.rootAccount, w.book.commodities) := Edit.finished_header
    have hself := hlookup (.account g)
    rw [lookup_setAccount_self _ _ _ _ ha] at hself
    -- Setting the commodity the account has is not seen outside the account.
    have hothers : SameCommodity w.book request.account a → ∀ k ≠ EntityRef.account g,
        finished.book.entities.lookup k = w.book.entities.lookup k := by
      intro hsame k hk
      obtain ⟨c', hc', hcommodity⟩ := hsame
      obtain rfl := Except.ok.inj (hc.symm.trans hc')
      rw [hlookup, setAccount_of_commodity ha hcommodity, Finmap.lookup_insert_of_ne _ hk, ite_self]
      rfl
    by_cases hperforms : Performs (.updateAccount request) fate w (.account g)
    · have hself : finished.book.account g = some (accountSet request.account type c p a) :=
        hself.trans (if_pos hperforms.2)
      constructor
      · rintro ⟨a', ha', h⟩
        obtain rfl := Option.some.inj (hself.symm.trans ha')
        exact ⟨h.requested, fun _ => (accountSet_describedBy_iff htype hparent).mp h.described,
          fun hnot => absurd hperforms hnot⟩
      · intro h
        have hdescribed : (accountSet request.account type c p a).DescribedBy request.account :=
          (accountSet_describedBy_iff htype hparent).mpr (h.performed hperforms)
        obtain ⟨c', hc', hcommodity⟩ := h.commodity
        obtain rfl := Except.ok.inj (hc.symm.trans hc')
        exact ⟨_, hself, hheader, hothers h.commodity, h.commodity, hcommodity.symm, rfl, rfl,
          hdescribed⟩
    · have hself : finished.book.account g = some a :=
        hself.trans ((if_neg fun h => hperforms ⟨hnew, h⟩).trans ha)
      constructor
      · rintro ⟨a', ha', h⟩
        obtain rfl := Option.some.inj (hself.symm.trans ha')
        exact ⟨h.requested, fun h => absurd h hperforms, fun _ => h.described⟩
      · intro h
        exact ⟨a, hself, hheader, hothers h.commodity, h.commodity, rfl, rfl, rfl,
          h.unperformed hperforms⟩

/-- **An update answered OK touches the account's mutable fields only, and leaves them as
requested, exactly when** it asks for the account's commodity, has no NUL in its texts if it
is performed, and finds the account as requested if it is not. -/
theorem updateAccount_touches_iff {config : Config} {events : List Event} {w' : World}
    (hrooted : b₀.Rooted) (hlive : ∀ g a, b₀.account g = some a → a.destroying = false)
    (htended : Machine.Along Daemon.step Daemon.Tended (Daemon.fresh config b₀) events)
    (hrun : (Mutation.updateAccount request).run fate
      ((Daemon.fresh config b₀).run events).world = .ok response w') :
    let w := ((Daemon.fresh config b₀).run events).world
    (∃ g a a', findAccount w.book request.account.guid "account.guid" = .ok g ∧
      w.book.account g = some a ∧ w'.book.account g = some a' ∧
      TouchesOnly w.book w'.book request.account g a a') ↔
    ∃ g a, findAccount w.book request.account.guid "account.guid" = .ok g ∧
      w.book.account g = some a ∧ Honoured request fate w g a := by
  obtain ⟨htree, -⟩ := Tree.run hrooted hlive htended
  have hiff := fun {g a} hg ha => htree.touches_iff (g := g) (a := a) hrun hg ha
  constructor
  · rintro ⟨g, a, a', hg, ha, ha', h⟩
    exact ⟨g, a, hg, ha, (hiff hg ha).mp ⟨a', ha', h⟩⟩
  · rintro ⟨g, a, hg, ha, h⟩
    obtain ⟨a', ha', htouches⟩ := (hiff hg ha).mpr h
    exact ⟨g, a, a', hg, ha, ha', htouches⟩

end Update

section Recurrency

open Reference

attribute [local instance] Reference.engine Reference.wire

/-- A currency without subunits. -/
def jpy : Commodity := ⟨⟨"CURRENCY", "JPY"⟩, 1, by decide⟩

/-- The small book with a second currency, which has no smaller unit. -/
def twoCurrencies : Book := { book with commodities := [usd, jpy] }

/-- One dollar fifty is posted. -/
def coffeePosted : Daemon :=
  (Daemon.fresh config twoCurrencies).run
    [.start (starts []), .mutate (post '1' 150) (calm 16)]

/-- `UpdateAccount` of the cash account, in yen. -/
def cashInYen : Shim.UpdateAccountRequest :=
  ⟨⟨mutationId '2'⟩, ⟨guidToString 2, some (guidToString 1), "Cash", .cash,
    some ⟨"CURRENCY", "JPY"⟩, "", "", false, false⟩⟩

/-- The amounts of an account's splits in a transaction. -/
def amountsIn (b : Book) (account transaction : Guid) : Option (List GncNumeric) :=
  (b.transaction transaction).map fun t =>
    (t.splits.filter (·.account = account)).map Split.amount

/-- The update is answered OK. The account is in another commodity, and the split posted in
it has another amount. -/
theorem cashInYen_rerounds :
    let w := coffeePosted.world
    let run := (Mutation.updateAccount cashInYen).run (calm 32) w
    (replyOf run).isOk = true ∧
    (w.book.account 2).bind Account.commodity = some usd.name ∧
    ((worldAfter run).book.account 2).bind Account.commodity = some jpy.name ∧
    amountsIn w.book 2 16 = some [⟨-150, 100⟩] ∧
    amountsIn (worldAfter run).book 2 16 = some [⟨-2, 1⟩] := by
  decide +kernel

/-- `UpdateAccount` of the cash account that renames it. -/
def pettyCash : Shim.UpdateAccountRequest :=
  ⟨⟨mutationId '2'⟩, ⟨guidToString 2, some (guidToString 1), "Petty cash", .cash,
    some ⟨"CURRENCY", "USD"⟩, "", "", false, false⟩⟩

/-- Another commodity leaves the tree as it is. -/
theorem twoCurrencies_rooted : twoCurrencies.Rooted := ⟨book_rooted.tree, book_rooted.splits⟩

/-- The run up to the update is a tended one. -/
theorem coffeePosted_tended :
    Machine.Along Daemon.step Daemon.Tended (Daemon.fresh config twoCurrencies)
      [.start (starts []), .mutate (post '1' 150) (calm 16)] := by
  have hbook : ((Daemon.fresh config twoCurrencies).step (.start (starts []))).world.book
      = twoCurrencies := by decide +kernel
  have hfresh : (calm 16).Fresh
      ((Daemon.fresh config twoCurrencies).step (.start (starts []))).world.book := by
    rw [hbook]
    exact calm_fresh (by decide) none
  exact ⟨trivial, ⟨hfresh, fun hcrash => absurd rfl hcrash⟩, trivial⟩

/-- Updating petty cash without a change of currency. -/
theorem updateAccount_touches_iff_pettyCash :
    ∃ w', (worldAfter ((Mutation.updateAccount pettyCash).run (calm 32) coffeePosted.world)) = w' ∧
      ∃ g a a', findAccount coffeePosted.world.book pettyCash.account.guid "account.guid" = .ok g ∧
        coffeePosted.world.book.account g = some a ∧ w'.book.account g = some a' ∧
        TouchesOnly coffeePosted.world.book w'.book pettyCash.account g a a' := by
  have hlive : ∀ g a, twoCurrencies.account g = some a → a.destroying = false :=
    fun g a ha => book_atRest (.account g) a ha
  have hok : (replyOf ((Mutation.updateAccount pettyCash).run (calm 32)
      coffeePosted.world)).isOk = true := by decide +kernel
  cases hrun : (Mutation.updateAccount pettyCash).run (calm 32) coffeePosted.world with
  | error e w' =>
    rw [hrun] at hok
    cases e <;> cases hok
  | ok response w' =>
    refine ⟨w', rfl, (updateAccount_touches_iff twoCurrencies_rooted hlive coffeePosted_tended
      hrun).mpr ⟨2, account "Cash" .cash (some 1), by decide +kernel, by decide +kernel, ?_⟩⟩
    exact {
      commodity := ⟨usd, by decide +kernel, rfl⟩
      performed := fun _ => ⟨by decide, by decide, by decide⟩
      unperformed := fun hnot => absurd ⟨by decide +kernel, Or.inl rfl⟩ hnot }

end Recurrency

end Daichod
