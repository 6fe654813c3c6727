import Daichod.Engine.Book

/-!
# Daichod.Engine.Loading

What a load of the book leaves open. The database has the splits of a transaction as a set
of rows, so the list that the engine makes of them when it loads the book may be in any
order: a `LoadOrder` is one choice of all these lists, and nothing is assumed of it but that
it lists the same splits.

* `Book.relist` is a book as it is loaded in a given order.
* `Book.Relisted` relates two books that differ in the order of their lists only. It is an
  equivalence, and whatever reads the splits of a transaction as a set (the splits of an
  account, its balances) is the same on both.

What prints a transaction reads the list, so its answers depend on the order.

## Proof shape

Relisting is an equivalence at each level: of transactions (same header, splits permuted), of
stored objects, and of books, where accounts and prices have no list and so are equal. A load is
one relisting, by the order it chooses (`relisted_relist`), and every relisting is one that some
load could have chosen (`relisted_iff`). What the rest of the development needs of a book is then
shown to be the same in all its relistings: everything that is read as a set.
-/

namespace Daichod

/-! ### Transactions -/

/-- The fields of a transaction that its splits are not. -/
structure SameHeader (t t' : Transaction) : Prop where
  currency : t'.currency = t.currency
  postDate : t'.postDate = t.postDate
  enterTime : t'.enterTime = t.enterTime
  num : t'.num = t.num
  description : t'.description = t.description
  readOnly : t'.readOnly = t.readOnly
  destroying : t'.destroying = t.destroying

namespace SameHeader

variable {t t' t'' : Transaction}

/-- A transaction is like itself. -/
theorem refl (t : Transaction) : SameHeader t t := ⟨rfl, rfl, rfl, rfl, rfl, rfl, rfl⟩

/-- Headers compare field by field. -/
theorem trans (h : SameHeader t t') (h' : SameHeader t' t'') : SameHeader t t'' :=
  ⟨h'.currency.trans h.currency, h'.postDate.trans h.postDate, h'.enterTime.trans h.enterTime,
    h'.num.trans h.num, h'.description.trans h.description, h'.readOnly.trans h.readOnly,
    h'.destroying.trans h.destroying⟩

/-- Neither of the two is the original. -/
theorem symm (h : SameHeader t t') : SameHeader t' t :=
  ⟨h.currency.symm, h.postDate.symm, h.enterTime.symm, h.num.symm, h.description.symm,
    h.readOnly.symm, h.destroying.symm⟩

/-- With the splits equal as well, so are the transactions. -/
theorem eq (h : SameHeader t t') (hsplits : t'.splits = t.splits) : t' = t := by
  obtain ⟨hc, hp, he, hn, hd, hr, hx⟩ := h
  cases t
  cases t'
  simp only at hc hp he hn hd hr hx hsplits
  rw [hc, hp, he, hn, hd, hr, hx, hsplits]

end SameHeader

/-- The same transaction, its splits listed in any order. -/
structure Transaction.Relisted (t r : Transaction) : Prop where
  header : SameHeader t r
  splits : r.splits.Perm t.splits

namespace Transaction.Relisted

variable {t r r' : Transaction}

/-- The order on record is one of the orders. -/
theorem refl (t : Transaction) : t.Relisted t := ⟨.refl t, .refl _⟩

/-- Each is a relisting of the other. -/
theorem symm (h : t.Relisted r) : r.Relisted t := ⟨h.header.symm, h.splits.symm⟩

/-- A relisting of a relisting is one of the first. -/
theorem trans (h : t.Relisted r) (h' : r.Relisted r') : t.Relisted r' :=
  ⟨h.header.trans h'.header, h'.splits.trans h.splits⟩

/-- The list is all that may differ. -/
theorem eq_setSplits (h : t.Relisted r) : r = { t with splits := r.splits } :=
  SameHeader.eq ⟨h.header.currency, h.header.postDate, h.header.enterTime, h.header.num,
    h.header.description, h.header.readOnly, h.header.destroying⟩ rfl

/-- Destroyed splits drop out of either list alike. -/
theorem liveSplits (h : t.Relisted r) : r.liveSplits.Perm t.liveSplits := h.splits.filter _

end Transaction.Relisted

/-- What two books have under one reference, up to the order of a list of splits. -/
def Entity.Relisted : ∀ ref, Option (Entity ref) → Option (Entity ref) → Prop
  | .account _, a, a' => a' = a
  | .transaction _, t, t' => Option.Rel Transaction.Relisted t t'
  | .price _, p, p' => p' = p

namespace Entity.Relisted

variable {ref : EntityRef} {e e' e'' : Option (Entity ref)}

/-- An object is a relisting of itself, as is its absence. -/
theorem refl (ref : EntityRef) (e : Option (Entity ref)) : Entity.Relisted ref e e := by
  cases ref with
  | account g => rfl
  | price g => rfl
  | transaction g =>
    cases e with
    | none => exact .none
    | some t => exact .some (.refl t)

/-- By the kind of the object; only transactions have a list. -/
theorem symm (h : Entity.Relisted ref e e') : Entity.Relisted ref e' e := by
  cases ref with
  | account g => exact Eq.symm h
  | price g => exact Eq.symm h
  | transaction g =>
    cases h with
    | none => exact .none
    | some h => exact .some h.symm

/-- By the kind of the object, the one in the middle being what its kind makes of it. -/
theorem trans (h : Entity.Relisted ref e e') (h' : Entity.Relisted ref e' e'') :
    Entity.Relisted ref e e'' := by
  cases ref with
  | account g => exact Eq.trans h' h
  | price g => exact Eq.trans h' h
  | transaction g =>
    cases h with
    | none => exact h'
    | some h =>
      cases h' with
      | some h' => exact .some (h.trans h')

/-- A stored transaction has a relisting in the other book. -/
theorem exists_of_some {g : Guid} {o o' : Option Transaction}
    (h : Entity.Relisted (.transaction g) o o') {t : Transaction} (ht : o = some t) :
    ∃ r, o' = some r ∧ t.Relisted r := by
  subst ht
  cases h with
  | some h => exact ⟨_, rfl, h⟩

/-- An object is there in both books or in neither. -/
theorem isSome_eq (h : Entity.Relisted ref e e') : e'.isSome = e.isSome := by
  cases ref with
  | account g => exact congrArg Option.isSome h
  | price g => exact congrArg Option.isSome h
  | transaction g => cases h <;> rfl

/-- What is missing stays missing. -/
theorem eq_none (h : Entity.Relisted ref e e') (he : e = none) : e' = none := by
  have hsome := h.isSome_eq
  rw [he] at hsome
  exact Option.not_isSome_iff_eq_none.mp (by simp [hsome])

end Entity.Relisted

/-! ### The order of a load

The query that loads the splits has no `ORDER BY`, so the order is a parameter of every load: for
each transaction a permutation of what is on record for it. -/

/-- The order in which a load lists the splits of every transaction. -/
structure LoadOrder where
  splits : Guid → Transaction → List Split
  perm : ∀ g t, (splits g t).Perm t.splits

namespace LoadOrder

/-- Every list as the store has it. -/
def kept : LoadOrder := ⟨fun _ t => t.splits, fun _ _ => .refl _⟩

/-- A transaction as it is loaded. -/
def transaction (o : LoadOrder) (g : Guid) (t : Transaction) : Transaction :=
  { t with splits := o.splits g t }

/-- An entity as it is loaded: only transactions have lists. -/
def entity (o : LoadOrder) : ∀ ref, Entity ref → Entity ref
  | .account _, a => a
  | .transaction g, t => o.transaction g t
  | .price _, p => p

/-- A load permutes the splits and keeps the header. -/
theorem transaction_relisted (o : LoadOrder) (g : Guid) (t : Transaction) :
    t.Relisted (o.transaction g t) := ⟨⟨rfl, rfl, rfl, rfl, rfl, rfl, rfl⟩, o.perm g t⟩

/-- Whatever is loaded is a relisting of what was stored. -/
theorem entity_relisted (o : LoadOrder) (ref : EntityRef) (e : Option (Entity ref)) :
    Entity.Relisted ref e (e.map (o.entity ref)) := by
  cases ref with
  | account g => exact Option.map_id'
  | price g => exact Option.map_id'
  | transaction g =>
    cases e with
    | none => exact .none
    | some t => exact .some (o.transaction_relisted g t)

/-- The order in which nothing moves. -/
@[simp] theorem kept_entity : kept.entity = fun _ e => e := by
  funext ref e
  cases ref <;> rfl

end LoadOrder

/-! ### Books -/

namespace Book

/-- A book as it is loaded. -/
def relist (o : LoadOrder) (b : Book) : Book := b.setEntities (b.entities.mapVals o.entity)

variable {b b' b'' : Book} {o : LoadOrder}

/-- Loaded in the order on record, a book is what it was. -/
@[simp] theorem relist_kept (b : Book) : b.relist .kept = b := by
  rw [relist, LoadOrder.kept_entity, Finmap.mapVals_id, setEntities_self]

@[simp] theorem relist_rootAccount : (b.relist o).rootAccount = b.rootAccount := rfl

@[simp] theorem relist_commodities : (b.relist o).commodities = b.commodities := rfl

/-- Looking up in a book as it was loaded. -/
theorem lookup_relist (ref : EntityRef) :
    (b.relist o).entities.lookup ref = (b.entities.lookup ref).map (o.entity ref) :=
  Finmap.lookup_mapVals _ _ _

@[simp] theorem relist_account (g : Guid) : (b.relist o).account g = b.account g :=
  (lookup_relist _).trans Option.map_id'

@[simp] theorem relist_price (g : Guid) : (b.relist o).price g = b.price g :=
  (lookup_relist _).trans Option.map_id'

/-- Only the transactions look different. -/
theorem relist_transaction (g : Guid) :
    (b.relist o).transaction g = (b.transaction g).map (o.transaction g) := lookup_relist _

/-- The two books differ in the order of their lists of splits only. -/
structure Relisted (b b' : Book) : Prop where
  header : (b'.rootAccount, b'.commodities) = (b.rootAccount, b.commodities)
  objects : ∀ ref, Entity.Relisted ref (b.entities.lookup ref) (b'.entities.lookup ref)

/-- **A load relists** the book. -/
theorem relisted_relist (o : LoadOrder) (b : Book) : b.Relisted (b.relist o) := by
  refine ⟨rfl, fun ref => ?_⟩
  rw [lookup_relist]
  exact o.entity_relisted ref _

namespace Relisted

/-- A book is a relisting of itself. -/
theorem refl (b : Book) : b.Relisted b := ⟨rfl, fun ref => .refl ref _⟩

/-- And the other way round. -/
theorem symm (h : b.Relisted b') : b'.Relisted b := ⟨h.header.symm, fun ref => (h.objects ref).symm⟩

/-- One load after another is one load. -/
theorem trans (h : b.Relisted b') (h' : b'.Relisted b'') : b.Relisted b'' :=
  ⟨h'.header.trans h.header, fun ref => (h.objects ref).trans (h'.objects ref)⟩

/-- Accounts have no list to reorder. -/
theorem account (h : b.Relisted b') (g : Guid) : b'.account g = b.account g :=
  h.objects (.account g)

/-- Nor do prices. -/
theorem price (h : b.Relisted b') (g : Guid) : b'.price g = b.price g := h.objects (.price g)

/-- A transaction of one book is in the other, in some order. -/
theorem transaction (h : b.Relisted b') {g : Guid} {t : Transaction}
    (ht : b.transaction g = some t) : ∃ r, b'.transaction g = some r ∧ t.Relisted r :=
  (h.objects (.transaction g)).exists_of_some ht

end Relisted

/-- Transactions that differ in the order of their lists only are one set of transactions, as
some load lists it. -/
theorem exists_loadOrder
    (h : ∀ g, Entity.Relisted (.transaction g) (b.transaction g) (b'.transaction g)) :
    ∃ o : LoadOrder, ∀ g, b'.transaction g = (b.transaction g).map (o.transaction g) := by
  -- What `b` has is listed as `b'` lists it, and what it does not have does not matter.
  refine ⟨⟨fun g t => if b.transaction g = some t then
    ((b'.transaction g).map Transaction.splits).getD t.splits else t.splits, fun g t => ?_⟩,
    fun g => ?_⟩
  · split
    · next ht =>
      obtain ⟨r, hr, hrel⟩ := (h g).exists_of_some ht
      simpa [hr] using hrel.splits
    · exact .refl _
  · cases ht : b.transaction g with
    | none => exact (h g).eq_none ht
    | some t =>
      obtain ⟨r, hr, hrel⟩ := (h g).exists_of_some ht
      rw [hr, hrel.eq_setSplits]
      simp only [LoadOrder.transaction, ht, if_true, hr, Option.map_some, Option.getD_some]

/-- **Every relisting is a load** in some order. -/
theorem relisted_iff : b.Relisted b' ↔ ∃ o, b' = b.relist o := by
  constructor
  · intro h
    obtain ⟨o, ho⟩ := exists_loadOrder fun g => h.objects (.transaction g)
    refine ⟨o, ?_⟩
    obtain ⟨root, commodities, entities⟩ := b'
    obtain ⟨hroot, hcommodities⟩ := Prod.mk.inj h.header
    simp only at hroot hcommodities
    subst hroot hcommodities
    refine congrArg (Book.mk _ _) (Finmap.ext_lookup fun ref => ?_)
    rw [Finmap.lookup_mapVals]
    cases ref with
    | account g => exact (h.account g).trans Option.map_id'.symm
    | transaction g => exact ho g
    | price g => exact (h.price g).trans Option.map_id'.symm
  · rintro ⟨o, rfl⟩
    exact relisted_relist o b

/-! ### What is read as a set

Balances, usages and listings by account go through all splits of a book. They see a multiset,
which no relisting changes. -/

/-- The transactions of a table as it was loaded. -/
theorem transactionsIn_mapVals (o : LoadOrder) (t : Finmap Entity) :
    transactionsIn (t.mapVals o.entity)
      = (transactionsIn t).map fun e => (e.1, o.transaction e.1 e.2) := by
  rw [transactionsIn, transactionsIn, Finmap.mapVals, Multiset.filterMap_map, Multiset.map_filterMap]
  refine congrArg (Multiset.filterMap · t.entries) (funext fun e => ?_)
  obtain ⟨ref, e⟩ := e
  cases ref <;> rfl

/-- Its accounts are the ones on record. -/
theorem accountsIn_mapVals (o : LoadOrder) (t : Finmap Entity) :
    accountsIn (t.mapVals o.entity) = accountsIn t := by
  rw [accountsIn, accountsIn, Finmap.mapVals, Multiset.filterMap_map]
  refine congrArg (Multiset.filterMap · t.entries) (funext fun e => ?_)
  obtain ⟨ref, e⟩ := e
  cases ref <;> rfl

/-- The transactions of a book as it was loaded. -/
theorem transactions_relist : (b.relist o).transactions
    = b.transactions.map fun e => (e.1, o.transaction e.1 e.2) := transactionsIn_mapVals o _

@[simp] theorem accounts_relist : (b.relist o).accounts = b.accounts := accountsIn_mapVals o _

/-- **All splits of a book**, whatever the order of its lists. -/
theorem allSplits_congr
    (h : ∀ g, Entity.Relisted (.transaction g) (b.transaction g) (b'.transaction g)) :
    (b'.transactions.bind fun t => (t.2.splits : Multiset Split))
      = b.transactions.bind fun t => (t.2.splits : Multiset Split) := by
  obtain ⟨o, ho⟩ := exists_loadOrder h
  have htransactions : b'.transactions = (b.relist o).transactions :=
    transactionsIn_congr fun g => (ho g).trans (relist_transaction g).symm
  rw [htransactions, transactions_relist, Multiset.bind_map]
  exact Multiset.bind_congr fun t _ => Multiset.coe_eq_coe.mpr (o.perm t.1 t.2)

/-- The splits of one account, as a multiset. -/
theorem accountSplits_congr
    (h : ∀ g, Entity.Relisted (.transaction g) (b.transaction g) (b'.transaction g)) (g : Guid) :
    b'.accountSplits g = b.accountSplits g := by
  rw [accountSplits, allSplits_congr h]
  rfl

end Book

/-- The objects are the same in two books of one file, up to the order of their splits. -/
structure SameOn (S : EntityRef → Prop) (b b' : Book) : Prop where
  header : (b'.rootAccount, b'.commodities) = (b.rootAccount, b.commodities)
  objects : ∀ ref, S ref →
    Entity.Relisted ref (b.entities.lookup ref) (b'.entities.lookup ref)

/-- Relistings are the same on every set of objects. -/
theorem Book.Relisted.sameOn {b b' : Book} (h : b.Relisted b') (S : EntityRef → Prop) :
    SameOn S b b' := ⟨h.header, fun ref _ => h.objects ref⟩

/-- Sameness adds up over several changes. -/
theorem SameOn.trans {S : EntityRef → Prop} {b b' b'' : Book} (h : SameOn S b b')
    (h' : SameOn S b' b'') : SameOn S b b'' :=
  ⟨h'.header.trans h.header, fun ref href => (h.objects ref href).trans (h'.objects ref href)⟩

end Daichod
