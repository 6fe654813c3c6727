import Daichod.Engine.Numeric
import Daichod.Library.EditStore

/-!
# Daichod.Engine.Book

The engine's object model, as far as the shim touches it: accounts, transactions with
their splits, prices, the commodity table, and the book that holds them.

One table maps every entity reference to its entity (`Entity` is a family, so a lookup
of an account reference is an account). That makes a book one `Finmap`, equality of books
extensional, and the engine's working and durable copies one `EditStore`. An account's
split list is not stored: it is the splits of all transactions that name the account.

`Engine` collects what the model takes from libgnucash as parameters. Everything the
claims assume of the engine beyond it (rounding setters, nested edits, commits) is
defined, here and in `Daichod.Engine.Session`.
-/

namespace Daichod

/-! ### Identities and dates -/

/-- A `GncGUID`. The engine's identifiers are 128 random bits; the model only relies on
fresh ones being new, so it numbers them. -/
abbrev Guid := ℕ

/-- A `GDate`, in the widths GLib keeps it. -/
structure GDate where
  day : UInt8
  month : UInt32
  year : UInt16
  deriving Repr, DecidableEq

/-- Is `year` a leap year of the proleptic Gregorian calendar? -/
def isLeapYear (year : ℕ) : Bool := year % 4 == 0 && (year % 100 != 0 || year % 400 == 0)

/-- Days in a month; `0` for what is not a month. -/
def daysInMonth (year : ℕ) : ℕ → ℕ
  | 1 | 3 | 5 | 7 | 8 | 10 | 12 => 31
  | 4 | 6 | 9 | 11 => 30
  | 2 => if isLeapYear year then 29 else 28
  | _ => 0

/-- `g_date_valid_dmy`. -/
def gDateValidDmy (day : UInt8) (month : UInt32) (year : UInt16) : Bool :=
  0 < year.toNat && 0 < day.toNat && day.toNat ≤ daysInMonth year.toNat month.toNat

/-- `g_date_valid`. -/
def GDate.valid (d : GDate) : Bool := gDateValidDmy d.day d.month d.year

/-- The C string a setter receives from `s.c_str()`: everything before the first NUL. -/
def cStr (s : String) : String := String.ofList (s.toList.takeWhile (· != '\x00'))

/-! ### Entities -/

/-- `GNCAccountType`, obsolete members included. -/
inductive GNCAccountType
  | bank
  | cash
  | credit
  | asset
  | liability
  | stock
  | mutual
  | currency
  | income
  | expense
  | equity
  | receivable
  | payable
  | root
  | trading
  | checking
  | savings
  | moneymrkt
  | creditline
  deriving Repr, DecidableEq

/-- The name of a commodity: namespace and mnemonic. -/
structure CommodityName where
  space : String
  mnemonic : String
  deriving Repr, DecidableEq

/-- `gnc_commodity`. Its fraction is the number of smallest units in one. -/
structure Commodity where
  name : CommodityName
  fraction : Int64
  fraction_pos : 0 < fraction.toInt
  deriving DecidableEq

/-- `gnc_commodity_is_currency`: membership of one of the engine's currency namespaces. -/
def gncCommodityIsCurrency (c : Commodity) : Bool :=
  c.name.space == "CURRENCY" || c.name.space == "GNC_LEGACY_CURRENCIES"

/-- The engine's `Account`. The reconcile date is kept as the calendar date its stamp
falls on, which is all the shim reads back. -/
structure Account where
  name : String
  type : GNCAccountType
  commodity : Option CommodityName
  code : String
  description : String
  placeholder : Bool
  hidden : Bool
  parent : Option Guid
  reconcileLastDate : Option GDate
  destroying : Bool
  deriving Repr, DecidableEq

/-- The engine's `Split`. -/
structure Split where
  guid : Guid
  account : Guid
  value : GncNumeric
  amount : GncNumeric
  memo : String
  action : String
  reconcile : Char
  destroying : Bool
  deriving Repr, DecidableEq

/-- The engine's `Transaction`, with its split list in the engine's order. -/
structure Transaction where
  currency : Option CommodityName
  postDate : Option GDate
  enterTime : Int64
  num : String
  description : String
  splits : List Split
  readOnly : Bool
  destroying : Bool
  deriving Repr, DecidableEq

/-- The splits of a transaction that are not queued for destruction. -/
def Transaction.liveSplits (transaction : Transaction) : List Split :=
  transaction.splits.filter (!·.destroying)

/-- `GNCPrice`. A price exists from its creation on, and is listed once the price
database has taken it (`inDb`). -/
structure Price where
  commodity : CommodityName
  currency : CommodityName
  time : Int64
  value : GncNumeric
  source : String
  inDb : Bool
  deriving Repr, DecidableEq

/-- A reference to an entity the engine edits and commits as one. -/
inductive EntityRef
  | account (guid : Guid)
  | transaction (guid : Guid)
  | price (guid : Guid)
  deriving Repr, DecidableEq

/-- What a reference refers to. -/
abbrev Entity : EntityRef → Type
  | .account _ => Account
  | .transaction _ => Transaction
  | .price _ => Price

instance : ∀ ref : EntityRef, DecidableEq (Entity ref)
  | .account _ => inferInstanceAs (DecidableEq Account)
  | .transaction _ => inferInstanceAs (DecidableEq Transaction)
  | .price _ => inferInstanceAs (DecidableEq Price)

/-- The parts of libgnucash the model is parametric in. -/
class Engine where
  /-- `guid_to_string_buff`. -/
  guidToString : Guid → String
  /-- `string_to_guid`; `none` where it returns false. -/
  stringToGuid : String → Option Guid
  /-- A printed GUID reads back. -/
  stringToGuid_guidToString : ∀ g, stringToGuid (guidToString g) = some g
  /-- A GUID prints without a NUL. -/
  cStr_guidToString : ∀ g, cStr (guidToString g) = guidToString g
  /-- The namespace a commodity lookup resolves a given namespace to. -/
  mapNamespace : String → String
  /-- `xaccAccountGetReconciledBalance`, from the account's splits. -/
  reconciledBalance : Multiset Split → GncNumeric
  /-- The value a split of the transaction is left with when its currency becomes another. -/
  rerate : Transaction → CommodityName → Split → GncNumeric
  /-- `gnc_dmy2time64_neutral`. -/
  dmy2time64Neutral : GDate → Int64
  /-- `time64_to_gdate`. -/
  time64ToGdate : Int64 → GDate
  /-- The source string a price keeps of the one it is given. -/
  priceSource : String → String
  /-- The rank of a price source; the lower rank takes precedence on one day. -/
  sourceRank : String → ℕ

/-- Two GUIDs with one text are one, as each is what the text parses to. -/
theorem Engine.guidToString_injective [Engine] : Function.Injective Engine.guidToString := by
  intro g h hgh
  have := congrArg Engine.stringToGuid hgh
  simpa only [Engine.stringToGuid_guidToString, Option.some.injEq] using this

/-! ### Books

A book's transactions, accounts and prices are read off the one table, as multisets: the order in
which the engine would list them is not part of a book. The lemmas beside each say what is in it,
so that nothing later looks at how it is made. -/

/-- Every transaction in a table of entities. -/
def transactionsIn (table : Finmap Entity) : Multiset (Guid × Transaction) :=
  table.entries.filterMap fun
    | ⟨.transaction g, t⟩ => some (g, t)
    | _ => none

/-- Every account in a table of entities. -/
def accountsIn (table : Finmap Entity) : Multiset (Guid × Account) :=
  table.entries.filterMap fun
    | ⟨.account g, a⟩ => some (g, a)
    | _ => none

/-- Every price in a table of entities. -/
def pricesIn (table : Finmap Entity) : Multiset (Guid × Price) :=
  table.entries.filterMap fun
    | ⟨.price g, p⟩ => some (g, p)
    | _ => none

/-- A table's transactions are the entities at its transaction references. -/
theorem mem_transactionsIn {table : Finmap Entity} {g : Guid} {t : Transaction} :
    (g, t) ∈ transactionsIn table ↔ table.lookup (.transaction g) = some t := by
  rw [← Finmap.mem_entries_iff, transactionsIn, Multiset.mem_filterMap]
  constructor
  · rintro ⟨⟨k, v⟩, hmem, hk⟩
    cases k with
    | transaction g' =>
      simp only [Option.some.injEq, Prod.mk.injEq] at hk
      obtain ⟨rfl, rfl⟩ := hk
      exact hmem
    | account _ => simp at hk
    | price _ => simp at hk
  · exact fun h => ⟨_, h, rfl⟩

/-- No transaction is listed twice, as a table holds a reference once. -/
theorem transactionsIn_nodup (table : Finmap Entity) : (transactionsIn table).Nodup := by
  refine Multiset.Nodup.filterMap _ ?_ table.nodup_entries
  rintro ⟨k, e⟩ ⟨k', e'⟩ b hb hb'
  cases k with
  | transaction g =>
    cases k' with
    | transaction g' =>
      simp only [Option.mem_def, Option.some.injEq] at hb hb'
      obtain ⟨rfl, rfl⟩ := Prod.mk.inj (hb.trans hb'.symm)
      rfl
    | account _ => cases hb'
    | price _ => cases hb'
  | account _ => cases hb
  | price _ => cases hb

/-- The transactions of a table are those it looks up. -/
theorem transactionsIn_congr {s t : Finmap Entity}
    (h : ∀ g, (s.lookup (.transaction g) : Option Transaction) = t.lookup (.transaction g)) :
    transactionsIn s = transactionsIn t := by
  refine ((transactionsIn_nodup s).ext (transactionsIn_nodup t)).mpr fun ⟨g, tx⟩ => ?_
  rw [mem_transactionsIn, mem_transactionsIn, h]

/-- A table's accounts are the entities at its account references. -/
theorem mem_accountsIn {table : Finmap Entity} {g : Guid} {a : Account} :
    (g, a) ∈ accountsIn table ↔ table.lookup (.account g) = some a := by
  rw [← Finmap.mem_entries_iff, accountsIn, Multiset.mem_filterMap]
  constructor
  · rintro ⟨⟨k, v⟩, hmem, hk⟩
    cases k with
    | account g' =>
      simp only [Option.some.injEq, Prod.mk.injEq] at hk
      obtain ⟨rfl, rfl⟩ := hk
      exact hmem
    | transaction _ => simp at hk
    | price _ => simp at hk
  · exact fun h => ⟨_, h, rfl⟩

/-- `QofBook`. -/
structure Book where
  rootAccount : Guid
  commodities : List Commodity
  entities : Finmap Entity
  deriving DecidableEq

namespace Book

/-- The book with another table of entities. -/
def setEntities (b : Book) (t : Finmap Entity) : Book := { b with entities := t }

@[simp] theorem setEntities_self (b : Book) : b.setEntities b.entities = b := rfl

/-- `xaccAccountLookup`. -/
def account (b : Book) (g : Guid) : Option Account := b.entities.lookup (.account g)

/-- `xaccTransLookup`. -/
def transaction (b : Book) (g : Guid) : Option Transaction := b.entities.lookup (.transaction g)

/-- `gnc_price_lookup`. -/
def price (b : Book) (g : Guid) : Option Price := b.entities.lookup (.price g)

/-- Every transaction of the book. -/
def transactions (b : Book) : Multiset (Guid × Transaction) := transactionsIn b.entities

/-- Every account of the book. -/
def accounts (b : Book) : Multiset (Guid × Account) := accountsIn b.entities

/-- `xaccAccountGetSplitList`: the splits that name the account. -/
def accountSplits (b : Book) (g : Guid) : Multiset Split :=
  (b.transactions.bind fun t => (t.2.splits : Multiset Split)).filter (·.account = g)

/-- `gnc_account_n_children(account) > 0`. -/
def hasChildren (b : Book) (g : Guid) : Prop := ∃ a ∈ b.accounts, a.2.parent = some g

instance (b : Book) (g : Guid) : Decidable (b.hasChildren g) :=
  Multiset.decidableExistsMultiset

/-- What a book lists as a transaction is what it has under the GUID. -/
theorem mem_transactions {b : Book} {g : Guid} {t : Transaction} :
    (g, t) ∈ b.transactions ↔ b.transaction g = some t := mem_transactionsIn

/-- The same of its accounts. -/
theorem mem_accounts {b : Book} {g : Guid} {a : Account} :
    (g, a) ∈ b.accounts ↔ b.account g = some a := mem_accountsIn

/-- An account has children if some account names it as its parent. -/
theorem hasChildren_iff {b : Book} {g : Guid} :
    b.hasChildren g ↔ ∃ g' a, b.account g' = some a ∧ a.parent = some g := by
  simp only [hasChildren, Prod.exists, mem_accounts]

/-- An account's splits are the splits of any transaction that name it. -/
theorem mem_accountSplits {b : Book} {g : Guid} {s : Split} :
    s ∈ b.accountSplits g ↔
      (∃ t tx, b.transaction t = some tx ∧ s ∈ tx.splits) ∧ s.account = g := by
  rw [accountSplits, Multiset.mem_filter, Multiset.mem_bind]
  simp only [Prod.exists, mem_transactions, Multiset.mem_coe]

/-- `gnc_commodity_table_lookup`. -/
def lookupCommodity [Engine] (b : Book) (space mnemonic : String) : Option Commodity :=
  b.commodities.find? fun c =>
    c.name = { space := Engine.mapNamespace (cStr space), mnemonic := cStr mnemonic }

/-- `gnc_commodity_get_fraction` of a commodity the book names. -/
def fraction (b : Book) (name : CommodityName) : Option Int64 :=
  (b.commodities.find? (·.name = name)).map Commodity.fraction

/-- A fraction that the commodity table knows is positive. -/
theorem fraction_pos {b : Book} {name : CommodityName} {f : Int64}
    (h : b.fraction name = some f) : 0 < f.toInt := by
  obtain ⟨c, -, rfl⟩ := Option.map_eq_some_iff.mp h
  exact c.fraction_pos

/-- A commodity found by name is the one whose fraction the setters round to. -/
theorem fraction_of_lookupCommodity [Engine] {b : Book} {space mnemonic : String} {c : Commodity}
    (h : b.lookupCommodity space mnemonic = some c) : b.fraction c.name = some c.fraction := by
  have hc : c.name = ⟨Engine.mapNamespace (cStr space), cStr mnemonic⟩ := by
    simpa using List.find?_some h
  rw [fraction, hc]
  unfold lookupCommodity at h
  rw [h]
  rfl

end Book

end Daichod
