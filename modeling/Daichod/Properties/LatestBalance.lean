import Daichod.Entities
import Daichod.Reference.Days
import Daichod.Rpc.BalanceService

/-!
# Daichod.Properties.LatestBalance

**Whether the latest balance misses nothing** (`latestBalance_iff`). For an unset `as_of`
`GetBalance` asks the engine for the balance at the end of 9999-12-31, "future-dated
included", and `DateFromProto` accepts post dates up to the year 65535: a split posted behind
9999 is in the book and not in its latest balance.
-/

namespace Daichod

/-! ### Every transaction has a post date -/

/-- A transaction has a post date, and it is a date. -/
def Transaction.Dated (transaction : Transaction) : Prop :=
  ∃ d, transaction.postDate = some d ∧ d.valid = true

/-- `Transaction.Dated`, of any entity. -/
def Entity.Dated : (ref : EntityRef) → Entity ref → Prop
  | .transaction _, transaction => Transaction.Dated transaction
  | _, _ => True

/-- **Post dates are dates, for ever.** -/
theorem Entity.dated_steady [Engine] : Entity.Steady Entity.Dated where
  account _ _ := trivial
  planned now book spec existing plan hplan newGuid g t _ :=
    ⟨plan.postDate, (applyPlan_header plan t).postDate, planTransaction_date_valid hplan⟩
  destroyed g t h := by
    unfold Transaction.destroy
    split
    · exact h
    · exact h
  settled _ _ h := h
  rerounded _ _ _ _ h := h
  priced _ _ _ _ _ _ _ := trivial
  listed _ _ _ := trivial
  relisted g t r hlisted h := by
    obtain ⟨d, hd, hvalid⟩ := h
    exact ⟨d, hlisted.header.postDate.trans hd, hvalid⟩

/-! ### What the latest balance counts -/

theorem latest_valid : latest.valid = true := by decide

/-- It is the last day of the first 9999 years. -/
theorem ymd_le_latest {d : GDate} (h : d.valid = true) (hyear : d.year.toNat ≤ 9999) :
    d.ymd ≤ latest.ymd := by
  obtain ⟨-, -, hmonth, -, hday⟩ := GDate.valid_fields h
  have hlast := daysInMonth_le d.year.toNat d.month.toNat
  have h9999 : latest.year.toNat = 9999 := rfl
  have h12 : latest.month.toNat = 12 := rfl
  have h31 : latest.day.toNat = 31 := rfl
  simp only [GDate.ymd, Prod.Lex.toLex_le_toLex, h9999, h12, h31]
  omega

section Latest

variable [Engine] [DayTimes] {b : Book} {account : Guid}

/-- No split of the account is posted behind the year 9999. -/
def Book.PostedBy9999 (b : Book) (account : Guid) : Prop :=
  ∀ g t, b.transaction g = some t → (∃ s ∈ t.splits, s.account = account) →
    ∀ d ∈ t.postDate, d.year.toNat ≤ 9999

/-- A transaction is posted by the last day exactly when its year is one of the first 9999. -/
theorem posted_le_iff (laws : DayTimes.KeepsOrder) {t : Transaction} (h : t.Dated) :
    t.posted ≤ DayTimes.dmy2time64End latest ↔ ∀ d ∈ t.postDate, d.year.toNat ≤ 9999 := by
  obtain ⟨d, hd, hvalid⟩ := h
  have hposted : t.posted = Engine.dmy2time64Neutral d := by
    rw [Transaction.posted, hd]
    rfl
  rw [hposted, hd]
  constructor
  · intro hle d' hd'
    obtain rfl := Option.some.inj hd'
    by_contra hlate
    exact Int64.not_le.mpr (laws.last_lt_neutral _ hvalid (not_le.mp hlate)) hle
  · intro hyear
    exact laws.neutral_le_last _ _ hvalid latest_valid (ymd_le_latest hvalid (hyear d rfl))

omit [DayTimes] in
/-- Counting until a time counts all exactly when everything is posted by then. -/
theorem splitsUntil_eq_iff {time : Int64} :
    b.splitsUntil time account = b.accountSplits account ↔
      ∀ g t, b.transaction g = some t → (∃ s ∈ t.splits, s.account = account) →
        t.posted ≤ time := by
  -- The splits of the account are those posted by then and those posted later.
  have hsplit : b.accountSplits account = b.splitsUntil time account +
      ((b.transactions.filter fun t => ¬t.2.posted ≤ time).bind fun t =>
        (t.2.splits : Multiset Split)).filter (·.account = account) := by
    rw [Book.splitsUntil, Book.accountSplits, ← Multiset.filter_add, ← Multiset.add_bind,
      Multiset.filter_add_not]
  rw [hsplit, left_eq_add, Multiset.filter_eq_nil]
  simp only [Multiset.mem_bind, Multiset.mem_filter, Prod.exists, Book.mem_transactions,
    Multiset.mem_coe]
  constructor
  · rintro h g t ht ⟨s, hs, haccount⟩
    by_contra hlate
    exact h s ⟨g, t, ⟨ht, hlate⟩, hs⟩ haccount
  · rintro h s ⟨g, t, ⟨ht, hlate⟩, hs⟩ haccount
    exact hlate (h g t ht ⟨s, hs, haccount⟩)

/-- **What the latest balance counts**, on a book whose post dates are dates. -/
theorem splitsUntil_latest_iff (laws : DayTimes.KeepsOrder)
    (hdated : b.entities.All Entity.Dated) :
    b.splitsUntil (DayTimes.dmy2time64End latest) account = b.accountSplits account ↔
      b.PostedBy9999 account := by
  rw [splitsUntil_eq_iff]
  refine forall₂_congr fun g t => forall₂_congr fun ht _ => ?_
  exact posted_le_iff laws (hdated (.transaction g) t ht)

/-- **When the latest balance misses nothing.** In every run over books whose post dates are
dates, `GetBalance` with `as_of` unset answers the engine's balance of the splits posted by the
end of 9999-12-31; these are all splits of an account, the one asked for or one below it,
exactly when none of them is posted behind the year 9999. -/
theorem latestBalance_iff [Wire] [Balances] (laws : DayTimes.KeepsOrder) {config : Config}
    {b₀ : Book} {events : List Event} (hinit : b₀.entities.All Entity.Dated)
    (hrestored : ∀ book, Event.restore book ∈ events → book.entities.All Entity.Dated)
    {request : Shim.GetBalanceRequest} {response : Shim.Balance} {w w' : World}
    (hrun : ((Daemon.fresh config b₀).run events).world = w) (hlatest : request.asOf = none)
    (hreply : getBalance request w = .ok response w') :
    (∃ account target,
      findAccount w.book request.accountGuid "account_guid" = .ok account ∧
      balanceTarget w.book account request = .ok target ∧
      response.amount = numericToProto (Balances.balance w.book account target
        request.includeChildren (w.book.splitsUntil (DayTimes.dmy2time64End latest)))) ∧
    ∀ account, w.book.splitsUntil (DayTimes.dmy2time64End latest) account
        = w.book.accountSplits account ↔ w.book.PostedBy9999 account := by
  have hdated : w.book.entities.All Entity.Dated := by
    rw [← hrun]
    exact (Entity.dated_steady.run hinit hrestored).working
  obtain ⟨-, account, haccount, asOf, hasOf, target, htarget, rfl, -⟩ := getBalance_iff.mp hreply
  rw [hlatest] at hasOf
  obtain rfl := Except.ok.inj hasOf
  exact ⟨⟨account, target, haccount, htarget, rfl⟩,
    fun account => splitsUntil_latest_iff laws hdated⟩

end Latest

/-! ### A transaction of the year 10000 -/

section Witness

open Reference

attribute [local instance] Reference.engine Reference.wire Reference.dayTimes Reference.balances

/-- Five cents of food, posted on the first day of the year 10000. -/
def postFar : Mutation :=
  .postTransaction ⟨⟨mutationId '1'⟩,
    { transaction "" [split 2 (-5), split 3 5] with postDate := some ⟨10000, 1, 1⟩ }⟩

/-- The daemon behind a post. -/
def farRun (m : Mutation) : Daemon := started.run [.mutate m (calm 16)]

/-- The latest balance of the food account. -/
def latestFood : Shim.GetBalanceRequest := ⟨guidToString 3, none, false, none⟩

theorem book_dated : book.entities.All Entity.Dated := by
  intro ref e he
  cases ref with
  | transaction g =>
    have hnone : book.transaction g = none := by
      simp [Book.transaction, book, Finmap.lookup_insert_of_ne]
    rw [Book.transaction, he] at hnone
    cases hnone
  | account g => trivial
  | price g => trivial

theorem latestBalance_iff_far : ∃ response : Shim.Balance,
    (∃ account target,
      findAccount (farRun postFar).world.book latestFood.accountGuid "account_guid"
        = .ok account ∧
      balanceTarget (farRun postFar).world.book account latestFood = .ok target ∧
      response.amount = numericToProto (Balances.balance (farRun postFar).world.book account target
        false ((farRun postFar).world.book.splitsUntil (DayTimes.dmy2time64End latest)))) ∧
    ∀ account, (farRun postFar).world.book.splitsUntil (DayTimes.dmy2time64End latest) account
        = (farRun postFar).world.book.accountSplits account ↔
      (farRun postFar).world.book.PostedBy9999 account := by
  have hopen : (farRun postFar).world.session.isSome = true := by decide +kernel
  have haccount : findAccount (farRun postFar).world.book (guidToString 3) "account_guid"
      = .ok 3 := by decide +kernel
  have htarget : balanceTarget (farRun postFar).world.book 3 latestFood = .ok usd.name := by
    decide +kernel
  have hrun : ((Daemon.fresh config book).run
      [.start (starts []), .mutate postFar (calm 16)]).world = (farRun postFar).world := rfl
  refine ⟨_, latestBalance_iff dayTimes_keepsOrder book_dated ?_ hrun rfl
    (getBalance_iff.mpr ⟨hopen, 3, haccount, latest, rfl, usd.name, htarget, rfl, rfl⟩)⟩
  intro book hbook
  simp at hbook

/-- The post is answered OK, and the latest balance is zero. -/
theorem far_split_missed :
    (replyOf (postFar.run (calm 16) started.world)).isOk = true ∧
    (farRun postFar).world.book.splitsUntil (DayTimes.dmy2time64End latest) 3
      ≠ (farRun postFar).world.book.accountSplits 3 ∧
    ∃ response, getBalance latestFood (farRun postFar).world
        = .ok response (farRun postFar).world ∧ response.amount = ⟨0, 1⟩ := by
  have hopen : (farRun postFar).world.session.isSome = true := by decide +kernel
  have haccount : findAccount (farRun postFar).world.book (guidToString 3) "account_guid"
      = .ok 3 := by decide +kernel
  have htarget : balanceTarget (farRun postFar).world.book 3 latestFood = .ok usd.name := by
    decide +kernel
  refine ⟨by decide +kernel, by decide +kernel, _,
    getBalance_iff.mpr ⟨hopen, 3, haccount, latest, rfl, usd.name, htarget, rfl, rfl⟩,
    by decide +kernel⟩

end Witness

end Daichod
